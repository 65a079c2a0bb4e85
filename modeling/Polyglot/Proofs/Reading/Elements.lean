import Polyglot.Proofs.Reading.Unique

/-! # Elements and operations

An operation is put in parentheses where it is an operand, but not where a member or an element is
taken of it. So the text of an element has an operator outside of all brackets exactly if there is
an operation in the place of what the element is taken of. Such a text says something else than
the value: it is that of an operation on an element. No other element is spelled like an operation,
whatever names, numbers and literals there are.
-/

namespace Polyglot

open Reading

namespace Value

/-- The names that a value mentions apart from its parts. -/
def names : Value → List String
  | .binding name => [name]
  | .modelField model _ => [model]
  | value => value.models

/-- All names in the value are identifiers. -/
def Named (value : Value) : Prop :=
  ∀ part, value.Holds part → ∀ name ∈ part.names, isIdentifier name = true

theorem named_iff {value : Value} : value.Named ↔
    (∀ name ∈ value.names, isIdentifier name = true) ∧ ∀ child ∈ value.children, child.Named := by
  constructor
  · intro h
    exact ⟨h value .refl, fun child hchild part hholds => h part (.head hchild hholds)⟩
  · rintro ⟨hnames, hchildren⟩ part hholds
    rcases holds_iff.mp hholds with rfl | ⟨child, hchild, hholds⟩
    · exact hnames
    · exact hchildren child hchild part hholds

/-- The value is an operation, or a member or an element is taken of an operation in it, with no
brackets around. -/
def exposed : Value → Bool
  | .combined _ _ _ => true
  | .ownField field | .modelField _ field => field.exposed
  | .arrayElement source _ | .mapElement source _ => source.exposed
  | _ => false

end Value

namespace Reading

/-! ### Texts and their operators -/

/-- The text consists of sound pieces, and `operated` tells whether there is an operator among them
that stands in no group. -/
def Parses (operated : Bool) (text : List Char) : Prop :=
  ∃ pieces, charsAll pieces = text ∧ SoundAll pieces ∧ pieces.any Piece.isOperator = operated

/-- Outside of brackets and literals, there is an operator in the text. -/
def ReadsAsOperation (text : String) : Prop :=
  Parses true text.toList

namespace Parses

variable {a b c : Bool} {first body rest letters symbol : List Char}

/-- There is one way to read a text. -/
theorem unique (h : Parses a first) (h' : Parses b first) : a = b := by
  obtain ⟨pieces, hchars, hsound, rfl⟩ := h
  obtain ⟨others, hchars', hsound', rfl⟩ := h'
  rw [eq_of_charsAll_eq hsound hsound' (hchars.trans hchars'.symm)]

theorem readsAsOperation_iff {text : String} (h : Parses a text.toList) :
    ReadsAsOperation text ↔ a = true := by
  constructor
  · exact fun hreads => h.unique hreads
  · rintro rfl
    exact h

theorem nil : Parses false [] :=
  ⟨[], rfl, trivial, rfl⟩

theorem word (h : SoundWord letters) : Parses false letters :=
  ⟨[.word letters], by simp [charsAll, chars], soundAll_singleton h, rfl⟩

theorem quoted (content : List Char) : Parses false (Text.quoteChars content) :=
  ⟨[.quoted content], by simp [charsAll, chars], soundAll_singleton trivial, rfl⟩

/-- Texts with a piece between them that is no word. -/
theorem join (hfirst : Parses a first) (piece : Piece) (hpiece : Sound piece)
    (hword : piece.isWord = false) (hrest : Parses c rest) :
    Parses (a || (piece.isOperator || c)) (first ++ (chars piece ++ rest)) := by
  obtain ⟨pieces, rfl, hsound, rfl⟩ := hfirst
  obtain ⟨others, rfl, hsound', rfl⟩ := hrest
  refine ⟨pieces ++ piece :: others, by simp [charsAll], ?_, by simp⟩
  refine soundAll_append hsound (soundAll_cons hword hpiece hsound') ?_
  rintro next ⟨⟩
  exact hword

theorem mark (hfirst : Parses a first) (m : Mark) (hrest : Parses c rest) :
    Parses (a || c) (first ++ (m.chars ++ rest)) :=
  hfirst.join (.mark m) trivial rfl hrest

theorem operator (hfirst : Parses a first) (hsymbol : SoundSymbol symbol)
    (hrest : Parses c rest) : Parses true (first ++ (' ' :: (symbol ++ ' ' :: rest))) := by
  simpa [chars, Piece.isOperator] using hfirst.join (.operator symbol) hsymbol rfl hrest

theorem group (hfirst : Parses a first) (bracket : Bracket) (hbody : Parses b body)
    (hrest : Parses c rest) :
    Parses (a || c) (first ++ (bracket.opening :: (body ++ bracket.closing :: rest))) := by
  obtain ⟨pieces, rfl, hsound, -⟩ := hbody
  simpa [chars, Piece.isOperator] using hfirst.join (.group bracket pieces) hsound rfl hrest

/-- Numbers consist of words and points. -/
theorem number (h : ∀ c ∈ rest, isLetter c = true ∨ c = '.') : Parses false rest := by
  -- The letters before a point are collected until it is found.
  suffices hcollected : ∀ letters : List Char, (∀ c ∈ letters, isLetter c = true) →
      Parses false (letters ++ rest) from hcollected [] (by simp)
  have hword : ∀ letters : List Char, (∀ c ∈ letters, isLetter c = true) →
      Parses false letters := by
    intro letters hletters
    cases letters with
    | nil => exact nil
    | cons c letters => exact word ⟨List.cons_ne_nil _ _, .inl hletters⟩
  induction rest with
  | nil =>
    intro letters hletters
    simpa using hword letters hletters
  | cons c rest ih =>
    intro letters hletters
    replace ih := ih fun d hd => h d (List.mem_cons_of_mem c hd)
    rcases h c List.mem_cons_self with hc | rfl
    · have hmore : ∀ d ∈ letters ++ [c], isLetter d = true := by
        simpa [or_imp, forall_and, hc] using hletters
      simpa using ih (letters ++ [c]) hmore
    · exact (hword letters hletters).mark .point (ih [] (by simp))

theorem commaSeparated {texts : List String}
    (h : ∀ text ∈ texts, ∃ operated, Parses operated text.toList) :
    ∃ operated, Parses operated (Text.commaSeparated texts).toList := by
  fun_induction Text.commaSeparated texts with
  | case1 => exact ⟨false, nil⟩
  | case2 last => exact h last List.mem_cons_self
  | case3 first second rest ih =>
    obtain ⟨a, hfirst⟩ := h first List.mem_cons_self
    obtain ⟨b, hrest⟩ := ih fun text htext => h text (List.mem_cons_of_mem first htext)
    exact ⟨a || b, by simpa [Mark.chars] using hfirst.mark .comma hrest⟩

theorem digits {text : String} (h : ∀ c ∈ text.toList, c.isDigit = true ∨ c = '.' ∨ c = '-') :
    Parses false text.toList := by
  refine number fun c hc => ?_
  rcases h c hc with hdigit | hpoint | rfl
  · exact .inl (by simp [isLetter, Char.isAlphanum, hdigit])
  · exact .inr hpoint
  · exact .inl rfl

/-! ### Values in either target -/

variable {left right source index field name op : String}

theorem identifier (h : isIdentifier name = true) : Parses false name.toList :=
  word (soundWord_of_isIdentifier h)

theorem member (hname : Parses false name.toList) (hfield : Parses a field.toList) :
    Parses a (name ++ "." ++ field).toList := by
  simpa [Mark.chars] using hname.mark .point hfield

theorem element (hsource : Parses a source.toList) (hindex : Parses b index.toList) :
    Parses a (source ++ "[" ++ index ++ "]").toList := by
  simpa [Bracket.opening, Bracket.closing] using hsource.group .square hindex nil

theorem call (hname : Parses a name.toList) (hargument : Parses b index.toList) :
    Parses a (name ++ "(" ++ index ++ ")").toList := by
  simpa [Bracket.opening, Bracket.closing] using hname.group .round hargument nil

/-- Operands that are operations stand in parentheses. -/
theorem grouped (value : Value) (h : Parses a left.toList) :
    ∃ operated, Parses operated (Lowering.grouped value left).toList := by
  rw [Lowering.grouped]
  split
  · refine ⟨false, ?_⟩
    simpa [Bracket.opening, Bracket.closing] using nil.group .round h nil
  · exact ⟨a, h⟩

/-- Whatever its operands are, an operation has an operator outside of brackets. -/
theorem operation (first second : Value) (hleft : Parses a left.toList)
    (hsymbol : SoundSymbol op.toList) (hright : Parses b right.toList) :
    Parses true (Lowering.grouped first left ++ " " ++ op ++ " " ++
      Lowering.grouped second right).toList := by
  obtain ⟨_, hfirst⟩ := hleft.grouped first
  obtain ⟨_, hsecond⟩ := hright.grouped second
  simpa using hfirst.operator hsymbol hsecond

end Parses

end Reading

/-! ### TypeScript -/

namespace TypeScript

theorem parses_typeText {ty : Ty} (hnames : ∀ name ∈ ty.models, isIdentifier name = true)
    {text : String} (h : typeText ty = .ok text) : Parses false text.toList := by
  induction ty generalizing text with
  | primitive kind =>
    cases h
    exact .word (by cases kind <;> decide)
  | model name =>
    cases h
    exact .identifier (hnames name List.mem_cons_self)
  | array element ih =>
    rw [typeText] at h
    obtain ⟨elementText, helement, h⟩ := Step.outcome_bind_eq_ok_iff.mp h
    cases h
    simpa [Bracket.opening, Bracket.closing] using (ih hnames helement).group .square .nil .nil
  | map key value ihKey ihValue =>
    rw [typeText] at h
    obtain ⟨keyText, hkey, h⟩ := Step.outcome_bind_eq_ok_iff.mp h
    obtain ⟨valueText, hvalue, h⟩ := Step.outcome_bind_eq_ok_iff.mp h
    cases h
    obtain ⟨hkeyNames, hvalueNames⟩ := List.forall_mem_append.mp hnames
    have htypes := (ihKey hkeyNames hkey).mark .comma (ihValue hvalueNames hvalue)
    have hmap := Parses.word (by decide : SoundWord "Map".toList)
    simpa [Bracket.opening, Bracket.closing, Mark.chars] using hmap.group .angle htypes .nil
  | pointer pointee => cases h

theorem parses_floatText (bits : UInt64) : Parses false (floatText bits).toList := by
  rw [floatText]
  split
  · next text hfinite => exact .digits (Go.isDigit_or_of_mem_finiteText hfinite)
  · split_ifs <;> exact .word (by decide)

theorem parses_valueTexts {values : List Value}
    (hspelled : ∀ value ∈ values, ∀ text, valueText value = .ok text →
      Parses value.exposed text.toList) {texts : List String} (h : valueTexts values = .ok texts) :
    ∃ operated, Parses operated (Text.commaSeparated texts).toList := by
  apply Parses.commaSeparated
  induction values generalizing texts with
  | nil =>
    cases h
    nofun
  | cons value rest ih =>
    rw [valueTexts] at h
    obtain ⟨text, htext, h⟩ := Step.outcome_bind_eq_ok_iff.mp h
    obtain ⟨others, hothers, h⟩ := Step.outcome_bind_eq_ok_iff.mp h
    cases h
    obtain ⟨hvalue, hrest⟩ := List.forall_mem_cons.mp hspelled
    exact List.forall_mem_cons.mpr ⟨⟨_, hvalue text htext⟩, ih hrest hothers⟩

theorem parses_entryTexts {entries : List (Value × Value)}
    (hspelled : ∀ value ∈ entries.flatMap fun entry => [entry.1, entry.2], ∀ text,
      valueText value = .ok text → Parses value.exposed text.toList) {texts : List String}
    (h : entryTexts entries = .ok texts) :
    ∃ operated, Parses operated (Text.commaSeparated texts).toList := by
  apply Parses.commaSeparated
  induction entries generalizing texts with
  | nil =>
    cases h
    nofun
  | cons entry rest ih =>
    rw [entryTexts] at h
    obtain ⟨keyText, hkey, h⟩ := Step.outcome_bind_eq_ok_iff.mp h
    obtain ⟨text, htext, h⟩ := Step.outcome_bind_eq_ok_iff.mp h
    obtain ⟨others, hothers, h⟩ := Step.outcome_bind_eq_ok_iff.mp h
    cases h
    rw [List.flatMap_cons, List.forall_mem_append] at hspelled
    have hpair := (hspelled.1 entry.1 (by simp) keyText hkey).mark .comma
      (hspelled.1 entry.2 (by simp) text htext)
    refine List.forall_mem_cons.mpr ⟨⟨false, ?_⟩, ih hspelled.2 hothers⟩
    simpa [Bracket.opening, Bracket.closing, Mark.chars] using Parses.nil.group .square hpair .nil

/-- The text of a value has an operator outside of brackets exactly if the value is exposed. -/
theorem parses_valueText {value : Value} (hnamed : value.Named) {text : String}
    (h : valueText value = .ok text) : Parses value.exposed text.toList := by
  induction value using Value.induction_children generalizing text with
  | step value ih =>
    obtain ⟨hnames, hchildren⟩ := Value.named_iff.mp hnamed
    replace ih : ∀ child ∈ value.children, ∀ text, valueText child = .ok text →
        Parses child.exposed text.toList :=
      fun child hchild text => ih child hchild (hchildren child hchild)
    cases value with
    | null =>
      cases h
      exact .word (by decide)
    | text content =>
      cases h
      simpa [Text.quote, Value.exposed] using Parses.quoted content.toList
    | int n =>
      cases h
      exact .word (soundWord_intText n.toInt)
    | float bits =>
      cases h
      exact parses_floatText bits
    | bool b =>
      cases h
      exact .word (by cases b <;> decide)
    | array element elements =>
      rw [valueText] at h
      obtain ⟨texts, htexts, h⟩ := Step.outcome_bind_eq_ok_iff.mp h
      cases h
      obtain ⟨_, helements⟩ := parses_valueTexts ih htexts
      simpa [Bracket.opening, Bracket.closing, Value.exposed] using
        Parses.nil.group .square helements .nil
    | map key value entries =>
      rw [valueText, typeText] at h
      obtain ⟨type, htype, h⟩ := Step.outcome_bind_eq_ok_iff.mp h
      obtain ⟨keyText, hkey, htype⟩ := Step.outcome_bind_eq_ok_iff.mp htype
      obtain ⟨valueText', hvalue, htype⟩ := Step.outcome_bind_eq_ok_iff.mp htype
      cases htype
      obtain ⟨texts, htexts, h⟩ := Step.outcome_bind_eq_ok_iff.mp h
      cases h
      obtain ⟨hkeyNames, hvalueNames⟩ := List.forall_mem_append.mp hnames
      have htypes := (parses_typeText hkeyNames hkey).mark .comma
        (parses_typeText hvalueNames hvalue)
      obtain ⟨_, hentries⟩ := parses_entryTexts ih htexts
      have hargument := Parses.nil.group .round (Parses.nil.group .square hentries .nil) .nil
      have hnew := Parses.word (by decide : SoundWord ("new ".toList ++ "Map".toList))
      simpa [Bracket.opening, Bracket.closing, Mark.chars, Value.exposed] using
        hnew.group .angle htypes hargument
    | binding name =>
      cases h
      exact .identifier (hnames text List.mem_cons_self)
    | ownField field =>
      rw [valueText] at h
      obtain ⟨fieldText, hfield, h⟩ := Step.outcome_bind_eq_ok_iff.mp h
      cases h
      have hthis := Parses.word (by decide : SoundWord "this".toList)
      exact hthis.member (ih field List.mem_cons_self fieldText hfield)
    | modelField model field =>
      rw [valueText] at h
      obtain ⟨fieldText, hfield, h⟩ := Step.outcome_bind_eq_ok_iff.mp h
      cases h
      have hmodel := Parses.identifier (hnames model List.mem_cons_self)
      exact hmodel.member (ih field List.mem_cons_self fieldText hfield)
    | arrayElement source index =>
      rw [valueText] at h
      obtain ⟨sourceText, hsource, h⟩ := Step.outcome_bind_eq_ok_iff.mp h
      obtain ⟨indexText, hindex, h⟩ := Step.outcome_bind_eq_ok_iff.mp h
      cases h
      exact (ih source (by simp [Value.children]) _ hsource).element
        (ih index (by simp [Value.children]) _ hindex)
    | mapElement source key =>
      rw [valueText] at h
      obtain ⟨sourceText, hsource, h⟩ := Step.outcome_bind_eq_ok_iff.mp h
      obtain ⟨keyText, hkey, h⟩ := Step.outcome_bind_eq_ok_iff.mp h
      cases h
      have hget := (Parses.word (by decide : SoundWord "get".toList)).group .round
        (ih key (by simp [Value.children]) _ hkey) .nil
      simpa [Bracket.opening, Bracket.closing, Mark.chars, Value.exposed] using
        (ih source (by simp [Value.children]) _ hsource).mark .point hget
    | combined left op right =>
      rw [valueText] at h
      obtain ⟨leftText, hleft, h⟩ := Step.outcome_bind_eq_ok_iff.mp h
      obtain ⟨rightText, hright, h⟩ := Step.outcome_bind_eq_ok_iff.mp h
      cases h
      exact (ih left (by simp [Value.children]) _ hleft).operation left right
        (soundSymbol .script op) (ih right (by simp [Value.children]) _ hright)
    | intToText inner =>
      rw [valueText] at h
      obtain ⟨innerText, hinner, h⟩ := Step.outcome_bind_eq_ok_iff.mp h
      cases h
      have hcall := Parses.word (by decide : SoundWord "String".toList)
      exact hcall.call (ih inner List.mem_cons_self _ hinner)

end TypeScript

/-! ### Go -/

namespace Go

theorem parses_typeText {ty : Ty} (hnames : ∀ name ∈ ty.models, isIdentifier name = true)
    {text : String} (h : typeText ty = .ok text) : Parses false text.toList := by
  induction ty generalizing text with
  | primitive kind =>
    cases h
    exact .word (by cases kind <;> decide)
  | model name =>
    cases h
    exact .identifier (hnames name List.mem_cons_self)
  | array element ih =>
    rw [typeText] at h
    obtain ⟨elementText, helement, h⟩ := Step.outcome_bind_eq_ok_iff.mp h
    cases h
    simpa [Bracket.opening, Bracket.closing] using
      Parses.nil.group .square .nil (ih hnames helement)
  | map key value ihKey ihValue =>
    rw [typeText] at h
    obtain ⟨keyText, hkey, h⟩ := Step.outcome_bind_eq_ok_iff.mp h
    obtain ⟨valueText, hvalue, h⟩ := Step.outcome_bind_eq_ok_iff.mp h
    cases h
    obtain ⟨hkeyNames, hvalueNames⟩ := List.forall_mem_append.mp hnames
    have hmap := Parses.word (by decide : SoundWord "map".toList)
    simpa [Bracket.opening, Bracket.closing] using
      hmap.group .square (ihKey hkeyNames hkey) (ihValue hvalueNames hvalue)
  | pointer pointee => cases h

theorem parses_floatText {bits : UInt64} {text : String} {imports imports' : Imports}
    (h : floatText bits imports = .ok text imports') : Parses false text.toList := by
  have hcall : ∀ function argument : String, SoundWord function.toList →
      Parses false argument.toList →
      Parses false ("math" ++ "." ++ function ++ "(" ++ argument ++ ")").toList := by
    intro function argument hfunction hargument
    have hmath := Parses.word (by decide : SoundWord "math".toList)
    exact (hmath.member (.word hfunction)).call hargument
  rw [floatText] at h
  cases hbits : Decimal.finiteText? bits with
  | some spelled =>
    rw [hbits] at h
    cases h
    exact .digits (isDigit_or_of_mem_fractional hbits)
  | none =>
    rw [hbits] at h
    cases h
    split_ifs
    · exact hcall "NaN" "" (by decide) .nil
    · exact hcall "Inf" "-1" (by decide) (.word (by decide))
    · exact hcall "Inf" "1" (by decide) (.word (by decide))

variable {receiver : Option String}

theorem parses_valueTexts {values : List Value}
    (hspelled : ∀ value ∈ values, ∀ imports text imports',
      valueText receiver value imports = .ok text imports' → Parses value.exposed text.toList)
    {texts : List String} {imports imports' : Imports}
    (h : valueTexts receiver values imports = .ok texts imports') :
    ∃ operated, Parses operated (Text.commaSeparated texts).toList := by
  apply Parses.commaSeparated
  induction values generalizing texts imports with
  | nil =>
    cases h
    nofun
  | cons value rest ih =>
    rw [valueTexts] at h
    obtain ⟨text, _, htext, h⟩ := Step.bind_eq_ok_iff.mp h
    obtain ⟨others, _, hothers, h⟩ := Step.bind_eq_ok_iff.mp h
    cases h
    obtain ⟨hvalue, hrest⟩ := List.forall_mem_cons.mp hspelled
    exact List.forall_mem_cons.mpr ⟨⟨_, hvalue _ text _ htext⟩, ih hrest hothers⟩

theorem parses_entryTexts {entries : List (Value × Value)}
    (hspelled : ∀ value ∈ entries.flatMap fun entry => [entry.1, entry.2],
      ∀ imports text imports', valueText receiver value imports = .ok text imports' →
        Parses value.exposed text.toList)
    {texts : List String} {imports imports' : Imports}
    (h : entryTexts receiver entries imports = .ok texts imports') :
    ∃ operated, Parses operated (Text.commaSeparated texts).toList := by
  apply Parses.commaSeparated
  induction entries generalizing texts imports with
  | nil =>
    cases h
    nofun
  | cons entry rest ih =>
    rw [entryTexts] at h
    obtain ⟨keyText, _, hkey, h⟩ := Step.bind_eq_ok_iff.mp h
    obtain ⟨text, _, htext, h⟩ := Step.bind_eq_ok_iff.mp h
    obtain ⟨others, _, hothers, h⟩ := Step.bind_eq_ok_iff.mp h
    cases h
    rw [List.flatMap_cons, List.forall_mem_append] at hspelled
    have hpair := (hspelled.1 entry.1 (by simp) _ keyText _ hkey).mark .colon
      (hspelled.1 entry.2 (by simp) _ text _ htext)
    have hentry : Parses (entry.1.exposed || entry.2.exposed)
        (keyText ++ ": " ++ text).toList := by
      simpa [Mark.chars] using hpair
    exact List.forall_mem_cons.mpr ⟨⟨_, hentry⟩, ih hspelled.2 hothers⟩

/-- The text of a value has an operator outside of brackets exactly if the value is exposed. -/
theorem parses_valueText (hreceiver : ∀ name ∈ receiver, isIdentifier name = true) {value : Value}
    (hnamed : value.Named) {text : String} {imports imports' : Imports}
    (h : valueText receiver value imports = .ok text imports') :
    Parses value.exposed text.toList := by
  induction value using Value.induction_children generalizing text imports imports' with
  | step value ih =>
    obtain ⟨hnames, hchildren⟩ := Value.named_iff.mp hnamed
    replace ih : ∀ child ∈ value.children, ∀ imports text imports',
        valueText receiver child imports = .ok text imports' →
          Parses child.exposed text.toList :=
      fun child hchild imports text imports' => ih child hchild (hchildren child hchild)
    cases value with
    | null =>
      cases h
      exact .word (by decide)
    | text content =>
      cases h
      simpa [Text.quote, Value.exposed] using Parses.quoted content.toList
    | int n =>
      cases h
      exact .word (soundWord_intText n.toInt)
    | float bits =>
      rw [valueText] at h
      exact parses_floatText h
    | bool b =>
      cases h
      exact .word (by cases b <;> decide)
    | array element elements =>
      rw [valueText] at h
      obtain ⟨type, htype, h⟩ := Step.lift_bind_eq_ok_iff.mp h
      obtain ⟨texts, _, htexts, h⟩ := Step.bind_eq_ok_iff.mp h
      cases h
      have hmodels : ∀ name ∈ (Ty.array element).models, isIdentifier name = true := hnames
      have htypeText := parses_typeText hmodels htype
      obtain ⟨_, helements⟩ := parses_valueTexts ih htexts
      simpa [Bracket.opening, Bracket.closing, Value.exposed] using
        htypeText.group .curly helements .nil
    | map key value entries =>
      rw [valueText] at h
      obtain ⟨type, htype, h⟩ := Step.lift_bind_eq_ok_iff.mp h
      obtain ⟨texts, _, htexts, h⟩ := Step.bind_eq_ok_iff.mp h
      cases h
      have hmodels : ∀ name ∈ (Ty.map key value).models, isIdentifier name = true := hnames
      have htypeText := parses_typeText hmodels htype
      obtain ⟨_, hentries⟩ := parses_entryTexts ih htexts
      simpa [Bracket.opening, Bracket.closing, Value.exposed] using
        htypeText.group .curly hentries .nil
    | binding name =>
      cases h
      exact .identifier (hnames text List.mem_cons_self)
    | ownField field =>
      cases receiver with
      | none => cases h
      | some name =>
        rw [valueText] at h
        obtain ⟨fieldText, _, hfield, h⟩ := Step.bind_eq_ok_iff.mp h
        cases h
        exact (Parses.identifier (hreceiver name rfl)).member
          (ih field List.mem_cons_self _ fieldText _ hfield)
    | modelField model field =>
      rw [valueText] at h
      obtain ⟨fieldText, _, hfield, h⟩ := Step.bind_eq_ok_iff.mp h
      cases h
      have hmodel := Parses.identifier (hnames model List.mem_cons_self)
      exact hmodel.member (ih field List.mem_cons_self _ fieldText _ hfield)
    | arrayElement source index | mapElement source index =>
      rw [valueText] at h
      obtain ⟨sourceText, _, hsource, h⟩ := Step.bind_eq_ok_iff.mp h
      obtain ⟨indexText, _, hindex, h⟩ := Step.bind_eq_ok_iff.mp h
      cases h
      exact (ih source (by simp [Value.children]) _ _ _ hsource).element
        (ih index (by simp [Value.children]) _ _ _ hindex)
    | combined left op right =>
      rw [valueText] at h
      obtain ⟨leftText, _, hleft, h⟩ := Step.bind_eq_ok_iff.mp h
      obtain ⟨rightText, _, hright, h⟩ := Step.bind_eq_ok_iff.mp h
      cases h
      have hsymbol : SoundSymbol op.symbol.toList := by cases op <;> decide
      exact (ih left (by simp [Value.children]) _ _ _ hleft).operation left right hsymbol
        (ih right (by simp [Value.children]) _ _ _ hright)
    | intToText inner =>
      rw [valueText] at h
      obtain ⟨_, _, _, h⟩ := Step.bind_eq_ok_iff.mp h
      obtain ⟨innerText, _, hinner, h⟩ := Step.bind_eq_ok_iff.mp h
      cases h
      have hinnerText := ih inner List.mem_cons_self _ innerText _ hinner
      have hfunction := Parses.word (by decide : SoundWord "strconv".toList) |>.mark .point
        (.word (by decide : SoundWord "FormatInt".toList))
      have hconverted := Parses.word (by decide : SoundWord "int64".toList) |>.group .round
        hinnerText .nil
      have harguments := hconverted.mark .comma (.word (by decide : SoundWord "10".toList))
      simpa [Bracket.opening, Bracket.closing, Mark.chars, Value.exposed] using
        hfunction.group .round harguments .nil

end Go

/-! ### Elements -/

/-- An operation in the place of what an element is taken of loses its right operand to the
element: what is spelled is an operation on an element. -/
theorem Value.spelled_as_operation_on_element {access : Value → Value → Value}
    (haccess : access = .arrayElement ∨ access = .mapElement) (left right index : Value)
    (op : Operator) (hright : right.isOperation = false) :
    TypeScript.valueText (access (.combined left op right) index) =
        TypeScript.valueText (.combined left op (access right index)) ∧
      ∀ receiver, Go.valueText receiver (access (.combined left op right) index) =
        Go.valueText receiver (.combined left op (access right index)) := by
  have hoperand : ∀ text, Lowering.grouped right text = text := by
    intro text
    rw [Lowering.grouped, hright]
    rfl
  have helement : ∀ text, Lowering.grouped (access right index) text = text := by
    rcases haccess with rfl | rfl <;> exact fun _ => rfl
  -- Both spell the left operand, the right operand and the index, in this order.
  rcases haccess with rfl | rfl
  all_goals
    refine ⟨?_, fun receiver => ?_⟩
    · simp [TypeScript.valueText, hoperand, helement, String.append_assoc]
    · simp [Go.valueText, hoperand, helement, String.append_assoc]

/-- The text of an element reads as an operation exactly if an operation is exposed in what the
element is taken of. If none is, no operation has the same text. If an operation is itself what the
element is taken of, and its right operand needs no parentheses, the text is that of the operation
on an element of its right operand. -/
theorem Value.element_reads_as_operation_iff {access : Value → Value → Value}
    (haccess : access = .arrayElement ∨ access = .mapElement) (source index : Value)
    (hnamed : (access source index).Named) :
    (∀ text, TypeScript.valueText (access source index) = .ok text →
      (ReadsAsOperation text ↔ source.exposed = true) ∧
      (source.exposed = false → ∀ left op right, (Value.combined left op right).Named →
        TypeScript.valueText (.combined left op right) ≠ .ok text)) ∧
    (∀ receiver, (∀ name ∈ receiver, isIdentifier name = true) → ∀ imports text,
      Step.result (Go.valueText receiver (access source index) imports) = .ok text →
      (ReadsAsOperation text ↔ source.exposed = true) ∧
      (source.exposed = false → ∀ left op right imports', (Value.combined left op right).Named →
        Step.result (Go.valueText receiver (.combined left op right) imports') ≠ .ok text)) ∧
    ∀ left op right, source = .combined left op right → right.isOperation = false →
      TypeScript.valueText (access source index) =
          TypeScript.valueText (.combined left op (access right index)) ∧
        ∀ receiver, Go.valueText receiver (access source index) =
          Go.valueText receiver (.combined left op (access right index)) := by
  have hexposed : (access source index).exposed = source.exposed := by
    rcases haccess with rfl | rfl <;> rfl
  refine ⟨?_, ?_, ?_⟩
  · intro text htext
    have hparses := TypeScript.parses_valueText hnamed htext
    rw [hexposed] at hparses
    refine ⟨hparses.readsAsOperation_iff, fun hsource left op right hoperation hsame => ?_⟩
    have hread := TypeScript.parses_valueText hoperation hsame
    exact absurd (hparses.unique hread) (by simp [hsource, Value.exposed])
  · intro receiver hreceiver imports text htext
    obtain ⟨_, htext⟩ := Step.result_eq_ok_iff.mp htext
    have hparses := Go.parses_valueText hreceiver hnamed htext
    rw [hexposed] at hparses
    refine ⟨hparses.readsAsOperation_iff, fun hsource left op right imports' hoperation hsame => ?_⟩
    obtain ⟨_, hsame⟩ := Step.result_eq_ok_iff.mp hsame
    have hread := Go.parses_valueText hreceiver hoperation hsame
    exact absurd (hparses.unique hread) (by simp [hsource, Value.exposed])
  · rintro left op right rfl hright
    exact spelled_as_operation_on_element haccess left right index op hright

/-- An element of a map under a sum of two variables, and an element of the sum. -/
theorem Value.element_reads_as_operation_iff_sum :
    let rates := Value.modelField "till" (.binding "rates")
    let sum := Value.combined (.binding "a") .add (.binding "b")
    (TypeScript.valueText (.mapElement rates sum) = .ok "till.rates.get(a + b)" ∧
      ¬ ReadsAsOperation "till.rates.get(a + b)") ∧
    (Go.valueText (some "m") (.mapElement rates sum) {} = .ok "till.rates[a + b]" {} ∧
      ¬ ReadsAsOperation "till.rates[a + b]") ∧
    TypeScript.valueText (.arrayElement sum rates) = .ok "a + b[till.rates]" ∧
      ReadsAsOperation "a + b[till.rates]" ∧
      TypeScript.valueText (.arrayElement sum rates) = TypeScript.valueText
        (.combined (.binding "a") .add (.arrayElement (.binding "b") rates)) := by
  intro rates sum
  have hbinding : ∀ name ∈ ["a", "b", "rates"], (Value.binding name).Named := by
    intro name hname
    refine named_iff.mpr ⟨?_, nofun⟩
    revert name
    decide
  have hrates : rates.Named :=
    named_iff.mpr ⟨by decide, by simp [rates, children, hbinding "rates"]⟩
  have hsum : sum.Named :=
    named_iff.mpr ⟨by decide, by simp [sum, children, hbinding "a", hbinding "b"]⟩
  have hmap : (Value.mapElement rates sum).Named :=
    named_iff.mpr ⟨nofun, by simp [children, hrates, hsum]⟩
  have harray : (Value.arrayElement sum rates).Named :=
    named_iff.mpr ⟨nofun, by simp [children, hrates, hsum]⟩
  obtain ⟨hscript, hgo, -⟩ := element_reads_as_operation_iff (.inr rfl) rates sum hmap
  obtain ⟨hexposed, -, hsame⟩ := element_reads_as_operation_iff (.inl rfl) sum rates harray
  have hreceiver : ∀ name ∈ some "m", isIdentifier name = true := by
    rintro name ⟨⟩
    rfl
  refine ⟨⟨rfl, fun hreads => ?_⟩, ⟨rfl, fun hreads => ?_⟩, rfl, ?_, ?_⟩
  · exact Bool.false_ne_true ((hscript _ rfl).1.mp hreads)
  · exact Bool.false_ne_true ((hgo (some "m") hreceiver {} _ rfl).1.mp hreads)
  · exact (hexposed _ rfl).1.mpr rfl
  · exact (hsame _ _ _ rfl rfl).1

/-- An element of a sum is spelled like a sum with an element. -/
theorem Value.element_spelled_as_sum :
    let sum := Value.combined (.binding "a") .add (.binding "b")
    let index := Value.binding "i"
    TypeScript.valueText (.arrayElement sum index) = .ok "a + b[i]" ∧
    TypeScript.valueText (.combined (.binding "a") .add (.arrayElement (.binding "b") index)) =
      .ok "a + b[i]" ∧
    TypeScript.valueText (.mapElement sum index) = .ok "a + b.get(i)" ∧
    TypeScript.valueText (.combined (.binding "a") .add (.mapElement (.binding "b") index)) =
      .ok "a + b.get(i)" ∧
    Go.valueText (some "m") (.arrayElement sum index) {} = .ok "a + b[i]" {} ∧
    Go.valueText (some "m") (.mapElement sum index) {} = .ok "a + b[i]" {} ∧
    Go.valueText (some "m")
      (.combined (.binding "a") .add (.arrayElement (.binding "b") index)) {} =
        .ok "a + b[i]" {} :=
  ⟨rfl, rfl, rfl, rfl, rfl, rfl, rfl⟩

end Polyglot
