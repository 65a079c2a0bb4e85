import Polyglot.Proofs.Reading.Unique

/-! # Unique reading of types

Go puts brackets before the types of elements and values, TypeScript after or around them. Either
way types without pointers can be told apart by their text, as far as the target tells them apart at
all: Go keeps every width, and TypeScript has one type for all numbers. Names of models may be any
identifiers that are not taken for primitive types.
-/

namespace Polyglot

namespace Reading

/-! ### Words -/

/-- The letters of identifiers in either target. Everything beyond ASCII is let in. -/
def isNameLetter (c : Char) : Bool :=
  c.isAlphanum || c = '_' || c = '$' || 0x80 ≤ c.toNat

/-- A text of letters. -/
def IsSpelled (letters : List Char) : Prop :=
  letters ≠ [] ∧ ∀ c ∈ letters, isNameLetter c = true

instance (letters : List Char) : Decidable (IsSpelled letters) :=
  decidable_of_iff (letters ≠ [] ∧ letters.all isNameLetter = true) (by rw [List.all_eq_true]; rfl)

/-- An identifier that names no primitive type in either target. It may be the word for maps, since
what follows tells the two apart. -/
def IsTypeName (name : String) : Prop :=
  IsSpelled name.toList ∧
    ∀ kind ∈ Primitive.all, name ≠ kind.name ∧ name ≠ TypeScript.primitiveText kind

instance (name : String) : Decidable (IsTypeName name) :=
  inferInstanceAs (Decidable (_ ∧ ∀ kind ∈ Primitive.all, _))

/-- The text goes on with one of the marks, or ends. -/
def GoesOn (marks : List Char) (text : List Char) : Prop :=
  ∀ c ∈ text.head?, c ∈ marks

theorem goesOn_nil (marks : List Char) : GoesOn marks [] :=
  nofun

theorem goesOn_cons {marks text : List Char} {c : Char} (h : c ∈ marks) :
    GoesOn marks (c :: text) := by
  rintro d ⟨⟩
  exact h

theorem GoesOn.mono {marks marks' text : List Char} (h : GoesOn marks text)
    (hsub : marks ⊆ marks') : GoesOn marks' text :=
  fun c hc => hsub (h c hc)

/-- Marks that can follow a word in the text of a type. -/
def typeMarks : List Char := ['[', ']', '<', '>', ',']

theorem spelled_inj {first second rest others : List Char} (hfirst : IsSpelled first)
    (hsecond : IsSpelled second) (hrest : GoesOn typeMarks rest) (hothers : GoesOn typeMarks others)
    (h : first ++ rest = second ++ others) : first = second ∧ rest = others := by
  have hall : typeMarks.all (fun c => !isNameLetter c) = true := by decide
  have hmarks : ∀ c ∈ typeMarks, ¬ isNameLetter c = true := by simpa using hall
  exact append_inj_of_run hfirst.2 hsecond.2 (fun c hc => hmarks c (hrest c hc))
    (fun c hc => hmarks c (hothers c hc)) h

end Reading

open Reading

namespace Ty

/-- There are no pointers in the type, and models have names that can be told from other types. -/
def Clear (ty : Ty) : Prop :=
  ty.hasPointer = false ∧ ∀ name ∈ ty.models, IsTypeName name

instance (ty : Ty) : Decidable ty.Clear :=
  inferInstanceAs (Decidable (ty.hasPointer = false ∧ ∀ name ∈ ty.models, IsTypeName name))

theorem Clear.key {key value : Ty} (h : (map key value).Clear) : key.Clear := by
  have hpointer := h.1
  simp only [hasPointer, Bool.or_eq_false_iff] at hpointer
  exact ⟨hpointer.1, fun name hname => h.2 name (List.mem_append_left _ hname)⟩

theorem Clear.value {key value : Ty} (h : (map key value).Clear) : value.Clear := by
  have hpointer := h.1
  simp only [hasPointer, Bool.or_eq_false_iff] at hpointer
  exact ⟨hpointer.2, fun name hname => h.2 name (List.mem_append_right _ hname)⟩

/-- The word that a primitive type or a model is spelled with. -/
def word? (spell : Primitive → String) : Ty → Option String
  | primitive kind => some (spell kind)
  | model name => some name
  | _ => none

/-- What is left of a type without the arrays around it. -/
def base : Ty → Ty
  | array element => element.base
  | ty => ty

/-- The number of arrays around a type. -/
def depth : Ty → Nat
  | array element => element.depth + 1
  | _ => 0

/-- A type with arrays put around it. -/
def nested : Nat → Ty → Ty
  | 0, ty => ty
  | n + 1, ty => array (nested n ty)

theorem nested_array (n : Nat) (ty : Ty) : nested n (array ty) = nested (n + 1) ty := by
  induction n with
  | zero => rfl
  | succ n ih => exact congrArg array ih

theorem clear_base {ty : Ty} (h : ty.Clear) : ty.base.Clear := by
  induction ty with
  | array element ih => exact ih h
  | _ => exact h

theorem base_ne_array (ty element : Ty) : ty.base ≠ array element := by
  induction ty with
  | array inner ih => exact ih
  | _ => exact nofun

theorem collapse_eq_nested (ty : Ty) : ty.collapse = nested ty.depth ty.base.collapse := by
  induction ty with
  | array element ih => exact congrArg array ih
  | _ => rfl

end Ty

namespace Reading

/-- The words for primitive types in a target. -/
structure Vocabulary (spell : Primitive → String) : Prop where
  spelled : ∀ kind, IsSpelled (spell kind).toList
  ne_name : ∀ kind name, IsTypeName name → name ≠ spell kind

theorem mem_primitives (kind : Primitive) : kind ∈ Primitive.all := by
  cases kind <;> decide

theorem vocabulary_name : Vocabulary Primitive.name where
  spelled kind := by cases kind <;> decide
  ne_name kind name h := (h.2 kind (mem_primitives kind)).1

theorem vocabulary_primitiveText : Vocabulary TypeScript.primitiveText where
  spelled kind := by cases kind <;> decide
  ne_name kind name h := (h.2 kind (mem_primitives kind)).2

section
variable {spell : Primitive → String} {first second ty : Ty} {word : String}

theorem Vocabulary.isSpelled (h : Vocabulary spell) (hty : ty.Clear)
    (hword : ty.word? spell = some word) : IsSpelled word.toList := by
  cases ty with
  | primitive kind =>
    obtain rfl : spell kind = word := Option.some.inj hword
    exact h.spelled kind
  | model name =>
    obtain rfl : name = word := Option.some.inj hword
    exact (hty.2 name (List.mem_singleton_self name)).1
  | _ => cases hword

/-- Types that are spelled with one word differ at most in what the word says about primitive
types. -/
theorem Vocabulary.word_inj (h : Vocabulary spell) (hfirst : first.Clear) (hsecond : second.Clear)
    (hword : first.word? spell = some word) (hword' : second.word? spell = some word) :
    first = second ∨
      ∃ kind other, first = .primitive kind ∧ second = .primitive other ∧
        spell kind = spell other := by
  have hsame := hword.trans hword'.symm
  cases first with
  | primitive kind =>
    cases second with
    | primitive other => exact .inr ⟨kind, other, rfl, rfl, Option.some.inj hsame⟩
    | model name =>
      have hname := hsecond.2 name (List.mem_singleton_self name)
      exact absurd (Option.some.inj hsame).symm (h.ne_name kind name hname)
    | _ => cases hword'
  | model name =>
    cases second with
    | primitive kind =>
      have hname := hfirst.2 name (List.mem_singleton_self name)
      exact absurd (Option.some.inj hsame) (h.ne_name kind name hname)
    | model other => exact .inl (congrArg _ (Option.some.inj hsame))
    | _ => cases hword'
  | _ => cases hword

end

/-! ### Go -/

section
variable {first second ty : Ty} {word : String} {rest others : List Char}

theorem charsAll_goType_of_word (h : ty.word? Primitive.name = some word) :
    charsAll (goType ty) = word.toList := by
  cases ty with
  | primitive kind =>
    obtain rfl : kind.name = word := Option.some.inj h
    simp [goType, charsAll, chars]
  | model name =>
    obtain rfl : name = word := Option.some.inj h
    simp [goType, charsAll, chars]
  | _ => cases h

theorem charsAll_goType_array (element : Ty) :
    charsAll (goType (.array element)) = '[' :: ']' :: charsAll (goType element) := rfl

theorem charsAll_goType_map (key value : Ty) : charsAll (goType (.map key value)) =
    "map".toList ++ '[' :: (charsAll (goType key) ++ ']' :: charsAll (goType value)) := by
  simp [goType, charsAll, chars, Bracket.opening, Bracket.closing]

theorem goesOn_of_bracket {text : List Char} (h : GoesOn [']'] text) : GoesOn typeMarks text :=
  h.mono (by decide)

/-- What is spelled like a word is a word. -/
theorem goType_eq_of_word (hfirst : first.Clear) (hsecond : second.Clear)
    (hword : first.word? Primitive.name = some word) (hrest : GoesOn [']'] rest)
    (hothers : GoesOn [']'] others)
    (h : charsAll (goType first) ++ rest = charsAll (goType second) ++ others) :
    first = second ∧ rest = others := by
  have hspelled := vocabulary_name.isSpelled hfirst hword
  rw [charsAll_goType_of_word hword] at h
  cases hword' : second.word? Primitive.name with
  | some word' =>
    have hspelled' := vocabulary_name.isSpelled hsecond hword'
    rw [charsAll_goType_of_word hword'] at h
    obtain ⟨hsame, hrests⟩ := spelled_inj hspelled hspelled' (goesOn_of_bracket hrest)
      (goesOn_of_bracket hothers) h
    rw [← String.toList_inj.mp hsame] at hword'
    refine ⟨?_, hrests⟩
    rcases vocabulary_name.word_inj hfirst hsecond hword hword' with
      hsame | ⟨kind, other, rfl, rfl, hname⟩
    · exact hsame
    · revert hname
      cases kind <;> cases other <;> decide
  | none =>
    cases second with
    | array element =>
      obtain ⟨c, letters, hletters⟩ := List.exists_cons_of_ne_nil hspelled.1
      rw [hletters, charsAll_goType_array] at h
      obtain rfl : c = '[' := (List.cons.inj h).1
      exact absurd (hspelled.2 '[' (by simp [hletters])) (by decide)
    | map key value =>
      rw [charsAll_goType_map, List.append_assoc] at h
      obtain ⟨-, hsame⟩ := spelled_inj hspelled (by decide) (goesOn_of_bracket hrest)
        (goesOn_cons (by decide)) h
      exact absurd (hrest '[' (by rw [hsame]; rfl)) (by decide)
    | pointer pointee => cases hsecond.1
    | _ => cases hword'

/-- A type is determined by a text that starts with it and goes on with a closing bracket. -/
theorem charsAll_goType_inj (hfirst : first.Clear) (hsecond : second.Clear)
    (hrest : GoesOn [']'] rest) (hothers : GoesOn [']'] others)
    (h : charsAll (goType first) ++ rest = charsAll (goType second) ++ others) :
    first = second ∧ rest = others := by
  induction first generalizing second rest others with
  | primitive kind => exact goType_eq_of_word hfirst hsecond rfl hrest hothers h
  | model name => exact goType_eq_of_word hfirst hsecond rfl hrest hothers h
  | array element ih =>
    cases second with
    | array other =>
      have hother : other.Clear := hsecond
      simp only [charsAll_goType_array, List.cons_append, List.cons.injEq, true_and] at h
      obtain ⟨rfl, hsame⟩ := ih hfirst hother hrest hothers h
      exact ⟨rfl, hsame⟩
    | map key value =>
      simp [charsAll_goType_array, charsAll_goType_map] at h
    | pointer pointee => cases hsecond.1
    | _ => cases (goType_eq_of_word hsecond hfirst rfl hothers hrest h.symm).1
  | map key value ihKey ihValue =>
    cases second with
    | map key' value' =>
      simp only [charsAll_goType_map, List.append_assoc, List.cons_append,
        List.append_cancel_left_eq, List.cons.injEq, true_and] at h
      obtain ⟨rfl, htail⟩ := ihKey hfirst.key hsecond.key (goesOn_cons (by decide))
        (goesOn_cons (by decide)) h
      obtain ⟨rfl, hsame⟩ := ihValue hfirst.value hsecond.value hrest hothers
        (List.cons.inj htail).2
      exact ⟨rfl, hsame⟩
    | array element =>
      simp [charsAll_goType_array, charsAll_goType_map] at h
    | pointer pointee => cases hsecond.1
    | _ => cases (goType_eq_of_word hsecond hfirst rfl hothers hrest h.symm).1
  | pointer pointee => cases hfirst.1

end

/-! ### TypeScript -/

/-- Pairs of brackets. -/
def pairs (n : Nat) : List Char :=
  (List.replicate n ['[', ']']).flatten

section
variable {first second ty : Ty} {word : String} {rest others : List Char}

theorem pairs_succ (n : Nat) : pairs (n + 1) = '[' :: ']' :: pairs n := by
  simp [pairs, List.replicate_succ]

theorem pairs_concat (n : Nat) : pairs n ++ ['[', ']'] = pairs (n + 1) := by
  simp [pairs, List.replicate_succ']

theorem pairs_inj {m n : Nat} (hrest : GoesOn [',', '>'] rest) (hothers : GoesOn [',', '>'] others)
    (h : pairs m ++ rest = pairs n ++ others) : m = n ∧ rest = others := by
  have hends : ∀ {k : Nat} {text more : List Char}, GoesOn [',', '>'] text →
      text ≠ pairs (k + 1) ++ more := by
    rintro k text more htext rfl
    exact absurd (htext '[' (by rw [pairs_succ]; rfl)) (by decide)
  induction m generalizing n with
  | zero =>
    cases n with
    | zero => exact ⟨rfl, h⟩
    | succ n => exact absurd h (hends hrest)
  | succ m ih =>
    cases n with
    | zero => exact absurd h.symm (hends hothers)
    | succ n =>
      rw [pairs_succ, pairs_succ] at h
      obtain ⟨rfl, hsame⟩ := ih (List.cons.inj (List.cons.inj h).2).2
      exact ⟨rfl, hsame⟩

theorem charsAll_scriptType_of_word (h : ty.word? TypeScript.primitiveText = some word) :
    charsAll (scriptType ty) = word.toList := by
  cases ty with
  | primitive kind =>
    obtain rfl : TypeScript.primitiveText kind = word := Option.some.inj h
    simp [scriptType, charsAll, chars]
  | model name =>
    obtain rfl : name = word := Option.some.inj h
    simp [scriptType, charsAll, chars]
  | _ => cases h

theorem charsAll_scriptType_array (element : Ty) :
    charsAll (scriptType (.array element)) = charsAll (scriptType element) ++ ['[', ']'] := by
  simp [scriptType, charsAll, chars, Bracket.opening, Bracket.closing]

theorem charsAll_scriptType_map (key value : Ty) : charsAll (scriptType (.map key value)) =
    "Map".toList ++ '<' :: (charsAll (scriptType key) ++ ',' :: ' ' ::
      (charsAll (scriptType value) ++ ['>'])) := by
  simp [scriptType, charsAll, chars, Bracket.opening, Bracket.closing, comma, Mark.chars]

theorem charsAll_scriptType_eq (ty : Ty) :
    charsAll (scriptType ty) = charsAll (scriptType ty.base) ++ pairs ty.depth := by
  induction ty with
  | array element ih =>
    rw [charsAll_scriptType_array, ih, List.append_assoc, pairs_concat]
    rfl
  | _ => simp [Ty.base, Ty.depth, pairs]

theorem goesOn_pairs (n : Nat) (h : GoesOn [',', '>'] rest) :
    GoesOn typeMarks (pairs n ++ rest) := by
  cases n with
  | zero => exact h.mono (by decide)
  | succ n =>
    rw [pairs_succ]
    exact goesOn_cons (by decide)

theorem pairs_ne {n : Nat} {text : List Char} (h : GoesOn [',', '>'] rest) :
    pairs n ++ rest ≠ '<' :: text := by
  cases n with
  | zero =>
    intro hsame
    rw [show rest = '<' :: text from hsame] at h
    exact absurd (h '<' rfl) (by decide)
  | succ n =>
    rw [pairs_succ]
    simp

/-- A word with arrays around it is not spelled like a map. -/
theorem scriptType_map_ne (hty : ty.Clear) (hword : ty.word? TypeScript.primitiveText = some word)
    {key value : Ty} {n : Nat} {text : List Char} (hrest : GoesOn [',', '>'] rest) :
    charsAll (scriptType ty) ++ (pairs n ++ rest) ≠
      charsAll (scriptType (.map key value)) ++ text := by
  intro h
  rw [charsAll_scriptType_of_word hword, charsAll_scriptType_map, List.append_assoc] at h
  obtain ⟨-, htail⟩ := spelled_inj (vocabulary_primitiveText.isSpelled hty hword) (by decide)
    (goesOn_pairs n hrest) (goesOn_cons (by decide)) h
  exact pairs_ne hrest htail

/-- A word with arrays around it is spelled like nothing else. -/
theorem scriptType_eq_of_word (hfirst : first.Clear) (hsecond : second.Clear)
    (hword : first.word? TypeScript.primitiveText = some word) {n : Nat}
    (hrest : GoesOn [',', '>'] rest) (hothers : GoesOn [',', '>'] others)
    (h : charsAll (scriptType first) ++ (pairs n ++ rest) =
      charsAll (scriptType second) ++ others) :
    Ty.nested n first.collapse = second.collapse ∧ rest = others := by
  have hbase := Ty.clear_base hsecond
  rw [charsAll_scriptType_eq second, List.append_assoc] at h
  rw [Ty.collapse_eq_nested second]
  cases hword' : second.base.word? TypeScript.primitiveText with
  | some word' =>
    have hspelled := vocabulary_primitiveText.isSpelled hfirst hword
    have hspelled' := vocabulary_primitiveText.isSpelled hbase hword'
    rw [charsAll_scriptType_of_word hword, charsAll_scriptType_of_word hword'] at h
    obtain ⟨hsame, htail⟩ := spelled_inj hspelled hspelled' (goesOn_pairs n hrest)
      (goesOn_pairs _ hothers) h
    obtain ⟨rfl, hrests⟩ := pairs_inj hrest hothers htail
    rw [← String.toList_inj.mp hsame] at hword'
    refine ⟨congrArg _ ?_, hrests⟩
    rcases vocabulary_primitiveText.word_inj hfirst hbase hword hword' with
      hsame | ⟨kind, other, rfl, hother, htext⟩
    · rw [hsame]
    · rw [hother]
      revert htext
      cases kind <;> cases other <;> decide
  | none =>
    cases hcase : second.base with
    | array element => exact absurd hcase (Ty.base_ne_array second element)
    | map key value =>
      rw [hcase] at h
      exact absurd h (scriptType_map_ne hfirst hword hrest)
    | pointer pointee =>
      rw [hcase] at hbase
      cases hbase.1
    | _ =>
      rw [hcase] at hword'
      cases hword'

/-- A type is determined, up to the width of numbers, by a text that starts with it and goes on
with brackets of arrays around it. -/
theorem charsAll_scriptType_inj (hfirst : first.Clear) (hsecond : second.Clear) {n : Nat}
    (hrest : GoesOn [',', '>'] rest) (hothers : GoesOn [',', '>'] others)
    (h : charsAll (scriptType first) ++ (pairs n ++ rest) =
      charsAll (scriptType second) ++ others) :
    Ty.nested n first.collapse = second.collapse ∧ rest = others := by
  induction first generalizing second n rest others with
  | primitive kind => exact scriptType_eq_of_word hfirst hsecond rfl hrest hothers h
  | model name => exact scriptType_eq_of_word hfirst hsecond rfl hrest hothers h
  | array element ih =>
    -- The brackets of an array join those that follow it.
    have helement : element.Clear := hfirst
    have hpairs : '[' :: ']' :: (pairs n ++ rest) = pairs (n + 1) ++ rest := by
      rw [pairs_succ]
      rfl
    rw [charsAll_scriptType_array, List.append_assoc] at h
    rw [Ty.collapse, Ty.nested_array]
    exact ih helement hsecond hrest hothers (hpairs ▸ h)
  | map key value ihKey ihValue =>
    have hbase := Ty.clear_base hsecond
    rw [Ty.collapse_eq_nested second]
    rw [charsAll_scriptType_eq second, List.append_assoc] at h
    cases hcase : second.base with
    | map key' value' =>
      rw [hcase] at hbase h
      simp only [charsAll_scriptType_map, List.append_assoc, List.cons_append, List.nil_append,
        List.append_cancel_left_eq, List.cons.injEq, true_and] at h
      obtain ⟨hkey, htail⟩ := ihKey hfirst.key hbase.key (goesOn_cons (by decide))
        (goesOn_cons (by decide)) (n := 0) h
      obtain ⟨hvalue, htail⟩ := ihValue hfirst.value hbase.value (goesOn_cons (by decide))
        (goesOn_cons (by decide)) (n := 0) (List.cons.inj (List.cons.inj htail).2).2
      obtain ⟨rfl, hsame⟩ := pairs_inj hrest hothers (List.cons.inj htail).2
      refine ⟨congrArg _ ?_, hsame⟩
      exact congrArg₂ Ty.map hkey hvalue
    | array element => exact absurd hcase (Ty.base_ne_array second element)
    | pointer pointee =>
      rw [hcase] at hbase
      cases hbase.1
    | _ =>
      rw [hcase] at hbase h
      exact absurd h.symm (scriptType_map_ne hbase rfl hothers)
  | pointer pointee => cases hfirst.1

end

end Reading

open Reading

namespace Ty

variable {first second : Ty}

theorem pointers_eq_nil_iff (ty : Ty) : ty.pointers = [] ↔ ty.hasPointer = false := by
  rw [← Bool.not_eq_true, ← pointers_ne_nil_iff, ne_eq, not_not]

theorem spelled_alike_iff_go (hfirst : first.Clear) (hsecond : second.Clear) :
    Go.typeText first = Go.typeText second ↔ first = second := by
  constructor
  · intro h
    rw [typeText_go hfirst.1, typeText_go hsecond.1] at h
    have htexts := congrArg String.toList (Except.ok.inj h)
    rw [toList_textOf, toList_textOf] at htexts
    have hchars : charsAll (goType first) ++ [] = charsAll (goType second) ++ [] := by rw [htexts]
    exact (charsAll_goType_inj hfirst hsecond (goesOn_nil _) (goesOn_nil _) hchars).1
  · rintro rfl
    rfl

theorem spelled_alike_iff_script (hfirst : first.Clear) (hsecond : second.Clear) :
    TypeScript.typeText first = TypeScript.typeText second ↔ first.collapse = second.collapse := by
  rw [typeText_script hfirst.1, typeText_script hsecond.1]
  constructor
  · intro h
    have htexts := congrArg String.toList (Except.ok.inj h)
    rw [toList_textOf, toList_textOf] at htexts
    have hchars : charsAll (scriptType first) ++ (pairs 0 ++ []) =
        charsAll (scriptType second) ++ [] := by
      rw [htexts]
      rfl
    exact (charsAll_scriptType_inj hfirst hsecond (goesOn_nil _) (goesOn_nil _) hchars).1
  · intro h
    rw [← scriptType_collapse first, h, scriptType_collapse]

/-- A type can be spelled in either target exactly if there is no pointer in it, and otherwise both
targets name its first pointer in preorder. The spelling tells types apart: in Go all of them, in
TypeScript all that differ in more than the width of numbers. -/
theorem spelled_exactly (first second : Ty) :
    (((∃ text, TypeScript.typeText first = .ok text) ↔ first.hasPointer = false) ∧
      ((∃ text, Go.typeText first = .ok text) ↔ first.hasPointer = false)) ∧
    (first.hasPointer = true → ∃ pointer, first.pointers.head? = some pointer ∧
      TypeScript.typeText first = .error (.unsupported TypeScript.target (.pointerType pointer)) ∧
      Go.typeText first = .error (.unsupported Go.target (.pointerType pointer))) ∧
    (first.Clear → second.Clear →
      (Go.typeText first = Go.typeText second ↔ first = second) ∧
      (TypeScript.typeText first = TypeScript.typeText second ↔
        first.collapse = second.collapse)) := by
  have hscript := TypeScript.reports_typeText first
  have hgo := Go.reports_typeText first
  refine ⟨⟨?_, ?_⟩, ?_, ?_⟩
  · rw [hscript.succeeds_iff, List.map_eq_nil_iff, pointers_eq_nil_iff]
  · rw [hgo.succeeds_iff, List.map_eq_nil_iff, pointers_eq_nil_iff]
  · intro hpointer
    obtain ⟨pointer, rest, hpointers⟩ :=
      List.exists_cons_of_ne_nil ((pointers_ne_nil_iff first).mpr hpointer)
    rw [hpointers] at hscript hgo ⊢
    exact ⟨pointer, rfl, hscript, hgo⟩
  · intro hfirst hsecond
    exact ⟨spelled_alike_iff_go hfirst hsecond, spelled_alike_iff_script hfirst hsecond⟩

/-- Maps of maps, with names beyond ASCII and like other words: one with other numbers, one with
brackets elsewhere, and one with pointers. -/
theorem spelled_exactly_nested :
    let inner := map (model "Größe") (array (primitive .int32))
    let other := map (model "Größe") (array (primitive .float64))
    let first := map (array (model "map")) (array inner)
    let second := map (array (model "map")) (array other)
    let third := array (map (array (model "map")) inner)
    let flag := pointer (pointer (primitive .bool))
    (first.Clear ∧ second.Clear ∧ third.Clear) ∧
      Go.typeText first ≠ Go.typeText second ∧
      TypeScript.typeText first = TypeScript.typeText second ∧
      TypeScript.typeText first ≠ TypeScript.typeText third ∧
      Go.typeText (map (array flag) (pointer inner)) =
        .error (.unsupported Go.target (.pointerType flag)) := by
  intro inner other first second third flag
  have hfirst : first.Clear := by decide
  have hsecond : second.Clear := by decide
  have hthird : third.Clear := by decide
  obtain ⟨hgo, hscript⟩ := (spelled_exactly first second).2.2 hfirst hsecond
  obtain ⟨-, hscript'⟩ := (spelled_exactly first third).2.2 hfirst hthird
  obtain ⟨named, hnamed, -, hfault⟩ :=
    (spelled_exactly (map (array flag) (pointer inner)) first).2.1 rfl
  obtain rfl : flag = named := Option.some.inj hnamed
  refine ⟨⟨hfirst, hsecond, hthird⟩, ?_, hscript.mpr rfl, ?_, hfault⟩
  · rw [ne_eq, hgo]
    decide
  · rw [ne_eq, hscript']
    decide

end Ty

end Polyglot
