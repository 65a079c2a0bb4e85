import Polyglot.Lowering.TypeScript
import Polyglot.Proofs.Go.Literals
import Polyglot.Proofs.Offences
import Polyglot.Proofs.Reading.Pieces

/-! # Values in pieces

The pieces that values consist of in either target. Where the targets differ, it is in how they put
pieces around those of the parts. The pieces of a legible value are sound, and no separator stands
among them outside of groups, so that lists of values can be taken apart again.
-/

namespace Polyglot

namespace Reading

/-! ### Names -/

/-- Letters, digits and underscores, without a digit in front. -/
def isIdentifier (name : String) : Bool :=
  match name.toList with
  | [] => false
  | first :: rest => (first.isAlpha || first = '_') && rest.all fun c => c.isAlphanum || c = '_'

/-- The words that the targets spell themselves. -/
def reserved : List String :=
  ["null", "nil", "true", "false", "this", "new", "map", "Map", "String", "strconv", "math"] ++
    Primitive.all.map Primitive.name ++ Primitive.all.map TypeScript.primitiveText

/-- The target of a value: TypeScript, or Go in a method with the given receiver. -/
inductive Tongue where
  | script
  | go (receiver : String) (identifier : isIdentifier receiver = true)

/-- What members of the receiver are reached through. -/
def Tongue.own : Tongue → String
  | script => "this"
  | go receiver _ => receiver

/-- A name that is not taken for anything else. -/
structure IsName (tongue : Tongue) (name : String) : Prop where
  identifier : isIdentifier name = true
  not_reserved : name ∉ reserved
  ne_own : name ≠ tongue.own

instance (tongue : Tongue) (name : String) : Decidable (IsName tongue name) :=
  decidable_of_iff (isIdentifier name = true ∧ name ∉ reserved ∧ name ≠ tongue.own)
    ⟨fun ⟨hidentifier, hreserved, hown⟩ => ⟨hidentifier, hreserved, hown⟩,
      fun h => ⟨h.identifier, h.not_reserved, h.ne_own⟩⟩

end Reading

open Reading

/-- All names of models in the type can be told from other words, and there are no pointers. -/
def Ty.Legible (tongue : Tongue) (ty : Ty) : Prop :=
  ty.hasPointer = false ∧ ∀ name ∈ ty.models, IsName tongue name

theorem Ty.Legible.key {tongue : Tongue} {key value : Ty} (h : (Ty.map key value).Legible tongue) :
    key.Legible tongue := by
  obtain ⟨hpointer, hnames⟩ := h
  simp only [Ty.hasPointer, Bool.or_eq_false_iff] at hpointer
  exact ⟨hpointer.1, fun name hname => hnames name (List.mem_append_left _ hname)⟩

theorem Ty.Legible.value {tongue : Tongue} {key value : Ty}
    (h : (Ty.map key value).Legible tongue) : value.Legible tongue := by
  obtain ⟨hpointer, hnames⟩ := h
  simp only [Ty.hasPointer, Bool.or_eq_false_iff] at hpointer
  exact ⟨hpointer.2, fun name hname => hnames name (List.mem_append_right _ hname)⟩

namespace Value

/-- What legibility asks of a value apart from its parts. -/
def Fits (tongue : Tongue) : Value → Prop
  | .float _ => False
  | .binding name => IsName tongue name
  | .ownField field => field.kind = .binding
  | .modelField model field => IsName tongue model ∧ field.kind = .binding
  | .arrayElement source _ | .mapElement source _ => source.isOperation = false
  | value => ∀ ty ∈ value.types, ty.Legible tongue

/-- Everything in the value can be told from everything else: there are no floats, all names are
names, members are named directly, types are legible, and no element of an operation is taken. -/
def Legible (tongue : Tongue) (value : Value) : Prop :=
  ∀ part, value.Holds part → part.Fits tongue

theorem Legible.fits {tongue : Tongue} {value : Value} (h : value.Legible tongue) :
    value.Fits tongue :=
  h value .refl

theorem Legible.child {tongue : Tongue} {value child : Value} (h : value.Legible tongue)
    (hchild : child ∈ value.children) : child.Legible tongue := by
  intro part hholds
  exact h part (.head hchild hholds)

theorem legible_iff {tongue : Tongue} {value : Value} : value.Legible tongue ↔
    value.Fits tongue ∧ ∀ child ∈ value.children, child.Legible tongue := by
  constructor
  · intro h
    exact ⟨h.fits, fun child => h.child⟩
  · rintro ⟨hfits, hchildren⟩ part hholds
    rcases holds_iff.mp hholds with rfl | ⟨child, hchild, hholds⟩
    · exact hfits
    · exact hchildren child hchild part hholds

end Value

namespace Reading

/-! ### Pieces of types -/

def scriptType : Ty → List Piece
  | .primitive kind => [.word (TypeScript.primitiveText kind).toList]
  | .model name => [.word name.toList]
  | .array element => scriptType element ++ [.group .square []]
  | .map key value =>
    [.word "Map".toList, .group .angle (scriptType key ++ comma :: scriptType value)]
  | .pointer _ => []

def goType : Ty → List Piece
  | .primitive kind => [.word kind.name.toList]
  | .model name => [.word name.toList]
  | .array element => .group .square [] :: goType element
  | .map key value => .word "map".toList :: .group .square (goType key) :: goType value
  | .pointer _ => []

/-! ### Pieces of values -/

namespace Tongue

def nothing : Tongue → String
  | script => "null"
  | go _ _ => "nil"

def symbol : Tongue → Operator → String
  | script => TypeScript.operatorText
  | go _ _ => Operator.symbol

/-- An array literal, given the pieces between its brackets. -/
def arrayLiteral : Tongue → Ty → List Piece → List Piece
  | script, _, body => [.group .square body]
  | go _ _, element, body => goType (.array element) ++ [.group .curly body]

def mapLiteral : Tongue → Ty → Ty → List Piece → List Piece
  | script, key, value, body =>
    [.word newMap, .group .angle (scriptType key ++ comma :: scriptType value),
      .group .round [.group .square body]]
  | go _ _, key, value, body => goType (.map key value) ++ [.group .curly body]

/-- An entry of a map literal. -/
def entry : Tongue → List Piece → List Piece → List Piece
  | script, key, value => [.group .square (key ++ comma :: value)]
  | go _ _, key, value => key ++ .mark .colon :: value

/-- An element of a map. -/
def lookup : Tongue → List Piece → List Piece → List Piece
  | script, source, key => source ++ [.mark .point, .word "get".toList, .group .round key]
  | go _ _, source, key => source ++ [.group .square key]

/-- The text of an integer. -/
def conversion : Tongue → List Piece → List Piece
  | script, inner => [.word "String".toList, .group .round inner]
  | go _ _, inner =>
    [.word "strconv".toList, .mark .point, .word "FormatInt".toList, .group .round
      [.word "int64".toList, .group .round inner, comma, .word "10".toList]]

/-- Operations are put in parentheses. -/
def operand (value : Value) (pieces : List Piece) : List Piece :=
  if value.isOperation then [.group .round pieces] else pieces

mutual
/-- The pieces of a value. -/
def pieces (tongue : Tongue) : Value → List Piece
  | .null => [.word tongue.nothing.toList]
  | .text content => [.quoted content.toList]
  | .int n => [.word (Decimal.intText n.toInt).toList]
  | .float _ => []
  | .bool b => [.word (Lowering.boolText b).toList]
  | .array element elements => tongue.arrayLiteral element (separated (tongue.piecesAll elements))
  | .map key value entries => tongue.mapLiteral key value (separated (tongue.entryPieces entries))
  | .binding name => [.word name.toList]
  | .ownField field => .word tongue.own.toList :: .mark .point :: tongue.pieces field
  | .modelField model field => .word model.toList :: .mark .point :: tongue.pieces field
  | .arrayElement source index => tongue.pieces source ++ [.group .square (tongue.pieces index)]
  | .mapElement source key => tongue.lookup (tongue.pieces source) (tongue.pieces key)
  | .combined left op right => operand left (tongue.pieces left) ++
      .operator (tongue.symbol op).toList :: operand right (tongue.pieces right)
  | .intToText inner => tongue.conversion (tongue.pieces inner)

def piecesAll (tongue : Tongue) : List Value → List (List Piece)
  | [] => []
  | value :: rest => tongue.pieces value :: tongue.piecesAll rest

def entryPieces (tongue : Tongue) : List (Value × Value) → List (List Piece)
  | [] => []
  | (key, value) :: rest =>
    tongue.entry (tongue.pieces key) (tongue.pieces value) :: tongue.entryPieces rest
end

theorem piecesAll_eq_map (tongue : Tongue) (values : List Value) :
    tongue.piecesAll values = values.map tongue.pieces := by
  induction values with
  | nil => rfl
  | cons value rest ih => rw [piecesAll, ih, List.map_cons]

theorem entryPieces_eq_map (tongue : Tongue) (entries : List (Value × Value)) :
    tongue.entryPieces entries = entries.map fun entry =>
      tongue.entry (tongue.pieces entry.1) (tongue.pieces entry.2) := by
  induction entries with
  | nil => rfl
  | cons entry rest ih => rw [entryPieces, ih, List.map_cons]

end Tongue

/-! ### Words -/

theorem soundWord_of_isIdentifier {name : String} (h : isIdentifier name = true) :
    SoundWord name.toList := by
  rw [isIdentifier] at h
  cases hchars : name.toList with
  | nil =>
    rw [hchars] at h
    cases h
  | cons first rest =>
    rw [hchars] at h
    simp only [Bool.and_eq_true, Bool.or_eq_true, decide_eq_true_eq, List.all_eq_true] at h
    refine ⟨List.cons_ne_nil _ _, .inl ?_⟩
    intro c hc
    rcases List.mem_cons.mp hc with rfl | hc
    · rcases h.1 with halpha | rfl
      · simp [isLetter, Char.isAlphanum, halpha]
      · rfl
    · rcases h.2 c hc with hc | rfl
      · simp [isLetter, hc]
      · rfl

theorem IsName.soundWord {tongue : Tongue} {name : String} (h : IsName tongue name) :
    SoundWord name.toList :=
  soundWord_of_isIdentifier h.identifier

theorem soundWord_own (tongue : Tongue) : SoundWord tongue.own.toList := by
  cases tongue with
  | script => exact (by decide : SoundWord "this".toList)
  | go receiver identifier => exact soundWord_of_isIdentifier identifier

theorem soundWord_nothing (tongue : Tongue) : SoundWord tongue.nothing.toList := by
  cases tongue with
  | script => exact (by decide : SoundWord "null".toList)
  | go receiver identifier => exact (by decide : SoundWord "nil".toList)

theorem toList_intText (n : Int) : (Decimal.intText n).toList =
    if n < 0 then '-' :: Decimal.natDigits n.natAbs else Decimal.natDigits n.natAbs := by
  rw [Decimal.intText]
  split <;> simp [Decimal.natText]

theorem soundWord_intText (n : Int) : SoundWord (Decimal.intText n).toList := by
  have hdigits : ∀ c ∈ Decimal.natDigits n.natAbs, isLetter c = true := by
    intro c hc
    simp [isLetter, Char.isAlphanum, Go.isDigit_of_mem_natDigits hc]
  rw [toList_intText]
  split
  · refine ⟨List.cons_ne_nil _ _, .inl ?_⟩
    intro c hc
    rcases List.mem_cons.mp hc with rfl | hc
    · rfl
    · exact hdigits c hc
  · exact ⟨Nat.toDigits_ne_nil, .inl hdigits⟩

theorem soundSymbol (tongue : Tongue) (op : Operator) : SoundSymbol (tongue.symbol op).toList := by
  cases tongue with
  | script =>
    change SoundSymbol (TypeScript.operatorText op).toList
    cases op <;> decide
  | go receiver identifier =>
    change SoundSymbol op.symbol.toList
    cases op <;> decide

/-! ### Phrases -/

/-- Commas and colons. -/
def Piece.isSeparator : Piece → Bool
  | mark .comma | mark .colon => true
  | _ => false

theorem not_mem_of_unseparated {pieces : List Piece}
    (h : ∀ piece ∈ pieces, piece.isSeparator = false) {separator : Piece}
    (hseparator : separator.isSeparator = true) : separator ∉ pieces := by
  intro hmem
  rw [h separator hmem] at hseparator
  cases hseparator

def Piece.isOperator : Piece → Bool
  | operator _ => true
  | _ => false

/-- Pieces that hold together: none of them separates some from others, unless it stands in a
group. -/
structure Phrase (pieces : List Piece) : Prop where
  sound : SoundAll pieces
  ne_nil : pieces ≠ []
  unseparated : ∀ piece ∈ pieces, piece.isSeparator = false
  unoperated : ∀ piece ∈ pieces, piece.isOperator = false

theorem soundAll_pair {first second : List Piece} (hfirst : SoundAll first)
    (hsecond : SoundAll second) (m : Mark) : SoundAll (first ++ .mark m :: second) := by
  refine soundAll_append hfirst (soundAll_cons rfl trivial hsecond) ?_
  rintro next ⟨⟩
  rfl

namespace Phrase

variable {pieces : List Piece} {letters : List Char} {body : List Piece}

theorem word (h : SoundWord letters) : Phrase [.word letters] where
  sound := soundAll_singleton h
  ne_nil := List.cons_ne_nil _ _
  unseparated := by simp [Piece.isSeparator]
  unoperated := by simp [Piece.isOperator]

theorem quoted (content : List Char) : Phrase [.quoted content] where
  sound := soundAll_singleton trivial
  ne_nil := List.cons_ne_nil _ _
  unseparated := by simp [Piece.isSeparator]
  unoperated := by simp [Piece.isOperator]

theorem group (bracket : Bracket) (h : SoundAll body) : Phrase [.group bracket body] where
  sound := soundAll_singleton h
  ne_nil := List.cons_ne_nil _ _
  unseparated := by simp [Piece.isSeparator]
  unoperated := by simp [Piece.isOperator]

/-- A group before other pieces. -/
theorem group_cons (bracket : Bracket) (hbody : SoundAll body) (h : Phrase pieces) :
    Phrase (.group bracket body :: pieces) where
  sound := soundAll_cons rfl hbody h.sound
  ne_nil := List.cons_ne_nil _ _
  unseparated := by simpa [Piece.isSeparator] using h.unseparated
  unoperated := by simpa [Piece.isOperator] using h.unoperated

theorem word_cons (hword : SoundWord letters) (h : Phrase pieces)
    (hnext : ∀ next ∈ pieces.head?, next.isWord = false) : Phrase (.word letters :: pieces) where
  sound := ⟨hword, fun _ => hnext, h.sound⟩
  ne_nil := List.cons_ne_nil _ _
  unseparated := by simpa [Piece.isSeparator] using h.unseparated
  unoperated := by simpa [Piece.isOperator] using h.unoperated

/-- A group after other pieces. -/
theorem append_group (h : Phrase pieces) (bracket : Bracket) (hbody : SoundAll body) :
    Phrase (pieces ++ [.group bracket body]) where
  sound := soundAll_append h.sound (soundAll_singleton hbody) (by simp [Piece.isWord])
  ne_nil := by simp
  unseparated := by
    simpa [Piece.isSeparator, or_imp, forall_and] using h.unseparated
  unoperated := by
    simpa [Piece.isOperator, or_imp, forall_and] using h.unoperated

/-- A member of what other pieces stand for. -/
theorem append_member (h : Phrase pieces) (hword : SoundWord letters) :
    Phrase (pieces ++ [.mark .point, .word letters]) where
  sound := soundAll_append h.sound (soundAll_cons rfl trivial (soundAll_singleton hword))
    (by simp [Piece.isWord])
  ne_nil := by simp
  unseparated := by
    simpa [Piece.isSeparator, or_imp, forall_and] using h.unseparated
  unoperated := by
    simpa [Piece.isOperator, or_imp, forall_and] using h.unoperated

end Phrase

variable {tongue : Tongue}

theorem phrase_scriptType {ty : Ty} (h : ty.Legible tongue) : Phrase (scriptType ty) := by
  obtain ⟨hpointer, hnames⟩ := h
  induction ty with
  | primitive kind =>
    exact .word (by cases kind <;> decide)
  | model name => exact .word (hnames name (List.mem_singleton_self name)).soundWord
  | array element ih => exact (ih hpointer hnames).append_group .square trivial
  | map key value ihKey ihValue =>
    simp only [Ty.hasPointer, Bool.or_eq_false_iff] at hpointer
    simp only [Ty.models, List.mem_append] at hnames
    have hkey := ihKey hpointer.1 fun name hname => hnames name (.inl hname)
    have hvalue := ihValue hpointer.2 fun name hname => hnames name (.inr hname)
    exact (Phrase.word (by decide : SoundWord "Map".toList)).append_group .angle
      (soundAll_pair hkey.sound hvalue.sound .comma)
  | pointer pointee => cases hpointer

theorem phrase_goType {ty : Ty} (h : ty.Legible tongue) : Phrase (goType ty) := by
  obtain ⟨hpointer, hnames⟩ := h
  induction ty with
  | primitive kind =>
    exact .word (by cases kind <;> decide)
  | model name => exact .word (hnames name (List.mem_singleton_self name)).soundWord
  | array element ih => exact .group_cons .square trivial (ih hpointer hnames)
  | map key value ihKey ihValue =>
    simp only [Ty.hasPointer, Bool.or_eq_false_iff] at hpointer
    simp only [Ty.models, List.mem_append] at hnames
    have hkey := ihKey hpointer.1 fun name hname => hnames name (.inl hname)
    have hvalue := ihValue hpointer.2 fun name hname => hnames name (.inr hname)
    refine .word_cons (by decide) (.group_cons .square hkey.sound hvalue) ?_
    rintro next ⟨⟩
    rfl
  | pointer pointee => cases hpointer

theorem phrase_arrayLiteral {element : Ty} {body : List Piece} (helement : element.Legible tongue)
    (hbody : SoundAll body) : Phrase (tongue.arrayLiteral element body) := by
  cases tongue with
  | script => exact .group .square hbody
  | go receiver identifier =>
    have harray : (Ty.array element).Legible (.go receiver identifier) := helement
    exact (phrase_goType harray).append_group .curly hbody

theorem phrase_mapLiteral {key value : Ty} {body : List Piece} (hkey : key.Legible tongue)
    (hvalue : value.Legible tongue) (hbody : SoundAll body) :
    Phrase (tongue.mapLiteral key value body) := by
  cases tongue with
  | script =>
    have htypes := soundAll_pair (phrase_scriptType hkey).sound (phrase_scriptType hvalue).sound
      .comma
    have hstart := (Phrase.word (by decide : SoundWord newMap)).append_group .angle htypes
    exact hstart.append_group .round (soundAll_singleton hbody)
  | go receiver identifier =>
    have hmap : (Ty.map key value).Legible (.go receiver identifier) := by
      refine ⟨by simp [Ty.hasPointer, hkey.1, hvalue.1], ?_⟩
      intro name hname
      rcases List.mem_append.mp hname with hname | hname
      · exact hkey.2 name hname
      · exact hvalue.2 name hname
    exact (phrase_goType hmap).append_group .curly hbody

theorem phrase_lookup {source key : List Piece} (hsource : Phrase source) (hkey : SoundAll key) :
    Phrase (tongue.lookup source key) := by
  cases tongue with
  | script =>
    have hget := hsource.append_member (by decide : SoundWord "get".toList)
    have hcall := hget.append_group .round hkey
    rwa [List.append_assoc] at hcall
  | go receiver identifier => exact hsource.append_group .square hkey

theorem phrase_conversion {inner : List Piece} (hinner : SoundAll inner) :
    Phrase (tongue.conversion inner) := by
  cases tongue with
  | script =>
    exact (Phrase.word (by decide : SoundWord "String".toList)).append_group .round hinner
  | go receiver identifier =>
    have hcall := (Phrase.word (by decide : SoundWord "int64".toList)).append_group .round hinner
    have hinside := soundAll_pair hcall.sound
      (Phrase.word (by decide : SoundWord "10".toList)).sound .comma
    have hfunction := (Phrase.word (by decide : SoundWord "strconv".toList)).append_member
      (by decide : SoundWord "FormatInt".toList)
    exact hfunction.append_group .round hinside

theorem soundAll_entry {key value : List Piece} (hkey : SoundAll key) (hvalue : SoundAll value) :
    SoundAll (tongue.entry key value) := by
  cases tongue with
  | script => exact soundAll_singleton (soundAll_pair hkey hvalue .comma)
  | go receiver identifier => exact soundAll_pair hkey hvalue .colon

/-- What is known of the pieces of a value. -/
structure Formed (value : Value) (pieces : List Piece) : Prop where
  sound : SoundAll pieces
  ne_nil : pieces ≠ []
  unseparated : ∀ piece ∈ pieces, piece.isSeparator = false
  unoperated : value.isOperation = false → ∀ piece ∈ pieces, piece.isOperator = false

theorem Phrase.formed {pieces : List Piece} (h : Phrase pieces) (value : Value) :
    Formed value pieces :=
  ⟨h.sound, h.ne_nil, h.unseparated, fun _ => h.unoperated⟩

namespace Formed

variable {value : Value} {pieces : List Piece}

theorem phrase (h : Formed value pieces) (hvalue : value.isOperation = false) : Phrase pieces :=
  ⟨h.sound, h.ne_nil, h.unseparated, h.unoperated hvalue⟩

theorem operand (h : Formed value pieces) : Phrase (Tongue.operand value pieces) := by
  rw [Tongue.operand]
  split
  · exact .group .round h.sound
  · next hvalue => exact h.phrase (by simpa using hvalue)

theorem comma_not_mem (h : Formed value pieces) : comma ∉ pieces :=
  not_mem_of_unseparated h.unseparated rfl

end Formed

theorem exists_binding {field : Value} (h : field.kind = .binding) :
    ∃ name, field = .binding name := by
  cases field with
  | binding name => exact ⟨name, rfl⟩
  | _ => cases h

theorem mem_children_of_entry {key value : Ty} {entries : List (Value × Value)}
    {entry : Value × Value} (h : entry ∈ entries) :
    entry.1 ∈ (Value.map key value entries).children ∧
      entry.2 ∈ (Value.map key value entries).children :=
  ⟨List.mem_flatMap.mpr ⟨entry, h, by simp⟩, List.mem_flatMap.mpr ⟨entry, h, by simp⟩⟩

/-- The pieces of a legible value are well formed. -/
theorem formed_pieces {value : Value} (h : value.Legible tongue) :
    Formed value (tongue.pieces value) := by
  induction value using Value.induction_children with
  | step value ih =>
    have hfits := h.fits
    replace ih : ∀ child ∈ value.children, Formed child (tongue.pieces child) :=
      fun child hchild => ih child hchild (h.child hchild)
    cases value with
    | null => exact (Phrase.word (soundWord_nothing tongue)).formed _
    | text content => exact (Phrase.quoted content.toList).formed _
    | int n => exact (Phrase.word (soundWord_intText n.toInt)).formed _
    | float bits => exact hfits.elim
    | bool b => exact (Phrase.word (by cases b <;> decide)).formed _
    | array element elements =>
      have helement := hfits element List.mem_cons_self
      refine (phrase_arrayLiteral helement (soundAll_separated ?_)).formed _
      rw [Tongue.piecesAll_eq_map]
      intro pieces hpieces
      obtain ⟨child, hchild, rfl⟩ := List.mem_map.mp hpieces
      exact (ih child hchild).sound
    | map key value entries =>
      refine (phrase_mapLiteral (hfits key List.mem_cons_self)
        (hfits value (List.mem_cons_of_mem _ List.mem_cons_self)) (soundAll_separated ?_)).formed _
      rw [Tongue.entryPieces_eq_map]
      intro pieces hpieces
      obtain ⟨entry, hentry, rfl⟩ := List.mem_map.mp hpieces
      obtain ⟨hkey, hvalue⟩ := mem_children_of_entry hentry
      exact soundAll_entry (ih entry.1 hkey).sound (ih entry.2 hvalue).sound
    | binding name => exact (Phrase.word hfits.soundWord).formed _
    | ownField field =>
      obtain ⟨name, rfl⟩ := exists_binding hfits
      have hname : IsName tongue name := (h.child List.mem_cons_self).fits
      exact ((Phrase.word (soundWord_own tongue)).append_member hname.soundWord).formed _
    | modelField model field =>
      obtain ⟨name, rfl⟩ := exists_binding hfits.2
      have hname : IsName tongue name := (h.child List.mem_cons_self).fits
      exact ((Phrase.word hfits.1.soundWord).append_member hname.soundWord).formed _
    | arrayElement source index =>
      have hsource := (ih source List.mem_cons_self).phrase hfits
      have hindex := ih index (List.mem_cons_of_mem _ List.mem_cons_self)
      exact (hsource.append_group .square hindex.sound).formed _
    | mapElement source key =>
      have hsource := (ih source List.mem_cons_self).phrase hfits
      have hkey := ih key (List.mem_cons_of_mem _ List.mem_cons_self)
      exact (phrase_lookup hsource hkey.sound).formed _
    | combined left op right =>
      have hleft := (ih left List.mem_cons_self).operand
      have hright := (ih right (List.mem_cons_of_mem _ List.mem_cons_self)).operand
      refine ⟨?_, by simp [Tongue.pieces], ?_, nofun⟩
      · refine soundAll_append hleft.sound
          (soundAll_cons rfl (soundSymbol tongue op) hright.sound) ?_
        rintro next ⟨⟩
        rfl
      · intro piece hpiece
        rcases List.mem_append.mp hpiece with hpiece | hpiece
        · exact hleft.unseparated piece hpiece
        · rcases List.mem_cons.mp hpiece with rfl | hpiece
          · rfl
          · exact hright.unseparated piece hpiece
    | intToText inner =>
      exact (phrase_conversion (ih inner List.mem_cons_self).sound).formed _

end Reading

end Polyglot
