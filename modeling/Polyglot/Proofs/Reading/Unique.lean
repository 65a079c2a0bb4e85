import Polyglot.Proofs.Reading.Recovery

/-! # Unique reading

The text of a legible value is that of its pieces, in either target. So legible values are spelled
alike exactly if they have the same essence: operations keep their operands whatever the precedence
of operators, and elements and entries keep their order.
-/

namespace Polyglot

namespace Reading

def textOf (pieces : List Piece) : String :=
  String.ofList (charsAll pieces)

@[simp] theorem toList_textOf (pieces : List Piece) : (textOf pieces).toList = charsAll pieces :=
  String.toList_ofList

theorem eq_textOf {text : String} {pieces : List Piece} (h : text.toList = charsAll pieces) :
    text = textOf pieces := by
  rw [← String.toList_inj, h, toList_textOf]

theorem textOf_inj {first second : List Piece} (hfirst : SoundAll first)
    (hsecond : SoundAll second) (h : textOf first = textOf second) : first = second := by
  refine eq_of_charsAll_eq hfirst hsecond ?_
  rw [← toList_textOf, h, toList_textOf]

@[simp] theorem toList_commaSeparated (lists : List (List Piece)) :
    (Text.commaSeparated (lists.map textOf)).toList = charsAll (separated lists) :=
  charsAll_separated (by simp [Function.comp_def])

@[simp] theorem toList_grouped (value : Value) (pieces : List Piece) :
    (Lowering.grouped value (textOf pieces)).toList = charsAll (Tongue.operand value pieces) := by
  rw [Lowering.grouped, Tongue.operand]
  split
  · simp [charsAll, chars, Bracket.opening, Bracket.closing]
  · exact toList_textOf pieces

/-! ### TypeScript -/

theorem typeText_script {ty : Ty} (h : ty.hasPointer = false) :
    TypeScript.typeText ty = .ok (textOf (scriptType ty)) := by
  induction ty with
  | primitive kind => exact congrArg _ (eq_textOf (by simp [scriptType, charsAll, chars]))
  | model name => exact congrArg _ (eq_textOf (by simp [scriptType, charsAll, chars]))
  | array element ih =>
    rw [TypeScript.typeText, ih h]
    exact congrArg _ (eq_textOf
      (by simp [scriptType, charsAll, chars, Bracket.opening, Bracket.closing]))
  | map key value ihKey ihValue =>
    simp only [Ty.hasPointer, Bool.or_eq_false_iff] at h
    rw [TypeScript.typeText, ihKey h.1, ihValue h.2]
    exact congrArg _ (eq_textOf
      (by simp [scriptType, charsAll, chars, Bracket.opening, Bracket.closing, comma, Mark.chars]))
  | pointer pointee => cases h

theorem valueTexts_script {values : List Value}
    (h : ∀ value ∈ values, TypeScript.valueText value = .ok (textOf (Tongue.script.pieces value))) :
    TypeScript.valueTexts values = .ok ((Tongue.script.piecesAll values).map textOf) := by
  induction values with
  | nil => rfl
  | cons value rest ih =>
    rw [TypeScript.valueTexts, h value List.mem_cons_self,
      ih fun other hother => h other (List.mem_cons_of_mem value hother)]
    rfl

theorem entryTexts_script {entries : List (Value × Value)}
    (h : ∀ entry ∈ entries,
      TypeScript.valueText entry.1 = .ok (textOf (Tongue.script.pieces entry.1)) ∧
        TypeScript.valueText entry.2 = .ok (textOf (Tongue.script.pieces entry.2))) :
    TypeScript.entryTexts entries = .ok ((Tongue.script.entryPieces entries).map textOf) := by
  induction entries with
  | nil => rfl
  | cons entry rest ih =>
    obtain ⟨hkey, hvalue⟩ := h entry List.mem_cons_self
    rw [TypeScript.entryTexts, hkey, hvalue,
      ih fun other hother => h other (List.mem_cons_of_mem entry hother), Tongue.entryPieces,
      List.map_cons]
    refine congrArg _ (congrArg (· :: _) (eq_textOf ?_))
    simp [Tongue.entry, charsAll, chars, Bracket.opening, Bracket.closing, comma, Mark.chars]

/-- The text of a legible value in TypeScript. -/
theorem valueText_script {value : Value} (h : value.Legible .script) :
    TypeScript.valueText value = .ok (textOf (Tongue.script.pieces value)) := by
  induction value using Value.induction_children with
  | step value ih =>
    replace ih := fun child hchild => ih child hchild (h.child hchild)
    have hfits := h.fits
    cases value with
    | float bits => exact hfits.elim
    | array element elements =>
      have hspelled : ∀ child ∈ elements, _ := ih
      rw [TypeScript.valueText, valueTexts_script hspelled]
      refine congrArg _ (eq_textOf ?_)
      simp [Tongue.pieces, Tongue.arrayLiteral, charsAll, chars, Bracket.opening, Bracket.closing]
    | map key value entries =>
      have hentries := entryTexts_script fun entry hentry =>
        ⟨ih entry.1 (mem_children_of_entry hentry).1, ih entry.2 (mem_children_of_entry hentry).2⟩
      have hmap : (Ty.map key value).hasPointer = false := by
        simp [Ty.hasPointer, (hfits key List.mem_cons_self).1,
          (hfits value (List.mem_cons_of_mem _ List.mem_cons_self)).1]
      have hnew : newMap = "new ".toList ++ "Map".toList := rfl
      rw [TypeScript.valueText, typeText_script hmap, hentries]
      refine congrArg _ (eq_textOf ?_)
      simp [Tongue.pieces, Tongue.mapLiteral, scriptType, hnew, charsAll, chars, Bracket.opening,
        Bracket.closing]
    | ownField field =>
      rw [TypeScript.valueText, ih field List.mem_cons_self]
      refine congrArg _ (eq_textOf ?_)
      simp [Tongue.pieces, Tongue.own, charsAll, chars, Mark.chars]
    | modelField model field =>
      rw [TypeScript.valueText, ih field List.mem_cons_self]
      refine congrArg _ (eq_textOf ?_)
      simp [Tongue.pieces, charsAll, chars, Mark.chars]
    | arrayElement source index =>
      rw [TypeScript.valueText, ih source List.mem_cons_self,
        ih index (List.mem_cons_of_mem _ List.mem_cons_self)]
      refine congrArg _ (eq_textOf ?_)
      simp [Tongue.pieces, charsAll, chars, Bracket.opening, Bracket.closing]
    | mapElement source key =>
      rw [TypeScript.valueText, ih source List.mem_cons_self,
        ih key (List.mem_cons_of_mem _ List.mem_cons_self)]
      refine congrArg _ (eq_textOf ?_)
      simp [Tongue.pieces, Tongue.lookup, charsAll, chars, Bracket.opening, Bracket.closing,
        Mark.chars]
    | combined left op right =>
      rw [TypeScript.valueText, ih left List.mem_cons_self,
        ih right (List.mem_cons_of_mem _ List.mem_cons_self)]
      refine congrArg _ (eq_textOf ?_)
      simp [Tongue.pieces, Tongue.symbol, charsAll, chars]
    | intToText inner =>
      rw [TypeScript.valueText, ih inner List.mem_cons_self]
      refine congrArg _ (eq_textOf ?_)
      simp [Tongue.pieces, Tongue.conversion, charsAll, chars, Bracket.opening, Bracket.closing]
    | text content =>
      exact congrArg _ (eq_textOf (by simp [Tongue.pieces, charsAll, chars, Text.quote]))
    | _ => exact congrArg _ (eq_textOf (by simp [Tongue.pieces, Tongue.nothing, charsAll, chars]))

/-! ### Go -/

theorem typeText_go {ty : Ty} (h : ty.hasPointer = false) :
    Go.typeText ty = .ok (textOf (goType ty)) := by
  induction ty with
  | primitive kind => exact congrArg _ (eq_textOf (by simp [goType, charsAll, chars]))
  | model name => exact congrArg _ (eq_textOf (by simp [goType, charsAll, chars]))
  | array element ih =>
    rw [Go.typeText, ih h]
    exact congrArg _ (eq_textOf
      (by simp [goType, charsAll, chars, Bracket.opening, Bracket.closing]))
  | map key value ihKey ihValue =>
    simp only [Ty.hasPointer, Bool.or_eq_false_iff] at h
    rw [Go.typeText, ihKey h.1, ihValue h.2]
    exact congrArg _ (eq_textOf
      (by simp [goType, charsAll, chars, Bracket.opening, Bracket.closing]))
  | pointer pointee => cases h

/-- The step succeeds with the given result, whatever packages are noted before it. -/
def Yields {α : Type} (step : Step Imports α) (a : α) : Prop :=
  ∀ imports, ∃ imports', step imports = .ok a imports'

namespace Yields

variable {α β : Type} {a : α} {b : β}

theorem pure (a : α) : Yields (Pure.pure a) a :=
  fun imports => ⟨imports, rfl⟩

theorem ofExcept {outcome : Except Fault α} (h : outcome = .ok a) :
    Yields (Step.ofExcept outcome) a := by
  subst h
  exact pure a

theorem refer (package : Package) : Yields (Go.refer package) () :=
  fun imports => ⟨imports.insert package, rfl⟩

theorem bind {first : Step Imports α} {next : α → Step Imports β} (hfirst : Yields first a)
    (hnext : Yields (next a) b) : Yields (first >>= next) b := by
  intro imports
  obtain ⟨between, hbetween⟩ := hfirst imports
  rw [Step.bind_of_ok hbetween]
  exact hnext between

theorem text {text : String} {pieces : List Piece} (h : text.toList = charsAll pieces) :
    Yields (Pure.pure text) (textOf pieces) := by
  rw [eq_textOf h]
  exact pure _

end Yields

section
variable {receiver : String} {identifier : isIdentifier receiver = true}

theorem yields_valueTexts {values : List Value}
    (h : ∀ value ∈ values, Yields (Go.valueText (some receiver) value)
      (textOf ((Tongue.go receiver identifier).pieces value))) :
    Yields (Go.valueTexts (some receiver) values)
      (((Tongue.go receiver identifier).piecesAll values).map textOf) := by
  induction values with
  | nil => exact .pure []
  | cons value rest ih =>
    rw [Go.valueTexts]
    have hrest := ih fun other hother => h other (List.mem_cons_of_mem value hother)
    exact (h value List.mem_cons_self).bind (hrest.bind (.pure _))

theorem yields_entryTexts {entries : List (Value × Value)}
    (h : ∀ entry ∈ entries,
      Yields (Go.valueText (some receiver) entry.1)
        (textOf ((Tongue.go receiver identifier).pieces entry.1)) ∧
      Yields (Go.valueText (some receiver) entry.2)
        (textOf ((Tongue.go receiver identifier).pieces entry.2))) :
    Yields (Go.entryTexts (some receiver) entries)
      (((Tongue.go receiver identifier).entryPieces entries).map textOf) := by
  induction entries with
  | nil => exact .pure []
  | cons entry rest ih =>
    obtain ⟨hkey, hvalue⟩ := h entry List.mem_cons_self
    have hrest := ih fun other hother => h other (List.mem_cons_of_mem entry hother)
    have hentry : textOf ((Tongue.go receiver identifier).pieces entry.1) ++ ": " ++
        textOf ((Tongue.go receiver identifier).pieces entry.2) = textOf
          ((Tongue.go receiver identifier).entry ((Tongue.go receiver identifier).pieces entry.1)
            ((Tongue.go receiver identifier).pieces entry.2)) :=
      eq_textOf (by simp [Tongue.entry, charsAll, chars, Mark.chars])
    rw [Go.entryTexts, Tongue.entryPieces, List.map_cons, ← hentry]
    exact hkey.bind (hvalue.bind (hrest.bind (.pure _)))

/-- The text of a legible value in Go. -/
theorem yields_valueText {value : Value} (h : value.Legible (.go receiver identifier)) :
    Yields (Go.valueText (some receiver) value)
      (textOf ((Tongue.go receiver identifier).pieces value)) := by
  induction value using Value.induction_children with
  | step value ih =>
    replace ih := fun child hchild => ih child hchild (h.child hchild)
    have hfits := h.fits
    cases value with
    | float bits => exact hfits.elim
    | array element elements =>
      have htype : (Ty.array element).hasPointer = false := (hfits element List.mem_cons_self).1
      have hspelled : ∀ child ∈ elements, _ := ih
      rw [Go.valueText]
      refine (Yields.ofExcept (typeText_go htype)).bind
        ((yields_valueTexts hspelled).bind (.text ?_))
      simp [Tongue.pieces, Tongue.arrayLiteral, charsAll, chars, Bracket.opening, Bracket.closing]
    | map key value entries =>
      have htype : (Ty.map key value).hasPointer = false := by
        simp [Ty.hasPointer, (hfits key List.mem_cons_self).1,
          (hfits value (List.mem_cons_of_mem _ List.mem_cons_self)).1]
      have hentries := yields_entryTexts fun entry hentry =>
        ⟨ih entry.1 (mem_children_of_entry hentry).1, ih entry.2 (mem_children_of_entry hentry).2⟩
      rw [Go.valueText]
      refine (Yields.ofExcept (typeText_go htype)).bind (hentries.bind (.text ?_))
      simp [Tongue.pieces, Tongue.mapLiteral, charsAll, chars, Bracket.opening, Bracket.closing]
    | ownField field =>
      rw [Go.valueText]
      refine (ih field List.mem_cons_self).bind (.text ?_)
      simp [Tongue.pieces, Tongue.own, charsAll, chars, Mark.chars]
    | modelField model field =>
      rw [Go.valueText]
      refine (ih field List.mem_cons_self).bind (.text ?_)
      simp [Tongue.pieces, charsAll, chars, Mark.chars]
    | arrayElement source index =>
      have hindex := ih index (List.mem_cons_of_mem _ List.mem_cons_self)
      rw [Go.valueText]
      refine (ih source List.mem_cons_self).bind (hindex.bind (.text ?_))
      simp [Tongue.pieces, charsAll, chars, Bracket.opening, Bracket.closing]
    | mapElement source key =>
      have hkey := ih key (List.mem_cons_of_mem _ List.mem_cons_self)
      rw [Go.valueText]
      refine (ih source List.mem_cons_self).bind (hkey.bind (.text ?_))
      simp [Tongue.pieces, Tongue.lookup, charsAll, chars, Bracket.opening, Bracket.closing]
    | combined left op right =>
      have hright := ih right (List.mem_cons_of_mem _ List.mem_cons_self)
      rw [Go.valueText]
      refine (ih left List.mem_cons_self).bind (hright.bind (.text ?_))
      simp [Tongue.pieces, Tongue.symbol, charsAll, chars]
    | intToText inner =>
      rw [Go.valueText]
      refine (Yields.refer .strconv).bind ((ih inner List.mem_cons_self).bind (.text ?_))
      simp [Tongue.pieces, Tongue.conversion, charsAll, chars, Bracket.opening, Bracket.closing,
        comma, Mark.chars]
    | text content => exact .text (by simp [Tongue.pieces, charsAll, chars, Text.quote])
    | _ => exact .text (by simp [Tongue.pieces, Tongue.nothing, charsAll, chars])

end

/-! ### Reading -/

theorem textOf_pieces_eq_iff {tongue : Tongue} {first second : Value}
    (hfirst : first.Legible tongue) (hsecond : second.Legible tongue) :
    textOf (tongue.pieces first) = textOf (tongue.pieces second) ↔
      tongue.essence first = tongue.essence second := by
  constructor
  · intro h
    have hpieces := textOf_inj (formed_pieces hfirst).sound (formed_pieces hsecond).sound h
    exact essence_eq_of_pieces_eq hfirst hsecond hpieces
  · intro h
    rw [← pieces_essence first, ← pieces_essence second, h]

end Reading

open Reading

/-- Legible values can be spelled, and are spelled alike exactly if they have the same essence: in
TypeScript if they are equal up to element types of arrays and to the width of numbers in types of
maps, in Go if they are equal up to taking elements of maps for elements of arrays. -/
theorem Value.uniquely_readable (first second : Value) :
    (first.Legible .script → second.Legible .script →
      (∃ text, TypeScript.valueText first = .ok text) ∧
      (TypeScript.valueText first = TypeScript.valueText second ↔
        TypeScript.essence first = TypeScript.essence second)) ∧
    ∀ receiver (identifier : isIdentifier receiver = true) (imports imports' : Imports),
      first.Legible (.go receiver identifier) → second.Legible (.go receiver identifier) →
        (∃ text noted, Go.valueText (some receiver) first imports = .ok text noted) ∧
        (Step.result (Go.valueText (some receiver) first imports) =
            Step.result (Go.valueText (some receiver) second imports') ↔
          Go.essence first = Go.essence second) := by
  refine ⟨?_, ?_⟩
  · intro hfirst hsecond
    refine ⟨⟨_, valueText_script hfirst⟩, ?_⟩
    rw [valueText_script hfirst, valueText_script hsecond, Except.ok.injEq]
    exact textOf_pieces_eq_iff hfirst hsecond
  · intro receiver identifier imports imports' hfirst hsecond
    obtain ⟨noted, hspelled⟩ := yields_valueText hfirst imports
    obtain ⟨noted', hspelled'⟩ := yields_valueText hsecond imports'
    refine ⟨⟨_, noted, hspelled⟩, ?_⟩
    rw [hspelled, hspelled', Step.result, Step.result, Except.ok.injEq]
    exact textOf_pieces_eq_iff hfirst hsecond

/-- Both ways to nest two subtractions are told apart. -/
theorem Value.uniquely_readable_subtractions :
    let first := Value.combined (.combined (.binding "a") .sub (.binding "b")) .sub (.binding "c")
    let second := Value.combined (.binding "a") .sub (.combined (.binding "b") .sub (.binding "c"))
    TypeScript.valueText first ≠ TypeScript.valueText second ∧
      Step.result (Go.valueText (some "m") first {}) ≠
        Step.result (Go.valueText (some "m") second {}) := by
  intro first second
  have hcombined : ∀ {tongue : Tongue} {left right : Value}, left.Legible tongue →
      right.Legible tongue → (Value.combined left .sub right).Legible tongue := by
    intro tongue left right hleft hright
    exact legible_iff.mpr ⟨nofun, by simp [children, hleft, hright]⟩
  have hlegible : ∀ tongue : Tongue, (∀ name ∈ ["a", "b", "c"], IsName tongue name) →
      first.Legible tongue ∧ second.Legible tongue := by
    intro tongue hnames
    have hbinding : ∀ name ∈ ["a", "b", "c"], (Value.binding name).Legible tongue :=
      fun name hname => legible_iff.mpr ⟨hnames name hname, nofun⟩
    have ha := hbinding "a" (by decide)
    have hb := hbinding "b" (by decide)
    have hc := hbinding "c" (by decide)
    exact ⟨hcombined (hcombined ha hb) hc, hcombined ha (hcombined hb hc)⟩
  refine ⟨?_, ?_⟩
  · obtain ⟨hfirst, hsecond⟩ := hlegible .script (by decide)
    intro hsame
    have hessence := ((uniquely_readable first second).1 hfirst hsecond).2.mp hsame
    cases hessence
  · obtain ⟨hfirst, hsecond⟩ := hlegible (.go "m" (by decide)) (by decide)
    intro hsame
    have hessence := ((uniquely_readable first second).2 "m" (by decide) {} {} hfirst hsecond).2.mp
      hsame
    cases hessence

end Polyglot
