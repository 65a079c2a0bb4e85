import Polyglot.Proofs.Reading.Essence

/-! # Recovering values

The last piece of a value shows its kind, unless there is an operator, and the kind shows where its
parts are. So the parts are determined along with it, at any depth: legible values that consist of
the same pieces have the same essence.
-/

namespace Polyglot

namespace Reading

variable {tongue : Tongue}

/-! ### Kinds -/

namespace Tongue

/-- The kind of a value that is one word. -/
def wordKind (tongue : Tongue) (letters : List Char) : Kind :=
  if letters = tongue.nothing.toList then .null
  else if letters = "true".toList ∨ letters = "false".toList then .bool
  else if letters.head?.any fun c => c.isDigit || c = '-' then .int
  else .binding

/-- The kind of a value that starts with the given piece and ends in a word after it. -/
def memberKind (tongue : Tongue) : Option Piece → Kind
  | some (.word letters) => if letters = tongue.own.toList then .ownField else .modelField
  | _ => .modelField

/-- The kind of a value that ends in a group. -/
def groupKind : Tongue → Bracket → List Piece → Kind
  | script, .square, pieces => if pieces.length = 1 then .array else .arrayElement
  | script, _, pieces =>
    if pieces.length = 2 then .intToText else if pieces.length = 3 then .map else .mapElement
  | go _ _, .square, _ => .arrayElement
  | go _ _, .curly, pieces => if pieces.head?.any Piece.isWord then .map else .array
  | go _ _, _, _ => .intToText

/-- The kind of the value with the given pieces: the last one shows it, unless there is an
operator. -/
def kindOf (tongue : Tongue) (pieces : List Piece) : Kind :=
  if pieces.any Piece.isOperator then .combined
  else match pieces.getLast? with
    | some (.word letters) =>
      if pieces.length = 1 then tongue.wordKind letters else tongue.memberKind pieces.head?
    | some (.group bracket _) => tongue.groupKind bracket pieces
    | _ => .text

end Tongue

theorem wordKind_nothing (tongue : Tongue) : tongue.wordKind tongue.nothing.toList = .null :=
  if_pos rfl

theorem wordKind_bool (b : Bool) : tongue.wordKind (Lowering.boolText b).toList = .bool := by
  cases tongue <;> cases b <;> simp [Tongue.wordKind, Tongue.nothing, Lowering.boolText]

/-- Numbers start with a digit or with a sign. -/
theorem exists_head_intText (n : Int) : ∃ c rest, (Decimal.intText n).toList = c :: rest ∧
    (c.isDigit || c = '-') = true := by
  rw [toList_intText]
  split
  · exact ⟨'-', _, rfl, rfl⟩
  · have hne : Decimal.natDigits n.natAbs ≠ [] := Nat.toDigits_ne_nil
    obtain ⟨c, rest, hdigits⟩ := List.exists_cons_of_ne_nil hne
    have hc : c ∈ Decimal.natDigits n.natAbs := hdigits ▸ List.mem_cons_self
    exact ⟨c, rest, hdigits, by simp [Go.isDigit_of_mem_natDigits hc]⟩

theorem wordKind_int (n : Int) : tongue.wordKind (Decimal.intText n).toList = .int := by
  obtain ⟨c, rest, hchars, hc⟩ := exists_head_intText n
  have hne : ∀ word : String, (word.toList.head?.any fun d => d.isDigit || d = '-') = false →
      c :: rest ≠ word.toList := by
    intro word hword heq
    rw [← heq] at hword
    exact Bool.false_ne_true (hword.symm.trans hc)
  have hnothing : c :: rest ≠ tongue.nothing.toList := by
    cases tongue with
    | script => exact hne "null" (by decide)
    | go receiver identifier => exact hne "nil" (by decide)
  have hbool : ¬ (c :: rest = "true".toList ∨ c :: rest = "false".toList) :=
    not_or.mpr ⟨hne "true" (by decide), hne "false" (by decide)⟩
  have hhead : ((c :: rest).head?.any fun c => c.isDigit || c = '-') = true := hc
  rw [hchars, Tongue.wordKind, if_neg hnothing, if_neg hbool, if_pos hhead]

theorem not_numeric_of_isAlpha {c : Char} (h : c.isAlpha = true) :
    (c.isDigit || c = '-') = false := by
  have hletter : (decide (65 ≤ c.val ∧ c.val ≤ 90) ||
      (decide (97 ≤ c.val) && decide (c.val ≤ 122))) = true := h
  simp only [Bool.or_eq_true, Bool.and_eq_true, decide_eq_true_eq,
    UInt32.le_iff_toNat_le] at hletter
  change (65 ≤ c.val.toNat ∧ c.val.toNat ≤ 90) ∨ (97 ≤ c.val.toNat ∧ c.val.toNat ≤ 122) at hletter
  have hdigit : c.isDigit = false := by
    rw [Char.isDigit, Bool.and_eq_false_iff, decide_eq_false_iff_not, decide_eq_false_iff_not,
      UInt32.le_iff_toNat_le]
    right
    change ¬ c.val.toNat ≤ 57
    omega
  have hsign : c ≠ '-' := by
    rintro rfl
    revert hletter
    decide
  simp [hdigit, hsign]

theorem wordKind_name {name : String} (h : IsName tongue name) :
    tongue.wordKind name.toList = .binding := by
  have hne : ∀ word ∈ reserved, name.toList ≠ word.toList := by
    intro word hword heq
    exact ne_of_reserved h hword (String.toList_inj.mp heq)
  have hnothing : name.toList ≠ tongue.nothing.toList := by
    cases tongue with
    | script => exact hne "null" (by decide)
    | go receiver identifier => exact hne "nil" (by decide)
  have hbool : ¬ (name.toList = "true".toList ∨ name.toList = "false".toList) :=
    not_or.mpr ⟨hne "true" (by decide), hne "false" (by decide)⟩
  have hhead : ¬ (name.toList.head?.any fun c => c.isDigit || c = '-') = true := by
    have hidentifier := h.identifier
    rw [isIdentifier] at hidentifier
    cases hchars : name.toList with
    | nil => simp
    | cons first rest =>
      rw [hchars] at hidentifier
      simp only [Bool.and_eq_true, Bool.or_eq_true, decide_eq_true_eq] at hidentifier
      rcases hidentifier.1 with halpha | rfl
      · simp [not_numeric_of_isAlpha halpha]
      · simp
  rw [Tongue.wordKind, if_neg hnothing, if_neg hbool, if_neg hhead]

theorem kindOf_of_group {pieces body : List Piece} {bracket : Bracket}
    (h : ∀ piece ∈ pieces, piece.isOperator = false)
    (hlast : pieces.getLast? = some (.group bracket body)) :
    tongue.kindOf pieces = tongue.groupKind bracket pieces := by
  have hany : ¬ pieces.any Piece.isOperator = true := by simpa using h
  rw [Tongue.kindOf, if_neg hany, hlast]

/-- The kind of a value shows in its pieces, up to what its target says. -/
theorem kindOf_pieces {value : Value} (h : value.Legible tongue) :
    tongue.kindOf (tongue.pieces value) = (tongue.essence value).kind := by
  have hformed := formed_pieces h
  have hfits := h.fits
  cases value with
  | null => exact wordKind_nothing tongue
  | text content => rfl
  | int n => exact wordKind_int n.toInt
  | float bits => exact hfits.elim
  | bool b => exact wordKind_bool b
  | array element elements =>
    cases tongue with
    | script => rfl
    | go receiver identifier =>
      exact kindOf_of_group (hformed.unoperated rfl) List.getLast?_concat
  | map key value entries =>
    cases tongue with
    | script => rfl
    | go receiver identifier =>
      exact kindOf_of_group (hformed.unoperated rfl) List.getLast?_concat
  | binding name => exact wordKind_name hfits
  | ownField field =>
    obtain ⟨name, rfl⟩ := exists_binding hfits
    exact if_pos rfl
  | modelField model field =>
    obtain ⟨name, rfl⟩ := exists_binding hfits.2
    have hmodel : model.toList ≠ tongue.own.toList := by
      simpa [String.toList_inj] using hfits.1.ne_own
    exact if_neg hmodel
  | arrayElement source index =>
    refine (kindOf_of_group (hformed.unoperated rfl) List.getLast?_concat).trans ?_
    have hsource := (formed_pieces (h.child List.mem_cons_self)).ne_nil
    cases tongue with
    | script => exact if_neg (by simpa [Tongue.pieces] using hsource)
    | go receiver identifier => rfl
  | mapElement source key =>
    have hsource := (formed_pieces (h.child List.mem_cons_self)).ne_nil
    cases tongue with
    | script =>
      have hlength : 4 ≤ (Tongue.script.pieces (.mapElement source key)).length := by
        have := List.length_pos_iff.mpr hsource
        simp only [Tongue.pieces, Tongue.lookup, List.length_append, List.length_cons,
          List.length_nil]
        omega
      refine (kindOf_of_group (hformed.unoperated rfl) (List.getLast?_append_cons ..)).trans ?_
      exact (if_neg (by omega)).trans (if_neg (by omega))
    | go receiver identifier =>
      exact kindOf_of_group (hformed.unoperated rfl) List.getLast?_concat
  | combined left op right =>
    have hany : (tongue.pieces (.combined left op right)).any Piece.isOperator = true := by
      simp [Tongue.pieces, Piece.isOperator]
    exact if_pos hany
  | intToText inner => cases tongue <;> rfl

/-! ### Parts -/

/-- Only operands that are operations stand in parentheses alone. -/
theorem pieces_ne_round {value : Value} {body : List Piece} (h : value.isOperation = false) :
    tongue.pieces value ≠ [.group .round body] := by
  intro heq
  have hlast := congrArg List.getLast? heq
  cases value with
  | array element elements =>
    cases tongue with
    | script => simp [Tongue.pieces, Tongue.arrayLiteral] at heq
    | go receiver identifier => simp [Tongue.pieces, Tongue.arrayLiteral] at hlast
  | map key value entries =>
    cases tongue with
    | script => simp [Tongue.pieces, Tongue.mapLiteral] at heq
    | go receiver identifier => simp [Tongue.pieces, Tongue.mapLiteral] at hlast
  | arrayElement source index => simp [Tongue.pieces] at hlast
  | mapElement source key =>
    cases tongue with
    | script => simpa [Tongue.pieces, Tongue.lookup] using congrArg List.length heq
    | go receiver identifier => simp [Tongue.pieces, Tongue.lookup] at hlast
  | combined left op right => cases h
  | intToText inner => cases tongue <;> simp [Tongue.pieces, Tongue.conversion] at heq
  | _ => simp [Tongue.pieces] at heq

theorem operand_inj {first second : Value} (h : Tongue.operand first (tongue.pieces first) =
    Tongue.operand second (tongue.pieces second)) :
    tongue.pieces first = tongue.pieces second := by
  rw [Tongue.operand, Tongue.operand] at h
  split at h
  · split at h
    · simpa using h
    · next hsecond => exact absurd h.symm (pieces_ne_round (by simpa using hsecond))
  · split at h
    · next hfirst _ => exact absurd h (pieces_ne_round (by simpa using hfirst))
    · exact h

theorem map_eq_map_of_imp {α β γ : Type} {f : α → β} {g : α → γ} {first second : List α}
    (h : ∀ a ∈ first, ∀ b ∈ second, f a = f b → g a = g b) (hmap : first.map f = second.map f) :
    first.map g = second.map g := by
  induction first generalizing second with
  | nil =>
    obtain rfl : second = [] := by simpa using hmap.symm
    rfl
  | cons a first ih =>
    cases second with
    | nil => simp at hmap
    | cons b second =>
      obtain ⟨hhead, htail⟩ := List.cons.inj hmap
      rw [List.map_cons, List.map_cons, h a List.mem_cons_self b List.mem_cons_self hhead,
        ih (fun c hc d hd => h c (List.mem_cons_of_mem a hc) d (List.mem_cons_of_mem b hd)) htail]

theorem natDigits_inj {m n : Nat} (h : Decimal.natDigits m = Decimal.natDigits n) : m = n := by
  have hvalue := congrArg (Nat.ofDigitChars 10 · 0) h
  simpa [Decimal.natDigits, Nat.ofDigitChars_toDigits] using hvalue

theorem intText_inj {m n : Int}
    (h : (Decimal.intText m).toList = (Decimal.intText n).toList) : m = n := by
  have hsign : ∀ k l : Nat, '-' :: Decimal.natDigits k ≠ Decimal.natDigits l := by
    intro k l heq
    have hmem : '-' ∈ Decimal.natDigits l := heq ▸ List.mem_cons_self
    exact absurd (Go.isDigit_of_mem_natDigits hmem) (by decide)
  rw [toList_intText, toList_intText] at h
  split at h
  · split at h
    · have habs := natDigits_inj (List.cons.inj h).2
      omega
    · exact absurd h (hsign _ _)
  · split at h
    · exact absurd h.symm (hsign _ _)
    · have habs := natDigits_inj h
      omega

theorem splittable_piecesAll {values : List Value} (h : ∀ value ∈ values, value.Legible tongue) :
    ∀ pieces ∈ tongue.piecesAll values, pieces ≠ [] ∧ comma ∉ pieces := by
  rw [Tongue.piecesAll_eq_map]
  intro pieces hpieces
  obtain ⟨value, hvalue, rfl⟩ := List.mem_map.mp hpieces
  have hformed := formed_pieces (h value hvalue)
  exact ⟨hformed.ne_nil, hformed.comma_not_mem⟩

theorem splittable_entryPieces {entries : List (Value × Value)}
    (h : ∀ entry ∈ entries, entry.1.Legible tongue ∧ entry.2.Legible tongue) :
    ∀ pieces ∈ tongue.entryPieces entries, pieces ≠ [] ∧ comma ∉ pieces := by
  rw [Tongue.entryPieces_eq_map]
  intro pieces hpieces
  obtain ⟨entry, hentry, rfl⟩ := List.mem_map.mp hpieces
  cases tongue with
  | script => simp [Tongue.entry, comma]
  | go receiver identifier =>
    have hkey := (formed_pieces (h entry hentry).1).comma_not_mem
    have hvalue := (formed_pieces (h entry hentry).2).comma_not_mem
    exact ⟨by simp [Tongue.entry], by simpa [Tongue.entry, comma] using ⟨hkey, hvalue⟩⟩

theorem essence_array_eq {element element' : Ty} {elements elements' : List Value}
    (hfirst : (Value.array element elements).Legible tongue)
    (hsecond : (Value.array element' elements').Legible tongue)
    (hparts : ∀ child ∈ elements, ∀ other ∈ elements',
      tongue.pieces child = tongue.pieces other → tongue.essence child = tongue.essence other)
    (h : tongue.pieces (.array element elements) = tongue.pieces (.array element' elements')) :
    tongue.essence (.array element elements) = tongue.essence (.array element' elements') := by
  obtain ⟨hty, hbody⟩ := arrayLiteral_inj (hfirst.fits element List.mem_cons_self)
    (hsecond.fits element' List.mem_cons_self) h
  have hpieces := separated_inj (splittable_piecesAll fun _ => hfirst.child)
    (splittable_piecesAll fun _ => hsecond.child) hbody
  rw [Tongue.piecesAll_eq_map, Tongue.piecesAll_eq_map] at hpieces
  rw [Tongue.essence_array, Tongue.essence_array, hty, map_eq_map_of_imp hparts hpieces]

theorem legible_of_entry {key value : Ty} {entries : List (Value × Value)}
    (h : (Value.map key value entries).Legible tongue) {entry : Value × Value}
    (hentry : entry ∈ entries) : entry.1.Legible tongue ∧ entry.2.Legible tongue :=
  ⟨h.child (mem_children_of_entry hentry).1, h.child (mem_children_of_entry hentry).2⟩

theorem essence_map_eq {key value key' value' : Ty} {entries entries' : List (Value × Value)}
    (hfirst : (Value.map key value entries).Legible tongue)
    (hsecond : (Value.map key' value' entries').Legible tongue)
    (hparts : ∀ child ∈ (Value.map key value entries).children,
      ∀ other ∈ (Value.map key' value' entries').children,
        tongue.pieces child = tongue.pieces other → tongue.essence child = tongue.essence other)
    (h : tongue.pieces (.map key value entries) = tongue.pieces (.map key' value' entries')) :
    tongue.essence (.map key value entries) = tongue.essence (.map key' value' entries') := by
  obtain ⟨hkeys, hvalues, hbody⟩ := mapLiteral_inj (hfirst.fits key List.mem_cons_self)
    (hfirst.fits value (List.mem_cons_of_mem _ List.mem_cons_self))
    (hsecond.fits key' List.mem_cons_self)
    (hsecond.fits value' (List.mem_cons_of_mem _ List.mem_cons_self)) h
  have hpieces := separated_inj (splittable_entryPieces fun _ => legible_of_entry hfirst)
    (splittable_entryPieces fun _ => legible_of_entry hsecond) hbody
  rw [Tongue.entryPieces_eq_map, Tongue.entryPieces_eq_map] at hpieces
  rw [Tongue.essence_map, Tongue.essence_map, hkeys, hvalues]
  refine congrArg _ (map_eq_map_of_imp ?_ hpieces)
  intro entry hentry other hother hsame
  obtain ⟨hkey, hvalue⟩ := entry_inj
    (formed_pieces (legible_of_entry hfirst hentry).1).unseparated
    (formed_pieces (legible_of_entry hsecond hother).1).unseparated hsame
  obtain ⟨hmem, hmem'⟩ := mem_children_of_entry hentry
  obtain ⟨hother, hother'⟩ := mem_children_of_entry hother
  rw [hparts entry.1 hmem other.1 hother hkey, hparts entry.2 hmem' other.2 hother' hvalue]

/-- Legible values with the same pieces have the same essence. -/
theorem essence_eq_of_pieces_eq {first second : Value} (hfirst : first.Legible tongue)
    (hsecond : second.Legible tongue) (h : tongue.pieces first = tongue.pieces second) :
    tongue.essence first = tongue.essence second := by
  induction first using Value.induction_children generalizing second with
  | step first ih =>
    have hkind : (tongue.essence first).kind = (tongue.essence second).kind := by
      rw [← kindOf_pieces hfirst, ← kindOf_pieces hsecond, h]
    have hparts : ∀ {child other}, child ∈ first.children → other ∈ second.children →
        tongue.pieces child = tongue.pieces other → tongue.essence child = tongue.essence other :=
      fun hchild hother => ih _ hchild (hfirst.child hchild) (hsecond.child hother)
    have hpair : ∀ {a b a' b' : Value}, first.children = [a, b] → second.children = [a', b'] →
        tongue.pieces a = tongue.pieces a' → tongue.pieces b = tongue.pieces b' →
        tongue.essence a = tongue.essence a' ∧ tongue.essence b = tongue.essence b' := by
      intro a b a' b' hchildren hchildren' ha hb
      exact ⟨hparts (by simp [hchildren]) (by simp [hchildren']) ha,
        hparts (by simp [hchildren]) (by simp [hchildren']) hb⟩
    -- In Go this is also about elements of maps.
    have helement : ∀ {a b a' b' : Value}, first.children = [a, b] → second.children = [a', b'] →
        tongue.pieces (.arrayElement a b) = tongue.pieces (.arrayElement a' b') →
        tongue.essence (.arrayElement a b) = tongue.essence (.arrayElement a' b') := by
      intro a b a' b' hchildren hchildren' hsame
      obtain ⟨hsource, hindex⟩ := append_group_inj hsame
      obtain ⟨hsource, hindex⟩ := hpair hchildren hchildren' hsource hindex
      exact congrArg₂ Value.arrayElement hsource hindex
    cases first with
    | null =>
      cases second with
      | null => rfl
      | _ => cases tongue <;> cases hkind
    | text content =>
      cases second with
      | text content' =>
        obtain rfl : content = content' := by simpa [Tongue.pieces, String.toList_inj] using h
        rfl
      | _ => cases tongue <;> cases hkind
    | int n =>
      cases second with
      | int n' =>
        have hsame : n.toInt = n'.toInt := intText_inj (by simpa [Tongue.pieces] using h)
        rw [Int64.toInt_inj.mp hsame]
      | _ => cases tongue <;> cases hkind
    | float bits => exact hfirst.fits.elim
    | bool b =>
      cases second with
      | bool b' =>
        have hword : Lowering.boolText b = Lowering.boolText b' := word_eq h
        obtain rfl : b = b' := by
          revert hword
          cases b <;> cases b' <;> decide
        rfl
      | _ => cases tongue <;> cases hkind
    | array element elements =>
      cases second with
      | array element' elements' =>
        exact essence_array_eq hfirst hsecond (fun _ hchild _ hother => hparts hchild hother) h
      | _ => cases tongue <;> cases hkind
    | map key value entries =>
      cases second with
      | map key' value' entries' =>
        exact essence_map_eq hfirst hsecond (fun _ hchild _ hother => hparts hchild hother) h
      | _ => cases tongue <;> cases hkind
    | binding name =>
      cases second with
      | binding name' =>
        obtain rfl : name = name' := word_eq h
        rfl
      | _ => cases tongue <;> cases hkind
    | ownField field =>
      cases second with
      | ownField field' =>
        have hfield : tongue.pieces field = tongue.pieces field' := by
          simpa [Tongue.pieces] using h
        exact congrArg Value.ownField (hparts List.mem_cons_self List.mem_cons_self hfield)
      | _ => cases tongue <;> cases hkind
    | modelField model field =>
      cases second with
      | modelField model' field' =>
        obtain ⟨rfl, hfield⟩ : model = model' ∧ tongue.pieces field = tongue.pieces field' := by
          simpa [Tongue.pieces, String.toList_inj] using h
        exact congrArg (Value.modelField model)
          (hparts List.mem_cons_self List.mem_cons_self hfield)
      | _ => cases tongue <;> cases hkind
    | arrayElement source index =>
      cases second with
      | arrayElement source' index' => exact helement rfl rfl h
      | mapElement source' key' =>
        cases tongue with
        | script => cases hkind
        | go receiver identifier => exact helement rfl rfl h
      | _ => cases hkind
    | mapElement source key =>
      cases second with
      | arrayElement source' index' =>
        cases tongue with
        | script => cases hkind
        | go receiver identifier => exact helement rfl rfl h
      | mapElement source' key' =>
        obtain ⟨hsource, hkey⟩ := lookup_inj h
        obtain ⟨hsource, hkey⟩ := hpair rfl rfl hsource hkey
        exact congrArg₂ tongue.access hsource hkey
      | _ => cases tongue <;> cases hkind
    | combined left op right =>
      cases second with
      | combined left' op' right' =>
        have hleft := (formed_pieces (hfirst.child List.mem_cons_self)).operand.unoperated
        have hleft' := (formed_pieces (hsecond.child List.mem_cons_self)).operand.unoperated
        obtain ⟨hbefore, hafter⟩ := append_inj_of_run hleft hleft' (by simp [Piece.isOperator])
          (by simp [Piece.isOperator]) h
        obtain ⟨hop, hright⟩ := List.cons.inj hafter
        obtain rfl : op = op' := symbol_inj (String.toList_inj.mp (Piece.operator.inj hop))
        obtain ⟨hleft, hright⟩ := hpair rfl rfl (operand_inj hbefore) (operand_inj hright)
        exact congrArg₂ (Value.combined · op ·) hleft hright
      | _ => cases tongue <;> cases hkind
    | intToText inner =>
      cases second with
      | intToText inner' =>
        exact congrArg Value.intToText
          (hparts List.mem_cons_self List.mem_cons_self (conversion_inj h))
      | _ => cases tongue <;> cases hkind

end Reading

end Polyglot
