import Mathlib.Algebra.Order.Field.Power
import Mathlib.Computability.RegularExpressions
import Mathlib.Data.List.DropRight
import Mathlib.Tactic.FieldSimp
import Mathlib.Tactic.IntervalCases
import Mathlib.Tactic.Linarith
import Mathlib.Tactic.Positivity
import Mathlib.Tactic.Ring
import Polyglot.Proofs.Decimal.Search

/-! # Numerals without an exponent

The texts of decimals by their form, their sign, the rational that they denote and the number of
their significant digits. Coefficient and place are spelled out in such a form: zeros are put in
front of the digits or behind them, and behind the point they are left out again, none of which
changes what the text denotes or how many digits count.
-/

namespace Polyglot.Decimal

/-! ### Forms -/

section
open RegularExpression

/-- One of the given characters. -/
def oneOf (chars : List Char) : RegularExpression Char :=
  (chars.map char).sum

def anyDigit : RegularExpression Char := oneOf "0123456789".toList

def nonzeroDigit : RegularExpression Char := oneOf "123456789".toList

def optionalSign : RegularExpression Char := 1 + char '-'

/-- Digits that do not start with a needless zero. -/
def wholeForm : RegularExpression Char :=
  char '0' + nonzeroDigit * star anyDigit

/-- A point and digits that do not end in a needless zero, or neither. -/
def numeralForm : RegularExpression Char :=
  optionalSign * (wholeForm * (1 + char '.' * (star anyDigit * nonzeroDigit)))

/-- A point with at least one digit behind it. -/
def fractionalForm : RegularExpression Char :=
  optionalSign * (wholeForm * (char '.' * (anyDigit * star anyDigit)))

end

/-! ### What a text denotes -/

def hasSign (text : List Char) : Bool :=
  text.head? = some '-'

/-- The rational without its sign: all digits as one number, and the point counted from their
end. -/
def magnitudeOf (text : List Char) : ℚ :=
  Nat.ofDigitChars 10 (text.filter Char.isDigit) 0 / 10 ^ (text.dropWhile (· ≠ '.')).tail.length

/-- The digits without the zeros on both sides. -/
def strip (digits : List Char) : List Char :=
  (digits.dropWhile (· = '0')).rdropWhile (· = '0')

def significantDigits (text : List Char) : ℕ :=
  (strip (text.filter Char.isDigit)).length

/-! ### Matching -/

section
open RegularExpression

variable {P Q : RegularExpression Char} {x y : List Char}

theorem append_mem_mul (hx : x ∈ P.matches') (hy : y ∈ Q.matches') :
    x ++ y ∈ (P * Q).matches' := by
  rw [matches'_mul, Language.mem_mul]
  exact ⟨x, hx, y, hy, rfl⟩

theorem mem_add_iff : x ∈ (P + Q).matches' ↔ x ∈ P.matches' ∨ x ∈ Q.matches' := by
  rw [matches'_add, Language.mem_add]

theorem nil_mem_one : [] ∈ (1 : RegularExpression Char).matches' :=
  Language.nil_mem_one

theorem mem_char (c : Char) : [c] ∈ (char c).matches' :=
  rfl

theorem mem_oneOf {chars : List Char} {c : Char} (h : c ∈ chars) :
    [c] ∈ (oneOf chars).matches' := by
  induction chars with
  | nil => cases h
  | cons first rest ih =>
    rw [oneOf, List.map_cons, List.sum_cons, mem_add_iff]
    rcases List.mem_cons.mp h with rfl | hrest
    · exact .inl (mem_char c)
    · exact .inr (ih hrest)

theorem mem_digits_of_isDigit {c : Char} (h : c.isDigit = true) : c ∈ "0123456789".toList := by
  have hrange : 48 ≤ c.toNat ∧ c.toNat ≤ 57 := by
    simpa [Char.isDigit, UInt32.le_iff_toNat_le] using h
  obtain ⟨hlow, hhigh⟩ := hrange
  rw [← Char.ofNat_toNat c]
  generalize c.toNat = n at *
  interval_cases n <;> decide

theorem mem_anyDigit {c : Char} (h : c.isDigit = true) : [c] ∈ anyDigit.matches' :=
  mem_oneOf (mem_digits_of_isDigit h)

theorem mem_nonzeroDigit {c : Char} (h : c.isDigit = true) (hne : c ≠ '0') :
    [c] ∈ nonzeroDigit.matches' := by
  apply mem_oneOf
  have hmem : c ∈ '0' :: "123456789".toList := mem_digits_of_isDigit h
  exact (List.mem_cons.mp hmem).resolve_left hne

theorem mem_star_anyDigit {digits : List Char} (h : ∀ c ∈ digits, c.isDigit = true) :
    digits ∈ (star anyDigit).matches' := by
  rw [matches'_star, Language.mem_kstar]
  refine ⟨digits.map List.singleton, (List.flatMap_singleton' digits).symm, fun text htext => ?_⟩
  obtain ⟨c, hc, rfl⟩ := List.mem_map.mp htext
  exact mem_anyDigit (h c hc)

theorem mem_wholeForm_cons {c : Char} {digits : List Char} (h : ∀ d ∈ c :: digits, d.isDigit = true)
    (hne : c ≠ '0') : c :: digits ∈ wholeForm.matches' := by
  obtain ⟨hc, hdigits⟩ := List.forall_mem_cons.mp h
  apply mem_add_iff.mpr (.inr _)
  exact append_mem_mul (mem_nonzeroDigit hc hne) (mem_star_anyDigit hdigits)

end

/-! ### Zeros on both sides -/

theorem isDigit_of_mem_zeros {n : ℕ} {c : Char} (h : c ∈ List.replicate n '0') :
    c.isDigit = true := by
  rw [List.eq_of_mem_replicate h]
  rfl

theorem strip_replicate_append (n : ℕ) (digits : List Char) :
    strip (List.replicate n '0' ++ digits) = strip digits := by
  have hzeros : ∀ c ∈ List.replicate n '0', decide (c = '0') = true := by simp
  rw [strip, List.dropWhile_append_of_pos hzeros, strip]

theorem rdropWhile_append_replicate (digits : List Char) (n : ℕ) :
    (digits ++ List.replicate n '0').rdropWhile (· = '0') = digits.rdropWhile (· = '0') := by
  have hzeros : ∀ c ∈ List.replicate n '0', decide (c = '0') = true := by simp
  rw [List.rdropWhile, List.reverse_append, List.reverse_replicate,
    List.dropWhile_append_of_pos hzeros, List.rdropWhile]

theorem strip_append_replicate (digits : List Char) (n : ℕ) :
    strip (digits ++ List.replicate n '0') = strip digits := by
  rw [strip, strip, List.dropWhile_append]
  split_ifs with hempty
  · rw [List.isEmpty_iff.mp hempty, List.dropWhile_replicate]
    simp
  · exact rdropWhile_append_replicate _ n

theorem length_strip_le (digits : List Char) : (strip digits).length ≤ digits.length :=
  (List.rdropWhile_prefix _ _).length_le.trans (List.dropWhile_suffix _).length_le

theorem getLast?_rdropWhile_ne (digits : List Char) :
    (digits.rdropWhile (· = '0')).getLast? ≠ some '0' := by
  intro hlast
  have hne : digits.rdropWhile (· = '0') ≠ [] := by
    rintro hnil
    simp [hnil] at hlast
  have hnot := List.rdropWhile_last_not _ digits hne
  rw [List.getLast?_eq_some_getLast hne] at hlast
  exact hnot (decide_eq_true (Option.some.inj hlast))

/-! ### Digits of natural numbers -/

theorem natDigits_pow (k : ℕ) : natDigits (10 ^ k) = '1' :: List.replicate k '0' := by
  induction k with
  | zero => rfl
  | succ k ih =>
    have happend := Nat.toDigits_append_toDigits (b := 10) (n := 10 ^ k) (d := 0) (by decide)
      (by positivity) (by decide)
    rw [Nat.add_zero, ← pow_succ'] at happend
    rw [natDigits, ← happend, ← natDigits, ih, List.replicate_succ']
    rfl

/-- At most as many digits count as the power has zeros, also in the power itself. -/
theorem length_strip_natDigits_le {c k : ℕ} (hk : 0 < k) (h : c ≤ 10 ^ k) :
    (strip (natDigits c)).length ≤ k := by
  rcases h.lt_or_eq with hlt | rfl
  · exact (length_strip_le _).trans ((Nat.length_toDigits_le_iff (by decide) hk).mpr hlt)
  · have hone : strip ['1'] = ['1'] := by decide
    rw [natDigits_pow, ← List.singleton_append, strip_append_replicate, hone]
    exact hk

theorem natDigits_eq_cons {c : ℕ} (h : 0 < c) :
    ∃ first rest, natDigits c = first :: rest ∧ first ≠ '0' := by
  induction c using Nat.strong_induction_on with
  | _ c ih =>
    by_cases hlt : c < 10
    · refine ⟨Nat.digitChar c, [], Nat.toDigits_of_lt_base hlt, ?_⟩
      interval_cases c <;> decide
    · obtain ⟨first, rest, hdigits, hne⟩ := ih (c / 10) (by omega) (by omega)
      refine ⟨first, rest ++ [Nat.digitChar (c % 10)], ?_, hne⟩
      rw [natDigits, Nat.toDigits_of_base_le (by decide) (by omega), ← natDigits, hdigits,
        List.cons_append]

/-! ### Putting a text together -/

/-- Whole part and fraction; the point stands only before a fraction. -/
def joined (whole fraction : List Char) : List Char :=
  if fraction.isEmpty then whole else whole ++ '.' :: fraction

/-- The digits behind a point that is always there. -/
def orZero (fraction : List Char) : List Char :=
  if fraction.isEmpty then ['0'] else fraction

def signed (negative : Bool) (text : List Char) : List Char :=
  if negative then '-' :: text else text

section
variable (negative : Bool) (text : List Char)

theorem magnitudeOf_signed : magnitudeOf (signed negative text) = magnitudeOf text := by
  cases negative <;> rfl

theorem significantDigits_signed :
    significantDigits (signed negative text) = significantDigits text := by
  cases negative <;> rfl

theorem hasSign_signed {text : List Char} (h : '-' ∉ text) :
    hasSign (signed negative text) = negative := by
  cases negative with
  | false =>
    apply decide_eq_false
    intro hhead
    exact h (List.mem_of_head? hhead)
  | true => rfl

theorem signed_mem {text : List Char} {P : RegularExpression Char} (h : text ∈ P.matches') :
    signed negative text ∈ (optionalSign * P).matches' := by
  cases negative with
  | false => exact append_mem_mul (mem_add_iff.mpr (.inl nil_mem_one)) h
  | true => exact append_mem_mul (mem_add_iff.mpr (.inr (mem_char '-'))) h

theorem signed_append (others : List Char) :
    signed negative text ++ others = signed negative (text ++ others) := by
  cases negative <;> rfl

end

section
variable {whole fraction : List Char} (hwhole : ∀ c ∈ whole, c.isDigit = true)
include hwhole

theorem ne_point_of_digits : ∀ c ∈ whole, decide (c ≠ '.') = true := by
  intro c hc
  rw [decide_eq_true_eq]
  rintro rfl
  exact absurd (hwhole _ hc) (by decide)

theorem magnitudeOf_digits : magnitudeOf whole = Nat.ofDigitChars 10 whole 0 := by
  rw [magnitudeOf, List.filter_eq_self.mpr hwhole,
    List.dropWhile_eq_nil_iff.mpr (ne_point_of_digits hwhole)]
  simp

variable (hfraction : ∀ c ∈ fraction, c.isDigit = true)
include hfraction

theorem filter_pointed : (whole ++ '.' :: fraction).filter Char.isDigit = whole ++ fraction := by
  rw [List.filter_append, List.filter_cons_of_neg (by decide), List.filter_eq_self.mpr hwhole,
    List.filter_eq_self.mpr hfraction]

theorem magnitudeOf_pointed : magnitudeOf (whole ++ '.' :: fraction) =
    Nat.ofDigitChars 10 (whole ++ fraction) 0 / 10 ^ fraction.length := by
  rw [magnitudeOf, filter_pointed hwhole hfraction,
    List.dropWhile_append_of_pos (ne_point_of_digits hwhole)]
  rfl

theorem not_mem_pointed : '-' ∉ whole ++ '.' :: fraction := by
  intro hmem
  rcases List.mem_append.mp hmem with hmem | hmem
  · exact absurd (hwhole _ hmem) (by decide)
  · rcases List.mem_cons.mp hmem with hmem | hmem
    · exact absurd hmem (by decide)
    · exact absurd (hfraction _ hmem) (by decide)

theorem magnitudeOf_joined : magnitudeOf (joined whole fraction) =
    Nat.ofDigitChars 10 (whole ++ fraction) 0 / 10 ^ fraction.length := by
  rw [joined]
  split_ifs with hempty
  · simp [List.isEmpty_iff.mp hempty, magnitudeOf_digits hwhole]
  · exact magnitudeOf_pointed hwhole hfraction

theorem significantDigits_joined :
    significantDigits (joined whole fraction) = (strip (whole ++ fraction)).length := by
  rw [significantDigits, joined]
  split_ifs with hempty
  · rw [List.filter_eq_self.mpr hwhole, List.isEmpty_iff.mp hempty, List.append_nil]
  · rw [filter_pointed hwhole hfraction]

end

/-! ### Spelling out coefficient and place -/

/-- Whole part and fraction spell out a decimal: with the zeros that are left out at the end, they
are the digits of the coefficient between other zeros. -/
structure Spells (c : ℕ) (place : ℤ) (whole fraction : List Char) : Prop where
  whole_form : whole ∈ wholeForm.matches'
  fraction_end : fraction.getLast? ≠ some '0'
  zeros : ∃ leading kept dropped : ℕ,
    whole ++ fraction ++ List.replicate dropped '0' =
      List.replicate leading '0' ++ natDigits c ++ List.replicate kept '0' ∧
    place = kept - (fraction.length + dropped)

namespace Spells

variable {c : ℕ} {place : ℤ} {whole fraction : List Char} (h : Spells c place whole fraction)
include h

theorem isDigit : ∀ d ∈ whole ++ fraction, d.isDigit = true := by
  intro d hd
  obtain ⟨leading, kept, dropped, hzeros, -⟩ := h.zeros
  have hmem : d ∈ List.replicate leading '0' ++ natDigits c ++ List.replicate kept '0' :=
    hzeros ▸ List.mem_append_left _ hd
  rw [List.mem_append, List.mem_append] at hmem
  rcases hmem with (hmem | hmem) | hmem
  · exact isDigit_of_mem_zeros hmem
  · exact Nat.isDigit_of_mem_toDigits (by decide) (by decide) hmem
  · exact isDigit_of_mem_zeros hmem

theorem whole_isDigit : ∀ d ∈ whole, d.isDigit = true := fun d hd =>
  h.isDigit d (List.mem_append_left fraction hd)

theorem fraction_isDigit : ∀ d ∈ fraction, d.isDigit = true := fun d hd =>
  h.isDigit d (List.mem_append_right whole hd)

/-- The digits denote the decimal. -/
theorem value : (Nat.ofDigitChars 10 (whole ++ fraction) 0 : ℚ) / 10 ^ fraction.length =
    c * 10 ^ place := by
  obtain ⟨leading, kept, dropped, hzeros, rfl⟩ := h.zeros
  have hnat : 10 ^ dropped * Nat.ofDigitChars 10 (whole ++ fraction) 0 = 10 ^ kept * c := by
    rw [← Nat.ofDigitChars_replicate_zero, ← Nat.ofDigitChars_append, hzeros,
      Nat.ofDigitChars_append, Nat.ofDigitChars_append, Nat.ofDigitChars_replicate_zero,
      Nat.ofDigitChars_replicate_zero, mul_zero, natDigits,
      Nat.ofDigitChars_toDigits (by decide) (by decide)]
  have hrat : (10 : ℚ) ^ dropped * Nat.ofDigitChars 10 (whole ++ fraction) 0 = 10 ^ kept * c :=
    mod_cast hnat
  have hpower : (10 : ℚ) ^ ((kept : ℤ) - (fraction.length + dropped)) =
      10 ^ kept / (10 ^ fraction.length * 10 ^ dropped) := by
    rw [zpow_sub₀ (by norm_num), zpow_add₀ (by norm_num), zpow_natCast, zpow_natCast, zpow_natCast]
  rw [hpower, div_eq_iff (by positivity)]
  field_simp
  linarith

theorem orZero_isDigit : ∀ d ∈ orZero fraction, d.isDigit = true := by
  rw [orZero]
  split_ifs
  · simp
  · exact h.fraction_isDigit

theorem not_mem_joined : '-' ∉ joined whole fraction := by
  have hpointed := not_mem_pointed h.whole_isDigit h.fraction_isDigit
  rw [joined]
  split_ifs
  · exact fun hmem => hpointed (List.mem_append_left _ hmem)
  · exact hpointed

theorem point_mem_joined_iff : '.' ∈ joined whole fraction ↔ fraction.isEmpty = false := by
  rw [joined]
  split_ifs with hempty
  · have hnot : '.' ∉ whole := fun hmem => absurd (h.whole_isDigit _ hmem) (by decide)
    simp [hempty, hnot]
  · simp [hempty]

theorem mem_numeralForm (negative : Bool) :
    signed negative (joined whole fraction) ∈ numeralForm.matches' := by
  apply signed_mem
  rw [joined]
  split_ifs with hempty
  · rw [← List.append_nil whole]
    exact append_mem_mul h.whole_form (mem_add_iff.mpr (.inl nil_mem_one))
  · obtain ⟨digits, last, rfl⟩ : ∃ digits last, fraction = digits ++ [last] :=
      ⟨_, _, (List.dropLast_append_getLast (mt List.isEmpty_iff.mpr hempty)).symm⟩
    obtain ⟨hdigits, hlast⟩ := List.forall_mem_append.mp h.fraction_isDigit
    have hne : last ≠ '0' := by simpa using h.fraction_end
    apply append_mem_mul h.whole_form (mem_add_iff.mpr (.inr _))
    exact append_mem_mul (mem_char '.')
      (append_mem_mul (mem_star_anyDigit hdigits) (mem_nonzeroDigit (hlast _ (by simp)) hne))

theorem mem_fractionalForm (negative : Bool) :
    signed negative (whole ++ '.' :: orZero fraction) ∈ fractionalForm.matches' := by
  apply signed_mem
  have hdigits := h.orZero_isDigit
  cases htail : orZero fraction with
  | nil =>
    rw [orZero] at htail
    split_ifs at htail with hempty
    · exact absurd (List.isEmpty_iff.mpr htail) hempty
  | cons first rest =>
    rw [htail] at hdigits
    obtain ⟨hfirst, hrest⟩ := List.forall_mem_cons.mp hdigits
    exact append_mem_mul h.whole_form (append_mem_mul (mem_char '.')
      (append_mem_mul (mem_anyDigit hfirst) (mem_star_anyDigit hrest)))

/-- A zero behind the point changes nothing. -/
theorem magnitudeOf_orZero : magnitudeOf (whole ++ '.' :: orZero fraction) = c * 10 ^ place := by
  rw [← h.value, magnitudeOf_pointed h.whole_isDigit h.orZero_isDigit, orZero]
  split_ifs with hempty
  · rw [List.isEmpty_iff.mp hempty, List.append_nil, Nat.ofDigitChars_append,
      Nat.ofDigitChars_cons, Nat.ofDigitChars_nil]
    simp
  · rfl

theorem strip_eq : strip (whole ++ fraction) = strip (natDigits c) := by
  obtain ⟨leading, kept, dropped, hzeros, -⟩ := h.zeros
  rw [← strip_append_replicate _ dropped, hzeros, strip_append_replicate, strip_replicate_append]

end Spells

/-- Zero in one digit. -/
theorem spells_zero : Spells 0 0 ['0'] [] :=
  ⟨mem_add_iff.mpr (.inl (mem_char '0')), by simp, 0, 0, 0, rfl, rfl⟩

/-- The digits of a number with zeros in front of them, so that there are more than the places. -/
def padded (c places : ℕ) : List Char :=
  List.replicate (places + 1 - (natDigits c).length) '0' ++ natDigits c

section
variable {c : ℕ} (hc : 0 < c)
include hc

theorem take_natDigits_mem_wholeForm {n : ℕ} (hn : 0 < n) (zeros : ℕ) :
    (natDigits c).take n ++ List.replicate zeros '0' ∈ wholeForm.matches' := by
  obtain ⟨first, rest, hdigits, hfirst⟩ := natDigits_eq_cons hc
  obtain ⟨n, rfl⟩ : ∃ k, n = k + 1 := ⟨n - 1, by omega⟩
  rw [hdigits, List.take_succ_cons, List.cons_append]
  refine mem_wholeForm_cons (fun d hd => ?_) hfirst
  rw [← List.cons_append, ← List.take_succ_cons, ← hdigits, List.mem_append] at hd
  rcases hd with hd | hd
  · exact Nat.isDigit_of_mem_toDigits (by decide) (by decide) (List.mem_of_mem_take hd)
  · exact isDigit_of_mem_zeros hd

/-- Before the point stand the leading digits or else one zero. -/
theorem take_padded_mem_wholeForm (places : ℕ) :
    (padded c places).take ((padded c places).length - places) ∈ wholeForm.matches' := by
  rcases Nat.lt_or_ge places (natDigits c).length with hlt | hge
  · have hzeros : places + 1 - (natDigits c).length = 0 := by omega
    rw [padded, hzeros, List.replicate_zero, List.nil_append, ← List.append_nil (List.take _ _)]
    exact take_natDigits_mem_wholeForm hc (by omega) 0
  · obtain ⟨zeros, hzeros⟩ : ∃ zeros, places + 1 - (natDigits c).length = zeros + 1 :=
      ⟨places - (natDigits c).length, by omega⟩
    have hlength : (padded c places).length - places = 1 := by
      rw [padded, List.length_append, List.length_replicate]
      omega
    rw [hlength, padded, hzeros]
    exact mem_add_iff.mpr (.inl (mem_char '0'))

theorem spells_of_nonneg {place : ℤ} (h : 0 ≤ place) :
    Spells c place (natDigits c ++ List.replicate place.toNat '0') [] := by
  refine ⟨?_, by simp, 0, place.toNat, 0, by simp, by simp [h]⟩
  rw [← List.take_length (l := natDigits c)]
  exact take_natDigits_mem_wholeForm hc (length_natDigits_pos c) place.toNat

theorem spells_of_neg {place : ℤ} {places : ℕ} (hplace : place = -places) :
    Spells c place ((padded c places).take ((padded c places).length - places))
      (((padded c places).drop ((padded c places).length - places)).rdropWhile (· = '0')) := by
  have hlength : ((padded c places).drop ((padded c places).length - places)).length = places := by
    rw [List.length_drop, padded, List.length_append, List.length_replicate]
    omega
  generalize hrest : (padded c places).drop ((padded c places).length - places) = rest at *
  have hdropped : rest.rtakeWhile (· = '0') =
      List.replicate (rest.rtakeWhile (· = '0')).length '0' :=
    List.eq_replicate_of_mem fun d hd => by simpa using List.mem_rtakeWhile_imp hd
  have hsplit : rest.rdropWhile (· = '0') ++ rest.rtakeWhile (· = '0') = rest :=
    List.rdropWhile_append_rtakeWhile
  refine ⟨take_padded_mem_wholeForm hc places, getLast?_rdropWhile_ne rest,
    places + 1 - (natDigits c).length, 0, (rest.rtakeWhile (· = '0')).length, ?_, ?_⟩
  · rw [← hdropped, List.append_assoc, hsplit, ← hrest, List.take_append_drop, padded,
      List.replicate_zero, List.append_nil]
  · have := congrArg List.length hsplit
    rw [List.length_append, hlength] at this
    omega

theorem spells_positional (place : ℤ) :
    ∃ whole fraction, positional c place = joined whole fraction ∧
      Spells c place whole fraction := by
  rw [positional]
  split_ifs with hplace
  · exact ⟨_, [], by simp [joined], spells_of_nonneg hc hplace⟩
  · have hplaces : place = -(-place).toNat := by omega
    exact ⟨_, _, rfl, spells_of_neg hc hplaces⟩

end

end Polyglot.Decimal
