import Polyglot.Lowering.Go
import Polyglot.Proofs.Decimal.Numerals
import Polyglot.Proofs.Decimal.Rounding

/-! # Literals of doubles

The text of a finite double reads back as that double, and no decimal with fewer digits does. For
the interval that is searched is exactly what rounds to the double, and it is wide enough for
seventeen digits.
-/

namespace Polyglot.Decimal

open Double

/-! ### The interval of a double -/

section
variable (bits : UInt64)

/-- A quarter of the last bit is what the interval counts in. -/
theorem mul_scale_div (n : ℕ) :
    ((n * Nat.pow 2 (exponent bits - 2).toNat : ℕ) : ℚ) / (Interval.ofDouble bits).denominator =
      n * (stepAt (rank bits) / 4) := by
  have hpower := zpow_eq_div (b := 2) (by decide) (exponent bits - 2)
  have hquarter : (2 : ℚ) ^ (exponent bits - 2) = stepAt (rank bits) / 4 := by
    rw [zpow_sub₀ two_ne_zero, exponent_eq]
    norm_num
  rw [Nat.cast_ofNat, hquarter] at hpower
  rw [hpower, Interval.ofDouble, Nat.cast_mul, mul_div_assoc]

theorem upper_ofDouble :
    ((Interval.ofDouble bits).upper : ℚ) / (Interval.ofDouble bits).denominator =
      magnitudeAt (rank bits) + stepAt (rank bits) / 2 := by
  have hscale := mul_scale_div bits (4 * significand bits + 2)
  rw [magnitudeAt, ← significand_eq]
  refine hscale.trans ?_
  push_cast
  ring

theorem closed_ofDouble : (Interval.ofDouble bits).closed = decide (rank bits % 2 = 0) := by
  rw [Interval.ofDouble, significand_eq, significandAt_mod_two]

variable {bits} (hpos : 0 < rank bits)
include hpos

theorem significand_pos : 0 < significand bits :=
  significand_eq bits ▸ significandAt_pos hpos

theorem lower_ofDouble :
    ((Interval.ofDouble bits).lower : ℚ) / (Interval.ofDouble bits).denominator =
      magnitudeAt (rank bits) - stepAt (rank bits - 1) / 2 := by
  have hsignificand := significand_pos hpos
  have hstart : startsBinade bits = true ↔ rank bits % binade = 0 ∧ 1 < rank bits / binade := by
    rw [startsBinade, Bool.and_eq_true, decide_eq_true_eq, decide_eq_true_eq, fraction_eq,
      exponentField_eq]
  rw [stepAt_pred hpos, magnitudeAt, ← significand_eq]
  refine (mul_scale_div bits _).trans ?_
  by_cases h : startsBinade bits = true
  · rw [if_pos h, if_pos (hstart.mp h), Nat.cast_sub (by omega)]
    push_cast
    ring
  · rw [if_neg h, if_neg (mt hstart.mpr h), Nat.cast_sub (by omega)]
    push_cast
    ring

/-- The interval is at least three quarters of the last bit wide, and there are only so many
bits. -/
theorem sound_ofDouble : (Interval.ofDouble bits).Sound := by
  have hsignificand := significand_pos hpos
  have hlt : significand bits < 2 * binade := significand_eq bits ▸ significandAt_lt (rank bits)
  have hstart : startsBinade bits = true → significand bits = binade := by
    intro h
    obtain ⟨hfraction, hfield⟩ := Bool.and_eq_true_iff.mp h
    rw [decide_eq_true_eq] at hfraction hfield
    rw [significand, if_neg (by omega), hfraction, Nat.add_zero]
  have hscale : 0 < Nat.pow 2 (exponent bits - 2).toNat := Nat.pow_pos (by decide)
  have hwide : 4 * significand bits +
      10 ^ 16 * (4 * significand bits - if startsBinade bits then 1 else 2) <
        10 ^ 16 * (4 * significand bits + 2) := by
    simp only [binade] at *
    split_ifs with h
    · have := hstart h
      omega
    · omega
  refine ⟨Nat.pow_pos (by decide), ?_, ?_, ?_, ?_⟩
  · refine Nat.mul_pos ?_ hscale
    split_ifs <;> omega
  · refine Nat.mul_lt_mul_of_pos_right ?_ hscale
    split_ifs <;> omega
  · exact Nat.mul_lt_mul_of_pos_right (by omega) hscale
  · have := Nat.mul_lt_mul_of_pos_right hwide hscale
    rw [Nat.add_mul, Nat.mul_assoc (10 ^ 16), Nat.mul_assoc (10 ^ 16)] at this
    exact this

/-- The interval of a double is what rounds to it. -/
theorem holds_ofDouble_iff (hlt : rank bits < infinity) (x : ℚ) :
    (Interval.ofDouble bits).Holds x ↔ Nearest x (rank bits) := by
  rw [nearest_iff hpos hlt, Interval.Holds, closed_ofDouble, lower_ofDouble hpos, upper_ofDouble]
  simp only [decide_eq_true_eq]

end

/-! ### The text of a double -/

theorem exponentField_ne_iff (bits : UInt64) :
    exponentField bits ≠ 2047 ↔ rank bits < infinity := by
  have hlt : rank bits < signWeight := Nat.mod_lt _ (by decide)
  rw [exponentField_eq]
  simp only [infinity, binade, signWeight] at *
  omega

/-- The text spells out a decimal that rounds to the double, and has no more digits than any other
such decimal. -/
theorem magnitudeText_spells {bits : UInt64} (hlt : rank bits < infinity) :
    ∃ c place whole fraction, (magnitudeText bits).toList = joined whole fraction ∧
      Spells c place whole fraction ∧ Nearest (c * 10 ^ place) (rank bits) ∧
      ∀ (k other : ℕ) (place : ℤ), other < 10 ^ k → Nearest (other * 10 ^ place) (rank bits) →
        (strip (natDigits c)).length ≤ k := by
  rcases Nat.eq_zero_or_pos (rank bits) with hzero | hpos
  · have hsignificand : significand bits = 0 := by
      rw [significand_eq, hzero]
      rfl
    refine ⟨0, 0, ['0'], [], ?_, spells_zero, ?_, fun k _ _ _ _ => Nat.zero_le k⟩
    · rw [magnitudeText, if_pos hsignificand]
      rfl
    · rw [hzero, Nat.cast_zero, zero_mul]
      exact nearest_zero
  · have hsound := sound_ofDouble hpos
    have hholds := hsound.holds_shortest
    obtain ⟨digits, hdigits, hle, hleast⟩ := hsound.exists_shortest_le
    have hcoefficient : 0 < (shortest (Interval.ofDouble bits)).1 := by
      have hprod := hsound.pos_of_holds hholds
      exact Nat.cast_pos.mp (pos_of_mul_pos_left hprod (by positivity))
    obtain ⟨whole, fraction, htext, hspells⟩ := spells_positional hcoefficient
      (shortest (Interval.ofDouble bits)).2
    refine ⟨_, _, whole, fraction, ?_, hspells, (holds_ofDouble_iff hpos hlt _).mp hholds, ?_⟩
    · rw [magnitudeText, if_neg (significand_pos hpos).ne', String.toList_ofList, htext]
    · intro k other place hother hnearest
      exact (length_strip_natDigits_le hdigits hle).trans
        (hleast k other place hother ((holds_ofDouble_iff hpos hlt _).mpr hnearest))

theorem exists_finiteText?_eq {bits : UInt64} (h : exponentField bits ≠ 2047) :
    ∃ text, finiteText? bits = some text ∧
      text.toList = signed (isNegative bits) (magnitudeText bits).toList := by
  have hfinite : isFinite bits = true := decide_eq_true h
  refine ⟨_, if_pos hfinite, ?_⟩
  rw [signed]
  split
  · rw [String.toList_append]
    rfl
  · rfl

theorem toList_fractional {negative : Bool} {c : ℕ} {place : ℤ} {whole fraction : List Char}
    {text : String} (hspells : Spells c place whole fraction)
    (htext : text.toList = signed negative (joined whole fraction)) :
    (Go.fractional text).toList = signed negative (whole ++ '.' :: orZero fraction) := by
  have hpoint : '.' ∈ text.toList ↔ fraction.isEmpty = false := by
    rw [htext, ← hspells.point_mem_joined_iff]
    cases negative <;> simp [signed]
  rw [Go.fractional, orZero]
  cases hempty : fraction.isEmpty with
  | true =>
    rw [if_neg (by simp [hpoint, hempty]), String.toList_append, htext, joined, if_pos hempty,
      signed_append]
    rfl
  | false =>
    rw [if_pos (hpoint.mpr hempty), htext, joined, if_neg (by simp [hempty])]
    rfl

/-- Every double but the infinities and the NaNs has a text without an exponent, which has the sign
of the double and reads back as that double and no other. No decimal with fewer digits reads back
so. With a point that is always there, the text denotes the same. -/
theorem finite_literal_exact_shortest (bits : UInt64) :
    if exponentField bits = 2047 then
      finiteText? bits = none
    else
      ∃ text, finiteText? bits = some text ∧
        text.toList ∈ numeralForm.matches' ∧
        hasSign text.toList = isNegative bits ∧
        (∀ other, RoundsTo (hasSign text.toList) (magnitudeOf text.toList) other ↔ other = bits) ∧
        (∀ (negative : Bool) (k c : ℕ) (place : ℤ), c < 10 ^ k →
          RoundsTo negative (c * 10 ^ place) bits → significantDigits text.toList ≤ k) ∧
        ∀ imports, ∃ literal, Go.floatText bits imports = .ok literal imports ∧
          literal.toList ∈ fractionalForm.matches' ∧
          hasSign literal.toList = hasSign text.toList ∧
          magnitudeOf literal.toList = magnitudeOf text.toList := by
  split_ifs with hfield
  · simp [finiteText?, isFinite, hfield]
  · have hlt := (exponentField_ne_iff bits).mp hfield
    obtain ⟨c, place, whole, fraction, hmagnitude, hspells, hnearest, hleast⟩ :=
      magnitudeText_spells hlt
    obtain ⟨text, hsome, htext⟩ := exists_finiteText?_eq hfield
    rw [hmagnitude] at htext
    have hsign : hasSign text.toList = isNegative bits := by
      rw [htext, hasSign_signed _ hspells.not_mem_joined]
    have hvalue : magnitudeOf text.toList = c * 10 ^ place := by
      rw [htext, magnitudeOf_signed, magnitudeOf_joined hspells.whole_isDigit
        hspells.fraction_isDigit, hspells.value]
    refine ⟨text, hsome, ?_, hsign, fun other => ?_, ?_, fun imports =>
      ⟨Go.fractional text, ?_, ?_, ?_, ?_⟩⟩
    · rw [htext]
      exact hspells.mem_numeralForm _
    · rw [hsign, hvalue, roundsTo_iff]
      constructor
      · rintro ⟨hother, hnearest'⟩
        exact eq_of_rank_eq hother (hnearest'.unique hnearest)
      · rintro rfl
        exact ⟨rfl, hnearest⟩
    · intro negative k other place' hother hrounds
      rw [htext, significantDigits_signed, significantDigits_joined hspells.whole_isDigit
        hspells.fraction_isDigit, hspells.strip_eq]
      exact hleast k other place' hother (roundsTo_iff.mp hrounds).2
    · rw [Go.floatText, hsome]
      rfl
    · rw [toList_fractional hspells htext]
      exact hspells.mem_fractionalForm _
    · rw [hsign, toList_fractional hspells htext, hasSign_signed]
      exact not_mem_pointed hspells.whole_isDigit hspells.orZero_isDigit
    · rw [hvalue, toList_fractional hspells htext, magnitudeOf_signed, hspells.magnitudeOf_orZero]

/-- Ten to the power 23 lies halfway between two doubles, and with its single digit it is the text
of the even one. -/
theorem finite_literal_exact_shortest_halfway :
    finiteText? 0x44B52D02C7E14AF6 = some "100000000000000000000000" ∧
      (∀ other, RoundsTo false (10 ^ 23) other ↔ other = 0x44B52D02C7E14AF6) ∧
      |10 ^ 23 - magnitude 0x44B52D02C7E14AF6| = |10 ^ 23 - magnitude 0x44B52D02C7E14AF7| ∧
      ∀ imports, Go.floatText 0x44B52D02C7E14AF6 imports =
        .ok "100000000000000000000000.0" imports := by
  have htext : finiteText? 0x44B52D02C7E14AF6 = some "100000000000000000000000" := by
    decide +kernel
  have hexact := finite_literal_exact_shortest 0x44B52D02C7E14AF6
  rw [if_neg (by decide)] at hexact
  obtain ⟨text, hsome, -, -, hrounds, -, -⟩ := hexact
  obtain rfl := Option.some.inj (hsome.symm.trans htext)
  have hvalue : magnitudeOf "100000000000000000000000".toList = 10 ^ 23 := by decide +kernel
  have hsign : hasSign "100000000000000000000000".toList = false := by decide
  rw [hvalue, hsign] at hrounds
  refine ⟨htext, hrounds, ?_, fun imports => ?_⟩
  · decide +kernel
  · rw [Go.floatText, htext]
    rfl

end Polyglot.Decimal
