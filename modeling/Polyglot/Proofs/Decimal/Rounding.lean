import Mathlib.Algebra.Order.Field.Power
import Mathlib.Order.Monotone.Basic
import Mathlib.Tactic.FieldSimp
import Mathlib.Tactic.Linarith
import Mathlib.Tactic.Positivity
import Mathlib.Tactic.Ring
import Polyglot.Decimal.Double

/-! # Rounding to doubles

A rational rounds to the nearest double, and from halfway to the one whose last bit is zero. Without
the sign, the bits of a double are its rank among all magnitudes in increasing order, so that the
doubles next to it have the neighbouring ranks. What rounds to a double is therefore bounded by the
midpoints to its neighbours.
-/

namespace Polyglot.Double

/-! ### Magnitudes -/

/-- The magnitude of a double: a fraction behind an implicit leading bit, or below all of these
without one. The infinities come out where the next larger double would be. -/
def magnitude (bits : UInt64) : ℚ :=
  if exponentField bits = 0 then fraction bits / 2 ^ 52 * 2 ^ (-1022 : ℤ)
  else (1 + fraction bits / 2 ^ 52) * 2 ^ ((exponentField bits : ℤ) - 1023)

/-- The magnitude rounds to the bits, given its sign: no double is nearer, also not an infinity, and
if another one of that sign is as near, the last bit is zero. -/
structure RoundsTo (negative : Bool) (x : ℚ) (bits : UInt64) : Prop where
  sign : isNegative bits = negative
  number : isNaN bits = false
  nearest : ∀ other, isNaN other = false → |x - magnitude bits| ≤ |x - magnitude other|
  even : ∀ other, isNaN other = false → isNegative other = negative → other ≠ bits →
    |x - magnitude bits| = |x - magnitude other| → bits.toNat % 2 = 0

/-! ### Ranks -/

/-- The bits without the sign. -/
def rank (bits : UInt64) : ℕ :=
  bits.toNat % signWeight

/-- The rank of the infinities. -/
def infinity : ℕ := 2047 * binade

/-- The fraction with its leading bit, by rank. -/
def significandAt (n : ℕ) : ℕ :=
  if n / binade = 0 then n % binade else binade + n % binade

/-- The distance to the next larger magnitude, by rank. -/
def stepAt (n : ℕ) : ℚ :=
  2 ^ ((max (n / binade) 1 : ℕ) - 1075 : ℤ)

/-- The magnitude, by rank. -/
def magnitudeAt (n : ℕ) : ℚ :=
  significandAt n * stepAt n

section
variable (bits : UInt64)

theorem toNat_lt : bits.toNat < 2 * signWeight :=
  bits.toNat_lt

theorem exponentField_eq : exponentField bits = rank bits / binade := by
  have hlt := toNat_lt bits
  simp only [exponentField, rank, binade, signWeight] at *
  omega

theorem fraction_eq : fraction bits = rank bits % binade := by
  simp only [fraction, rank, binade, signWeight]
  omega

theorem significand_eq : significand bits = significandAt (rank bits) := by
  rw [significand, significandAt, exponentField_eq, fraction_eq]

theorem exponent_eq : (2 : ℚ) ^ exponent bits = stepAt (rank bits) := by
  rw [exponent, stepAt, exponentField_eq]

theorem magnitude_eq : magnitude bits = magnitudeAt (rank bits) := by
  have hbinade : (2 : ℚ) ^ (52 : ℤ) = binade := by
    norm_num [binade]
  rw [magnitude, magnitudeAt, significandAt, stepAt, exponentField_eq, fraction_eq,
    ← zpow_natCast 2 52, Nat.cast_ofNat, hbinade]
  have hpos : (binade : ℚ) ≠ 0 := by norm_num [binade]
  by_cases h : rank bits / binade = 0
  · have hexponent : ((max (rank bits / binade) 1 : ℕ) : ℤ) - 1075 = -1022 - 52 := by omega
    rw [if_pos h, if_pos h, hexponent, zpow_sub₀ two_ne_zero, hbinade]
    ring
  · have hfield : 1 ≤ rank bits / binade := Nat.one_le_iff_ne_zero.mpr h
    have hexponent : ((max (rank bits / binade) 1 : ℕ) : ℤ) - 1075 =
        ((rank bits / binade : ℕ) - 1023) - 52 := by
      rw [max_eq_left hfield]
      omega
    rw [if_neg h, if_neg h, hexponent, zpow_sub₀ two_ne_zero _ 52, hbinade, Nat.cast_add]
    field_simp

theorem isNaN_eq_false_iff : isNaN bits = false ↔ rank bits ≤ infinity := by
  rw [isNaN, exponentField_eq, fraction_eq, Bool.and_eq_false_iff, decide_eq_false_iff_not,
    decide_eq_false_iff_not]
  have hlt : rank bits < 2048 * binade := Nat.mod_lt _ (by decide)
  simp only [infinity, binade] at *
  omega

theorem mod_two_eq : bits.toNat % 2 = rank bits % 2 := by
  simp only [rank, signWeight]
  omega

end

theorem significandAt_mod_two (n : ℕ) : significandAt n % 2 = n % 2 := by
  rw [significandAt]
  split
  · simp only [binade]
    omega
  · simp only [binade]
    omega

theorem significandAt_pos {n : ℕ} (h : 0 < n) : 0 < significandAt n := by
  rw [significandAt]
  split
  · simp only [binade] at *
    omega
  · simp only [binade]
    omega

theorem significandAt_lt (n : ℕ) : significandAt n < 2 * binade := by
  have hlt : n % binade < binade := Nat.mod_lt n (by decide)
  rw [significandAt]
  split
  · omega
  · omega

/-- Sign and rank determine the bits. -/
theorem eq_of_rank_eq {bits other : UInt64} (hsign : isNegative bits = isNegative other)
    (h : rank bits = rank other) : bits = other := by
  have hlt := toNat_lt bits
  have hlt' := toNat_lt other
  rw [isNegative, isNegative, decide_eq_decide] at hsign
  apply UInt64.toNat_inj.mp
  simp only [rank, signWeight] at *
  omega

/-- There are bits of either sign and any rank. -/
theorem exists_of_rank (negative : Bool) {n : ℕ} (h : n ≤ infinity) :
    ∃ bits, isNegative bits = negative ∧ rank bits = n := by
  have hlt : n < signWeight := lt_of_le_of_lt h (by decide)
  have hsize : UInt64.size = signWeight + signWeight := rfl
  cases negative with
  | false =>
    have hnat : (UInt64.ofNat n).toNat = n := UInt64.toNat_ofNat_of_lt (by omega)
    refine ⟨UInt64.ofNat n, ?_, ?_⟩
    · rw [isNegative, hnat, decide_eq_false_iff_not]
      omega
    · rw [rank, hnat, Nat.mod_eq_of_lt hlt]
  | true =>
    have hnat : (UInt64.ofNat (signWeight + n)).toNat = signWeight + n :=
      UInt64.toNat_ofNat_of_lt (by omega)
    refine ⟨UInt64.ofNat (signWeight + n), ?_, ?_⟩
    · rw [isNegative, hnat, decide_eq_true_eq]
      omega
    · rw [rank, hnat, Nat.add_mod_left, Nat.mod_eq_of_lt hlt]

/-! ### Neighbours -/

theorem stepAt_pos (n : ℕ) : 0 < stepAt n := by
  unfold stepAt
  positivity

/-- Steps are as long as the exponent says. -/
theorem stepAt_congr {m n : ℕ} (h : max (m / binade) 1 = max (n / binade) 1) :
    stepAt m = stepAt n := by
  rw [stepAt, stepAt, h]

/-- From one binade to the next, steps double. -/
theorem stepAt_double {m n : ℕ} (hm : 1 ≤ m / binade) (h : n / binade = m / binade + 1) :
    stepAt n = 2 * stepAt m := by
  have hexponent : ((max (n / binade) 1 : ℕ) - 1075 : ℤ) =
      ((max (m / binade) 1 : ℕ) - 1075) + 1 := by
    rw [h, max_eq_left hm, max_eq_left (by omega)]
    omega
  rw [stepAt, stepAt, hexponent, zpow_add_one₀ two_ne_zero, mul_comm]

/-- The next magnitude is one step away, also where the exponent changes. -/
theorem magnitudeAt_succ (n : ℕ) : magnitudeAt (n + 1) = magnitudeAt n + stepAt n := by
  by_cases hlast : n % binade + 1 = binade
  · have hdiv : (n + 1) / binade = n / binade + 1 := by
      simp only [binade] at *
      omega
    have hmod : (n + 1) % binade = 0 := by
      simp only [binade] at *
      omega
    have hfraction : ((n % binade : ℕ) : ℚ) = binade - 1 := by
      rw [eq_sub_iff_add_eq]
      exact_mod_cast hlast
    by_cases hfield : n / binade = 0
    · have hstep : stepAt (n + 1) = stepAt n := stepAt_congr (by rw [hdiv, hfield]; rfl)
      rw [magnitudeAt, magnitudeAt, hstep, significandAt, significandAt, hdiv, hmod, if_pos hfield,
        if_neg (Nat.succ_ne_zero _), hfraction, Nat.add_zero]
      ring
    · have hstep : stepAt (n + 1) = 2 * stepAt n :=
        stepAt_double (Nat.one_le_iff_ne_zero.mpr hfield) hdiv
      rw [magnitudeAt, magnitudeAt, hstep, significandAt, significandAt, hdiv, hmod, if_neg hfield,
        if_neg (Nat.succ_ne_zero _), Nat.add_zero, Nat.cast_add, hfraction]
      ring
  · have hdiv : (n + 1) / binade = n / binade := by
      simp only [binade] at *
      omega
    have hmod : (n + 1) % binade = n % binade + 1 := by
      simp only [binade] at *
      omega
    have hstep : stepAt (n + 1) = stepAt n := stepAt_congr (by rw [hdiv])
    rw [magnitudeAt, magnitudeAt, hstep, significandAt, significandAt, hdiv, hmod]
    split
    · push_cast
      ring
    · push_cast
      ring

theorem strictMono_magnitudeAt : StrictMono magnitudeAt := by
  apply strictMono_nat_of_lt_succ
  intro n
  rw [magnitudeAt_succ]
  exact lt_add_of_pos_right _ (stepAt_pos n)

theorem magnitudeAt_pred {n : ℕ} (h : 0 < n) :
    magnitudeAt (n - 1) = magnitudeAt n - stepAt (n - 1) := by
  have hsucc := magnitudeAt_succ (n - 1)
  rw [Nat.sub_add_cancel h] at hsucc
  linarith

/-- Below the start of a binade steps are half as long. -/
theorem stepAt_pred {n : ℕ} (h : 0 < n) : stepAt (n - 1) =
    if n % binade = 0 ∧ 1 < n / binade then stepAt n / 2 else stepAt n := by
  split_ifs with hstart
  · have hdiv : n / binade = (n - 1) / binade + 1 := by
      simp only [binade] at *
      omega
    rw [stepAt_double (by omega) hdiv]
    ring
  · apply stepAt_congr
    simp only [binade] at *
    omega

/-! ### Between the midpoints -/

section
variable {a b x : ℚ}

/-- The larger of two points is at most as far away exactly beyond the midpoint. -/
theorem abs_sub_le_abs_sub_iff (h : b < a) : |x - a| ≤ |x - b| ↔ (b + a) / 2 ≤ x := by
  rw [← sq_le_sq]
  constructor
  · intro hle
    nlinarith
  · intro hle
    nlinarith

theorem abs_sub_le_abs_sub_iff' (h : a < b) : |x - a| ≤ |x - b| ↔ x ≤ (a + b) / 2 := by
  rw [← sq_le_sq]
  constructor
  · intro hle
    nlinarith
  · intro hle
    nlinarith

end

/-- The rational is nearest to the magnitude with the given rank, which is even if another one is
equally near. -/
structure Nearest (x : ℚ) (n : ℕ) : Prop where
  le : n ≤ infinity
  nearest : ∀ m ≤ infinity, |x - magnitudeAt n| ≤ |x - magnitudeAt m|
  even : ∀ m ≤ infinity, m ≠ n → |x - magnitudeAt n| = |x - magnitudeAt m| → n % 2 = 0

theorem roundsTo_iff {negative : Bool} {x : ℚ} {bits : UInt64} :
    RoundsTo negative x bits ↔ isNegative bits = negative ∧ Nearest x (rank bits) := by
  constructor
  · rintro ⟨hsign, hnumber, hnearest, heven⟩
    refine ⟨hsign, (isNaN_eq_false_iff bits).mp hnumber, ?_, ?_⟩
    · intro m hm
      obtain ⟨other, -, rfl⟩ := exists_of_rank negative hm
      rw [← magnitude_eq, ← magnitude_eq]
      exact hnearest other ((isNaN_eq_false_iff other).mpr hm)
    · intro m hm hne htie
      obtain ⟨other, hother, rfl⟩ := exists_of_rank negative hm
      rw [← magnitude_eq, ← magnitude_eq] at htie
      rw [← mod_two_eq]
      apply heven other ((isNaN_eq_false_iff other).mpr hm) hother _ htie
      rintro rfl
      exact hne rfl
  · rintro ⟨hsign, hle, hnearest, heven⟩
    refine ⟨hsign, (isNaN_eq_false_iff bits).mpr hle, ?_, ?_⟩
    · intro other hother
      rw [magnitude_eq, magnitude_eq]
      exact hnearest (rank other) ((isNaN_eq_false_iff other).mp hother)
    · intro other hother hsame hne htie
      rw [magnitude_eq, magnitude_eq] at htie
      rw [mod_two_eq]
      apply heven (rank other) ((isNaN_eq_false_iff other).mp hother) _ htie
      intro hrank
      exact hne (eq_of_rank_eq (hsame.trans hsign.symm) hrank)

namespace Nearest

variable {x : ℚ} {m n : ℕ}

/-- Two magnitudes that are both nearest have different last bits. -/
theorem unique (hm : Nearest x m) (hn : Nearest x n) : m = n := by
  by_contra hne
  wlog hlt : m < n generalizing m n
  · exact this hn hm (Ne.symm hne) (by omega)
  have htie : |x - magnitudeAt m| = |x - magnitudeAt n| :=
    le_antisymm (hm.nearest n hn.le) (hn.nearest m hm.le)
  have heven := hm.even n hn.le (Ne.symm hne) htie
  have heven' := hn.even m hm.le hne htie.symm
  -- Since both are even, there is one between them, which is nearer.
  have hbetween : m + 1 < n := by omega
  have hlow := strictMono_magnitudeAt (Nat.lt_succ_self m)
  have hhigh := strictMono_magnitudeAt hbetween
  have hmid : x ≤ (magnitudeAt m + magnitudeAt (m + 1)) / 2 :=
    (abs_sub_le_abs_sub_iff' hlow).mp (hm.nearest (m + 1) (by have := hn.le; omega))
  have hmid' : (magnitudeAt (m + 1) + magnitudeAt n) / 2 ≤ x :=
    (abs_sub_le_abs_sub_iff hhigh).mp (hn.nearest (m + 1) (by have := hn.le; omega))
  simp only [Nat.succ_eq_add_one] at hlow
  linarith

/-- What rounds to a magnitude lies within half a step on either side. -/
theorem bounds (h : Nearest x n) (hpos : 0 < n) (hlt : n < infinity) :
    magnitudeAt n - stepAt (n - 1) / 2 ≤ x ∧ x ≤ magnitudeAt n + stepAt n / 2 := by
  have hpred := magnitudeAt_pred hpos
  have hsucc := magnitudeAt_succ n
  have hlow := (abs_sub_le_abs_sub_iff (strictMono_magnitudeAt (Nat.sub_one_lt_of_lt hpos))).mp
    (h.nearest (n - 1) (by omega))
  have hhigh := (abs_sub_le_abs_sub_iff' (strictMono_magnitudeAt n.lt_add_one)).mp
    (h.nearest (n + 1) hlt)
  constructor
  · linarith
  · linarith

/-- At the end of a half step the neighbour is as near. -/
theorem even_of_eq (h : Nearest x n) (hpos : 0 < n) (hlt : n < infinity)
    (hx : x = magnitudeAt n - stepAt (n - 1) / 2 ∨ x = magnitudeAt n + stepAt n / 2) :
    n % 2 = 0 := by
  rcases hx with rfl | rfl
  · apply h.even (n - 1) (by omega) (by omega)
    have hstep := stepAt_pos (n - 1)
    rw [magnitudeAt_pred hpos, abs_of_nonpos (by linarith), abs_of_nonneg (by linarith)]
    ring
  · apply h.even (n + 1) hlt (by omega)
    have hstep := stepAt_pos n
    rw [magnitudeAt_succ, abs_of_nonneg (by linarith), abs_of_nonpos (by linarith)]
    ring

/-- Half a step suffices against all other magnitudes, since these are at least as far away as the
two neighbours. -/
theorem of_bounds (hpos : 0 < n) (hlt : n < infinity)
    (hlow : magnitudeAt n - stepAt (n - 1) / 2 ≤ x) (hhigh : x ≤ magnitudeAt n + stepAt n / 2)
    (heven : x = magnitudeAt n - stepAt (n - 1) / 2 ∨ x = magnitudeAt n + stepAt n / 2 →
      n % 2 = 0) : Nearest x n := by
  have hpred := magnitudeAt_pred hpos
  have hsucc := magnitudeAt_succ n
  have hbelow : ∀ m < n, magnitudeAt m ≤ magnitudeAt (n - 1) := fun m hm =>
    strictMono_magnitudeAt.monotone (Nat.le_sub_one_of_lt hm)
  have habove : ∀ m, n < m → magnitudeAt (n + 1) ≤ magnitudeAt m := fun m hm =>
    strictMono_magnitudeAt.monotone hm
  refine ⟨hlt.le, fun m _ => ?_, fun m _ hne htie => heven ?_⟩
  · rcases lt_trichotomy m n with hm | rfl | hm
    · rw [abs_sub_le_abs_sub_iff (strictMono_magnitudeAt hm)]
      linarith [hbelow m hm]
    · exact le_rfl
    · rw [abs_sub_le_abs_sub_iff' (strictMono_magnitudeAt hm)]
      linarith [habove m hm]
  · rcases lt_or_gt_of_ne hne with hm | hm
    · left
      have hmid := (abs_sub_le_abs_sub_iff' (strictMono_magnitudeAt hm)).mp htie.ge
      linarith [hbelow m hm]
    · right
      have hmid := (abs_sub_le_abs_sub_iff (strictMono_magnitudeAt hm)).mp htie.ge
      linarith [habove m hm]

end Nearest

/-- Zero rounds to the least magnitude. -/
theorem nearest_zero : Nearest 0 0 := by
  have hzero : magnitudeAt 0 = 0 := by simp [magnitudeAt, significandAt]
  refine ⟨Nat.zero_le _, fun m _ => ?_, fun _ _ _ _ => rfl⟩
  rw [hzero, sub_zero, abs_zero]
  exact abs_nonneg _

/-- What rounds to a positive finite magnitude: all within half a step on either side, where the
ends count if the rank is even. -/
theorem nearest_iff {x : ℚ} {n : ℕ} (hpos : 0 < n) (hlt : n < infinity) :
    Nearest x n ↔
      if n % 2 = 0 then
        magnitudeAt n - stepAt (n - 1) / 2 ≤ x ∧ x ≤ magnitudeAt n + stepAt n / 2
      else
        magnitudeAt n - stepAt (n - 1) / 2 < x ∧ x < magnitudeAt n + stepAt n / 2 := by
  split_ifs with heven
  · exact ⟨fun h => h.bounds hpos hlt, fun h => .of_bounds hpos hlt h.1 h.2 fun _ => heven⟩
  · constructor
    · intro h
      obtain ⟨hlow, hhigh⟩ := h.bounds hpos hlt
      refine ⟨lt_of_le_of_ne hlow ?_, lt_of_le_of_ne hhigh ?_⟩
      · intro heq
        exact heven (h.even_of_eq hpos hlt (.inl heq.symm))
      · intro heq
        exact heven (h.even_of_eq hpos hlt (.inr heq))
    · rintro ⟨hlow, hhigh⟩
      refine .of_bounds hpos hlt hlow.le hhigh.le ?_
      rintro (heq | heq)
      · exact absurd heq hlow.ne'
      · exact absurd heq hhigh.ne

end Polyglot.Double
