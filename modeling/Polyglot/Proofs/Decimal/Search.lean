import Mathlib.Algebra.Order.Field.Power
import Mathlib.Tactic.FieldSimp
import Mathlib.Tactic.Linarith
import Mathlib.Tactic.Positivity
import Mathlib.Tactic.Ring
import Polyglot.Decimal.Shortest

/-! # Searching for the shortest decimal

The search walks through the grids of the multiples of a power of ten, from the place of the leading
digit on. On each grid it looks only at the two neighbours of the middle: if a point of the grid
lies in the interval, so does one of these. Hence the first grid with a hit decides how many digits
are needed, and there is one among the first seventeen, since the interval is wide enough.
-/

namespace Polyglot.Decimal

/-- A power is the quotient of two natural numbers, one of which is one. -/
theorem zpow_eq_div {b : ℕ} (hb : 0 < b) (k : ℤ) :
    (b : ℚ) ^ k = (Nat.pow b k.toNat : ℕ) / (Nat.pow b (-k).toNat : ℕ) := by
  have hne : (b : ℚ) ≠ 0 := Nat.cast_ne_zero.mpr hb.ne'
  rcases le_total 0 k with h | h
  · obtain ⟨n, rfl⟩ := Int.eq_ofNat_of_zero_le h
    simp
  · obtain ⟨n, hn⟩ := Int.eq_ofNat_of_zero_le (Int.neg_nonneg_of_nonpos h)
    obtain rfl : k = -n := by omega
    simp

theorem length_natDigits_pos (n : ℕ) : 0 < (natDigits n).length :=
  List.length_pos_of_ne_nil Nat.toDigits_ne_nil

theorem lt_pow_length_natDigits (n : ℕ) : n < 10 ^ (natDigits n).length :=
  (Nat.length_toDigits_le_iff (by decide) (length_natDigits_pos n)).mp le_rfl

theorem pow_length_natDigits_le {n : ℕ} (h : 0 < n) : 10 ^ ((natDigits n).length - 1) ≤ n := by
  by_contra hlt
  have hlength := length_natDigits_pos n
  rcases Nat.eq_zero_or_pos ((natDigits n).length - 1) with hzero | hpos
  · rw [hzero] at hlt
    omega
  · have hle := (Nat.length_toDigits_le_iff (by decide) hpos).mpr (not_le.mp hlt)
    change (natDigits n).length ≤ _ at hle
    omega

namespace Interval

/-- The rational lies in the interval. -/
def Holds (interval : Interval) (x : ℚ) : Prop :=
  if interval.closed then
    interval.lower / interval.denominator ≤ x ∧ x ≤ interval.upper / interval.denominator
  else
    interval.lower / interval.denominator < x ∧ x < interval.upper / interval.denominator

/-- The rational in the middle. -/
def center (interval : Interval) : ℚ :=
  interval.middle / interval.denominator

/-- The interval is an interval of positive numbers around its middle, and not too short for its
place. -/
structure Sound (interval : Interval) : Prop where
  denominator_pos : 0 < interval.denominator
  lower_pos : 0 < interval.lower
  lower_lt : interval.lower < interval.middle
  lt_upper : interval.middle < interval.upper
  wide : interval.middle + 10 ^ 16 * interval.lower < 10 ^ 16 * interval.upper

section
variable {interval : Interval} {x y z : ℚ}

theorem holds_of_lt (hlow : interval.lower / interval.denominator < x)
    (hhigh : x < interval.upper / interval.denominator) : interval.Holds x := by
  rw [Holds]
  split
  · exact ⟨hlow.le, hhigh.le⟩
  · exact ⟨hlow, hhigh⟩

/-- An interval holds everything between what it holds. -/
theorem Holds.between (hx : interval.Holds x) (hz : interval.Holds z) (hxy : x ≤ y) (hyz : y ≤ z) :
    interval.Holds y := by
  rw [Holds] at *
  split_ifs at *
  · exact ⟨hx.1.trans hxy, hyz.trans hz.2⟩
  · exact ⟨hx.1.trans_le hxy, hyz.trans_lt hz.2⟩

theorem Holds.lower_le (h : interval.Holds x) : interval.lower / interval.denominator ≤ x := by
  rw [Holds] at h
  split_ifs at h
  · exact h.1
  · exact h.1.le

namespace Sound

variable (hsound : interval.Sound)
include hsound

theorem denominator_pos_rat : (0 : ℚ) < interval.denominator :=
  Nat.cast_pos.mpr hsound.denominator_pos

theorem lower_lt_center : (interval.lower : ℚ) / interval.denominator < interval.center :=
  (div_lt_div_iff_of_pos_right hsound.denominator_pos_rat).mpr (Nat.cast_lt.mpr hsound.lower_lt)

theorem center_lt_upper : interval.center < (interval.upper : ℚ) / interval.denominator :=
  (div_lt_div_iff_of_pos_right hsound.denominator_pos_rat).mpr (Nat.cast_lt.mpr hsound.lt_upper)

theorem holds_center : interval.Holds interval.center :=
  holds_of_lt hsound.lower_lt_center hsound.center_lt_upper

theorem pos_of_holds (h : interval.Holds x) : 0 < x :=
  lt_of_lt_of_le (div_pos (Nat.cast_pos.mpr hsound.lower_pos) hsound.denominator_pos_rat)
    h.lower_le

end Sound

end

/-! ### Grids -/

section
variable {interval : Interval} (hden : 0 < interval.denominator)

theorem shift_pos (place : ℤ) : 0 < shift place :=
  Nat.pow_pos (by decide)

theorem div_denominator_eq (n : ℕ) (place : ℤ) : (n : ℚ) / interval.denominator =
    (n * shift place : ℕ) / (interval.denominator * shift place : ℕ) := by
  have hshift : (shift place : ℚ) ≠ 0 := Nat.cast_ne_zero.mpr (shift_pos place).ne'
  push_cast
  rw [mul_div_mul_right _ _ hshift]

include hden

theorem step_pos (place : ℤ) : 0 < interval.step place :=
  Nat.mul_pos hden (Nat.pow_pos (by decide))

/-- A point of the grid and a fraction over the denominator of the interval, over a common one. -/
theorem mul_zpow_eq (c : ℕ) (place : ℤ) : (c : ℚ) * 10 ^ place =
    (c * interval.step place : ℕ) / (interval.denominator * shift place : ℕ) := by
  have hpower := zpow_eq_div (b := 10) (by decide) place
  have hshift : (shift place : ℚ) ≠ 0 := Nat.cast_ne_zero.mpr (shift_pos place).ne'
  have hne : (interval.denominator : ℚ) ≠ 0 := Nat.cast_ne_zero.mpr hden.ne'
  rw [Nat.cast_ofNat] at hpower
  rw [hpower, step, ← shift]
  push_cast
  field_simp

theorem div_le_mul_zpow_iff (n c : ℕ) (place : ℤ) :
    (n : ℚ) / interval.denominator ≤ c * 10 ^ place ↔
      n * shift place ≤ c * interval.step place := by
  have hpos : (0 : ℚ) < (interval.denominator * shift place : ℕ) :=
    Nat.cast_pos.mpr (Nat.mul_pos hden (shift_pos place))
  rw [mul_zpow_eq hden, div_denominator_eq n place, div_le_div_iff_of_pos_right hpos,
    Nat.cast_le]

theorem mul_zpow_le_div_iff (n c : ℕ) (place : ℤ) :
    c * 10 ^ place ≤ (n : ℚ) / interval.denominator ↔
      c * interval.step place ≤ n * shift place := by
  have hpos : (0 : ℚ) < (interval.denominator * shift place : ℕ) :=
    Nat.cast_pos.mpr (Nat.mul_pos hden (shift_pos place))
  rw [mul_zpow_eq hden, div_denominator_eq n place, div_le_div_iff_of_pos_right hpos,
    Nat.cast_le]

theorem contains_iff (c : ℕ) (place : ℤ) :
    interval.contains c place = true ↔ interval.Holds (c * 10 ^ place) := by
  rw [contains, Holds]
  split
  · rw [Bool.and_eq_true, decide_eq_true_eq, decide_eq_true_eq, div_le_mul_zpow_iff hden,
      mul_zpow_le_div_iff hden]
  · rw [Bool.and_eq_true, decide_eq_true_eq, decide_eq_true_eq, ← not_le (a := (c : ℚ) * _),
      ← not_le (b := (c : ℚ) * _), div_le_mul_zpow_iff hden, mul_zpow_le_div_iff hden, not_le,
      not_le]

theorem floor_le (place : ℤ) : interval.floor place * 10 ^ place ≤ interval.center := by
  rw [center, mul_zpow_le_div_iff hden]
  exact Nat.div_mul_le_self _ _

theorem lt_floor_succ (place : ℤ) :
    interval.center < (interval.floor place + 1 : ℕ) * 10 ^ place := by
  rw [center, ← not_le, mul_zpow_le_div_iff hden, not_le]
  exact (Nat.div_lt_iff_lt_mul (step_pos hden place)).mp (Nat.lt_succ_self _)

/-! ### One grid -/

/-- What the search finds on a grid is next to the middle. -/
theorem of_nearest?_eq_some {place : ℤ} {c : ℕ} (h : interval.nearest? place = some c) :
    interval.Holds (c * 10 ^ place) ∧ c ≤ interval.floor place + 1 := by
  simp only [nearest?] at h
  split_ifs at h with habove hbelow hbelow
  · obtain rfl := Option.some.inj h
    exact ⟨(contains_iff hden _ _).mp (Bool.and_eq_true_iff.mp hbelow).1, Nat.le_succ _⟩
  · obtain rfl := Option.some.inj h
    exact ⟨(contains_iff hden _ _).mp habove, le_rfl⟩
  · obtain rfl := Option.some.inj h
    exact ⟨(contains_iff hden _ _).mp hbelow, Nat.le_succ _⟩

/-- A grid without a hit next to the middle has none. -/
theorem not_holds_of_nearest?_eq_none (hcenter : interval.Holds interval.center) {place : ℤ}
    (h : interval.nearest? place = none) (c : ℕ) : ¬ interval.Holds (c * 10 ^ place) := by
  have hpos : (0 : ℚ) < 10 ^ place := by positivity
  simp only [nearest?] at h
  split_ifs at h with habove _ hbelow
  rw [contains_iff hden] at habove hbelow
  intro hholds
  rcases Nat.lt_or_ge (interval.floor place) c with hc | hc
  · apply habove
    apply hcenter.between hholds (lt_floor_succ hden place).le
    exact mul_le_mul_of_nonneg_right (Nat.cast_le.mpr hc) hpos.le
  · apply hbelow
    apply hholds.between hcenter _ (floor_le hden place)
    exact mul_le_mul_of_nonneg_right (Nat.cast_le.mpr hc) hpos.le

end

section
variable {interval : Interval}

/-- A grid that is finer than the interval is wide has a hit. -/
theorem nearest?_ne_none (hsound : interval.Sound) {place : ℤ}
    (hfine : (10 : ℚ) ^ place < (interval.upper - interval.lower) / interval.denominator) :
    interval.nearest? place ≠ none := by
  intro hnone
  have hden := hsound.denominator_pos
  have hfloor := floor_le hden place
  have hceil := lt_floor_succ hden place
  have hmiss := not_holds_of_nearest?_eq_none hden hsound.holds_center hnone
  rw [sub_div] at hfine
  rcases lt_or_ge (interval.lower / interval.denominator : ℚ) (interval.floor place * 10 ^ place)
    with hlower | hlower
  · exact hmiss _ (holds_of_lt hlower (hfloor.trans_lt hsound.center_lt_upper))
  · apply hmiss _ (holds_of_lt (hsound.lower_lt_center.trans hceil) _)
    push_cast
    linarith

/-! ### The leading digit -/

/-- The middle has its leading digit at the leading place. -/
theorem leadingPlace_bounds (hden : 0 < interval.denominator) (hmiddle : 0 < interval.middle) :
    (10 : ℚ) ^ interval.leadingPlace ≤ interval.center ∧
      interval.center < 10 ^ (interval.leadingPlace + 1) := by
  have hdenRat : (0 : ℚ) < interval.denominator := Nat.cast_pos.mpr hden
  rw [center, leadingPlace, le_div_iff₀ hdenRat, div_lt_iff₀ hdenRat]
  split_ifs with hle
  · have hlow := pow_length_natDigits_le (Nat.div_pos hle hden)
    have hhigh := lt_pow_length_natDigits (interval.middle / interval.denominator)
    have hlength := length_natDigits_pos (interval.middle / interval.denominator)
    generalize (natDigits (interval.middle / interval.denominator)).length = length at *
    rw [Nat.le_div_iff_mul_le hden] at hlow
    rw [Nat.div_lt_iff_lt_mul hden] at hhigh
    have hplace : (length : ℤ) - 1 = (length - 1 : ℕ) := by omega
    rw [sub_add_cancel, hplace, zpow_natCast, zpow_natCast]
    exact ⟨mod_cast hlow, mod_cast hhigh⟩
  · have hquotient : 0 < (interval.denominator - 1) / interval.middle :=
      Nat.div_pos (by omega) hmiddle
    have hlow := pow_length_natDigits_le hquotient
    have hhigh := lt_pow_length_natDigits ((interval.denominator - 1) / interval.middle)
    have hlength := length_natDigits_pos ((interval.denominator - 1) / interval.middle)
    generalize (natDigits ((interval.denominator - 1) / interval.middle)).length = length at *
    rw [Nat.le_div_iff_mul_le hmiddle] at hlow
    rw [Nat.div_lt_iff_lt_mul hmiddle] at hhigh
    have hplace : -(length : ℤ) + 1 = -(length - 1 : ℕ) := by omega
    rw [hplace, zpow_neg, zpow_neg, zpow_natCast, zpow_natCast, inv_mul_le_iff₀ (by positivity),
      lt_inv_mul_iff₀ (by positivity)]
    have hlow' : 10 ^ (length - 1) * interval.middle < interval.denominator := by omega
    have hhigh' : interval.denominator ≤ 10 ^ length * interval.middle := by omega
    exact ⟨mod_cast hhigh', mod_cast hlow'⟩

/-! ### The first grid with a hit -/

namespace Sound

variable (hsound : interval.Sound)
include hsound

theorem middle_pos : 0 < interval.middle :=
  (Nat.zero_le _).trans_lt hsound.lower_lt

/-- Sixteen places behind the leading one, the grid is fine enough. -/
theorem nearest?_leadingPlace_sub : interval.nearest? (interval.leadingPlace - 16) ≠ none := by
  apply nearest?_ne_none hsound
  have hlow := (leadingPlace_bounds hsound.denominator_pos hsound.middle_pos).1
  have hwide : (interval.middle : ℚ) / interval.denominator <
      10 ^ 16 * ((interval.upper - interval.lower) / interval.denominator) := by
    rw [← mul_div_assoc, div_lt_div_iff_of_pos_right hsound.denominator_pos_rat, mul_sub,
      lt_sub_iff_add_lt]
    exact_mod_cast hsound.wide
  rw [zpow_sub₀ (by norm_num), div_lt_iff₀ (by positivity), mul_comm]
  exact hlow.trans_lt hwide

theorem exists_first_hit : ∃ behind : ℕ,
    (shortest interval).2 = interval.leadingPlace - behind ∧
      interval.nearest? (interval.leadingPlace - behind) = some (shortest interval).1 ∧
      ∀ i < behind, interval.nearest? (interval.leadingPlace - i) = none := by
  rw [shortest]
  cases hfound : (List.range sufficientDigits).findSome? fun digits : ℕ =>
    (interval.nearest? (interval.leadingPlace - digits)).map
      (·, interval.leadingPlace - (digits : ℤ)) with
  | none =>
    have hlast := List.findSome?_eq_none_iff.mp hfound 16 (by decide)
    exact absurd (Option.map_eq_none_iff.mp hlast) hsound.nearest?_leadingPlace_sub
  | some found =>
    obtain ⟨before, behind, after, hrange, hhit, hmiss⟩ := List.findSome?_eq_some_iff.mp hfound
    obtain ⟨c, hc, rfl⟩ := Option.map_eq_some_iff.mp hhit
    refine ⟨behind, rfl, hc, fun i hi => ?_⟩
    have hsorted : (before ++ behind :: after).Pairwise (· < ·) := hrange ▸ List.pairwise_lt_range
    have hafter := (List.pairwise_cons.mp (List.pairwise_append.mp hsorted).2.1).1
    have hbehind : behind ∈ List.range sufficientDigits := by simp [hrange]
    have hmem : i ∈ before ++ behind :: after :=
      hrange ▸ List.mem_range.mpr (hi.trans (List.mem_range.mp hbehind))
    rcases List.mem_append.mp hmem with hbefore | hrest
    · exact Option.map_eq_none_iff.mp (hmiss i hbefore)
    · rcases List.mem_cons.mp hrest with rfl | hlater
      · exact absurd hi (lt_irrefl i)
      · exact absurd hi (hafter i hlater).not_gt

/-- The search finds a decimal in the interval. -/
theorem holds_shortest :
    interval.Holds ((shortest interval).1 * 10 ^ (shortest interval).2) := by
  obtain ⟨behind, hplace, hhit, -⟩ := hsound.exists_first_hit
  rw [hplace]
  exact (of_nearest?_eq_some hsound.denominator_pos hhit).1

/-- A coefficient with one digit for each grid up to the hit, or just above these. -/
theorem le_pow_of_hit {behind c : ℕ}
    (h : interval.nearest? (interval.leadingPlace - behind) = some c) : c ≤ 10 ^ (behind + 1) := by
  have hden := hsound.denominator_pos
  have hfloor := (floor_le hden (interval.leadingPlace - behind)).trans_lt
    (leadingPlace_bounds hden hsound.middle_pos).2
  have hexponent : interval.leadingPlace + 1 =
      (behind + 1 : ℕ) + (interval.leadingPlace - behind) := by
    push_cast
    ring
  rw [hexponent, zpow_add₀ (by norm_num), mul_lt_mul_iff_left₀ (by positivity), zpow_natCast]
    at hfloor
  have hlt : interval.floor (interval.leadingPlace - behind) < 10 ^ (behind + 1) :=
    mod_cast hfloor
  exact (of_nearest?_eq_some hden h).2.trans hlt

/-- A decimal in the interval has more digits than there are grids without a hit. -/
theorem lt_of_holds_of_missed {behind k c : ℕ} {place : ℤ}
    (hmiss : ∀ i < behind, interval.nearest? (interval.leadingPlace - i) = none)
    (hc : c < 10 ^ k) (hholds : interval.Holds (c * 10 ^ place)) : behind < k := by
  have hden := hsound.denominator_pos
  have hnone : ∀ i < behind, ∀ c : ℕ,
      ¬ interval.Holds (c * 10 ^ (interval.leadingPlace - i)) := fun i hi =>
    not_holds_of_nearest?_eq_none hden hsound.holds_center (hmiss i hi)
  have hpos : 0 < k := by
    rcases Nat.eq_zero_or_pos k with rfl | hpos
    · obtain rfl : c = 0 := by simpa using hc
      exact absurd (hsound.pos_of_holds hholds) (by simp)
    · exact hpos
  by_contra hfewer
  rcases le_or_gt (interval.leadingPlace - (k - 1 : ℕ)) place with hcoarse | hfine
  · -- The decimal lies on a grid without a hit.
    obtain ⟨n, hn⟩ := Int.eq_ofNat_of_zero_le (Int.sub_nonneg_of_le hcoarse)
    apply hnone (k - 1) (by omega) (c * 10 ^ n)
    have hsplit : place = n + (interval.leadingPlace - (k - 1 : ℕ)) := by omega
    rw [hsplit, zpow_add₀ (by norm_num), ← mul_assoc, zpow_natCast] at hholds
    exact_mod_cast hholds
  · -- The decimal lies below the leading digit, and with it a point of the coarsest grid.
    apply hnone 0 (by omega) 1
    have hbelow : (c : ℚ) * 10 ^ place ≤ 10 ^ interval.leadingPlace := by
      calc (c : ℚ) * 10 ^ place ≤ 10 ^ k * 10 ^ place := by
            apply mul_le_mul_of_nonneg_right _ (by positivity)
            exact_mod_cast hc.le
        _ = 10 ^ (k + place) := by rw [zpow_add₀ (by norm_num), zpow_natCast]
        _ ≤ 10 ^ interval.leadingPlace := zpow_le_zpow_right₀ (by norm_num) (by omega)
    simpa using hholds.between hsound.holds_center hbelow
      (leadingPlace_bounds hden hsound.middle_pos).1

/-- No decimal in the interval has fewer digits than the one that the search finds. -/
theorem exists_shortest_le : ∃ digits : ℕ, 0 < digits ∧ (shortest interval).1 ≤ 10 ^ digits ∧
    ∀ (k c : ℕ) (place : ℤ), c < 10 ^ k → interval.Holds (c * 10 ^ place) → digits ≤ k := by
  obtain ⟨behind, -, hhit, hmiss⟩ := hsound.exists_first_hit
  refine ⟨behind + 1, Nat.succ_pos behind, hsound.le_pow_of_hit hhit, ?_⟩
  intro k c place hc hholds
  exact hsound.lt_of_holds_of_missed hmiss hc hholds

end Sound

end

end Interval

end Polyglot.Decimal
