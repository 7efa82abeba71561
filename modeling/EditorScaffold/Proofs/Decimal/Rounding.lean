import EditorScaffold.Decimal.Binary64
import Mathlib.Algebra.Order.Field.Power
import Mathlib.Data.Rat.Cast.Order
import Mathlib.Tactic.FieldSimp
import Mathlib.Tactic.Linarith
import Mathlib.Tactic.NormNum
import Mathlib.Tactic.Positivity
import Mathlib.Tactic.Ring

/-! # How far rounding goes

A magnitude stands for a rational number (`value`). Rounding picks a unit, a power of two, that the number is less than
`2 ^ 53` of, and takes the nearest multiple of it (`Nearest`, `round_spec`). So it moves a number by at most half a
unit, and has an answer for everything below the midpoint above the largest magnitude (`isSome_round`). -/

namespace EditorScaffold.Binary64

/-- The number that a magnitude stands for. -/
def value (b : Binary64) : ℚ := b.mantissa * 2 ^ b.exponent

/-! ### Powers -/

theorem pow_toNat_div (a : ℚ) (e : ℤ) : a ^ e.toNat / a ^ (-e).toNat = a ^ e := by
  obtain ⟨n, rfl | rfl⟩ := e.eq_nat_or_neg
  · simp
  · simp

theorem zpow_two_pos (e : ℤ) : (0 : ℚ) < 2 ^ e := zpow_pos (by norm_num) e

/-- The fraction of the scaled numbers. -/
theorem descale_div (num den : ℕ) (e : ℤ) :
    ((descale num den e).1 : ℚ) / (descale num den e).2 = num / den / 2 ^ e := by
  have hpow := pow_toNat_div 2 e
  rw [← hpow]
  simp only [descale, Nat.pow_eq, Nat.cast_mul, Nat.cast_pow, Nat.cast_ofNat]
  field_simp

/-! ### Whole numbers -/

theorem roundDiv_bounds (num : ℕ) {den : ℕ} (hden : 0 < den) :
    2 * num ≤ 2 * (roundDiv num den * den) + den ∧ 2 * (roundDiv num den * den) ≤ 2 * num + den := by
  have hdiv := Nat.div_add_mod num den
  have hmod := Nat.mod_lt num hden
  have hsucc : (num / den + 1) * den = den * (num / den) + den := by ring
  have hsame : num / den * den = den * (num / den) := Nat.mul_comm _ _
  unfold roundDiv
  dsimp only
  split
  · next h => rw [hsame]; omega
  · next h => rw [hsucc]; omega

/-- The nearest whole number is at most one half away. -/
theorem roundDiv_near (num : ℕ) {den : ℕ} (hden : 0 < den) :
    (num / den : ℚ) - 1 / 2 ≤ roundDiv num den ∧ (roundDiv num den : ℚ) ≤ num / den + 1 / 2 := by
  obtain ⟨hbelow, habove⟩ := roundDiv_bounds num hden
  have hpos : (0 : ℚ) < den := Nat.cast_pos.2 hden
  have hbelow' : (2 * num : ℚ) ≤ 2 * (roundDiv num den * den) + den := by exact_mod_cast hbelow
  have habove' : (2 * (roundDiv num den * den) : ℚ) ≤ 2 * num + den := by exact_mod_cast habove
  constructor
  · rw [sub_le_iff_le_add, div_le_iff₀ hpos]
    linarith
  · rw [← sub_le_iff_le_add, le_div_iff₀ hpos]
    linarith

/-! ### Rounding -/

/-- **`m · 2 ^ e` is the nearest multiple of its unit `2 ^ e`**, which is as small as the number of bits allows. -/
structure Nearest (x : ℚ) (m : ℕ) (e : ℤ) : Prop where
  normal : e = -1074 ∨ 2 ^ 52 * 2 ^ e ≤ x
  lt : x < 2 ^ 53 * 2 ^ e
  below : x - 2 ^ e / 2 ≤ m * 2 ^ e
  above : m * 2 ^ e ≤ x + 2 ^ e / 2

/-- A multiple of a unit as a magnitude, if it is in range. -/
def pack (m : ℕ) (e : ℤ) : Option Binary64 :=
  let (m, e) := if m = Nat.pow 2 53 then (Nat.pow 2 52, e + 1) else (m, e)
  if 971 < e then none else some ⟨m, e⟩

theorem log2_bounds {n : ℕ} (hn : n ≠ 0) : (2 : ℚ) ^ (n.log2 : ℤ) ≤ n ∧ (n : ℚ) < 2 ^ ((n.log2 : ℤ) + 1) := by
  constructor
  · rw [zpow_natCast]
    exact_mod_cast Nat.log2_self_le hn
  · rw [← Nat.cast_one (R := ℤ), ← Nat.cast_add, zpow_natCast]
    exact_mod_cast Nat.lt_log2_self

/-- A fraction lies within a factor of two of the power of two that the logarithms tell. -/
theorem fraction_bounds {num den : ℕ} (hnum : num ≠ 0) (hden : den ≠ 0) :
    (2 : ℚ) ^ ((num.log2 : ℤ) - den.log2 - 1) ≤ num / den ∧
    (num / den : ℚ) < 2 ^ ((num.log2 : ℤ) - den.log2 + 1) := by
  obtain ⟨hnum₁, hnum₂⟩ := log2_bounds hnum
  obtain ⟨hden₁, hden₂⟩ := log2_bounds hden
  have hpos : (0 : ℚ) < den := Nat.cast_pos.2 (Nat.pos_of_ne_zero hden)
  constructor
  · rw [le_div_iff₀ hpos]
    calc (2 : ℚ) ^ ((num.log2 : ℤ) - den.log2 - 1) * den
        ≤ 2 ^ ((num.log2 : ℤ) - den.log2 - 1) * 2 ^ ((den.log2 : ℤ) + 1) :=
          mul_le_mul_of_nonneg_left hden₂.le (zpow_two_pos _).le
      _ = 2 ^ (num.log2 : ℤ) := by rw [← zpow_add₀ (by norm_num)]; congr 1; ring
      _ ≤ num := hnum₁
  · rw [div_lt_iff₀ hpos]
    calc (num : ℚ) < 2 ^ ((num.log2 : ℤ) + 1) := hnum₂
      _ = 2 ^ ((num.log2 : ℤ) - den.log2 + 1) * 2 ^ (den.log2 : ℤ) := by
        rw [← zpow_add₀ (by norm_num)]; congr 1; ring
      _ ≤ 2 ^ ((num.log2 : ℤ) - den.log2 + 1) * den := mul_le_mul_of_nonneg_left hden₁ (zpow_two_pos _).le

/-- The smallest unit that is tried. -/
def lowest (num den : ℕ) : ℤ := max ((num.log2 : ℤ) - den.log2 - 53) (-1074)

/-- The unit that is taken. -/
def chosen (num den : ℕ) : ℤ :=
  if (descale num den (lowest num den)).1 / (descale num den (lowest num den)).2 < Nat.pow 2 53 then lowest num den
  else lowest num den + 1

theorem round_eq_pack {num : ℕ} (hnum : num ≠ 0) (den : ℕ) :
    round num den = pack (roundDiv (descale num den (chosen num den)).1 (descale num den (chosen num den)).2)
      (chosen num den) := by
  unfold round
  rw [if_neg hnum]
  rfl

theorem descale_pos {den : ℕ} (hden : den ≠ 0) (num : ℕ) (e : ℤ) : 0 < (descale num den e).2 :=
  Nat.mul_pos (Nat.pos_of_ne_zero hden) (Nat.pow_pos (by decide))

/-- Whether the number is less than so many units. -/
theorem descale_lt_iff {den : ℕ} (hden : den ≠ 0) (num : ℕ) (e : ℤ) (n : ℕ) :
    (descale num den e).1 / (descale num den e).2 < n ↔ (num / den : ℚ) < n * 2 ^ e := by
  have hpos := descale_pos hden num e
  rw [Nat.div_lt_iff_lt_mul hpos, ← div_lt_iff₀ (zpow_two_pos e), ← descale_div, div_lt_iff₀ (Nat.cast_pos.2 hpos)]
  exact_mod_cast Iff.rfl

theorem zpow_two_add_one (e : ℤ) : (2 : ℚ) ^ (e + 1) = 2 * 2 ^ e := by
  rw [zpow_add_one₀ (by norm_num), mul_comm]

/-- The number is less than `2 ^ 53` units, and not less than half of that if a smaller unit was to be had. -/
theorem chosen_spec {num den : ℕ} (hnum : num ≠ 0) (hden : den ≠ 0) :
    (chosen num den = -1074 ∨ 2 ^ 52 * 2 ^ chosen num den ≤ (num / den : ℚ)) ∧
    (num / den : ℚ) < 2 ^ 53 * 2 ^ chosen num den := by
  obtain ⟨hlow, hhigh⟩ := fraction_bounds hnum hden
  have hiff := descale_lt_iff hden num (lowest num den) (2 ^ 53)
  push_cast at hiff
  unfold chosen
  split
  · next h =>
    refine ⟨?_, hiff.1 h⟩
    obtain hlowest | hlowest := max_choice ((num.log2 : ℤ) - den.log2 - 53) (-1074)
    · have hpow : (2 : ℚ) ^ 52 * 2 ^ lowest num den = 2 ^ ((num.log2 : ℤ) - den.log2 - 1) := by
        rw [lowest, hlowest, ← zpow_natCast, ← zpow_add₀ (by norm_num)]
        congr 1
        push_cast
        ring
      exact Or.inr (hpow ▸ hlow)
    · exact Or.inl hlowest
  · next h =>
    have hle : (2 : ℚ) ^ 53 * 2 ^ lowest num den ≤ num / den := not_lt.1 (mt hiff.2 h)
    rw [zpow_two_add_one]
    refine ⟨Or.inr (by linarith), hhigh.trans_le ?_⟩
    calc (2 : ℚ) ^ ((num.log2 : ℤ) - den.log2 + 1) = 2 ^ 54 * 2 ^ ((num.log2 : ℤ) - den.log2 - 53) := by
          rw [← zpow_natCast, ← zpow_add₀ (by norm_num)]
          congr 1
          push_cast
          ring
      _ ≤ 2 ^ 54 * 2 ^ lowest num den :=
          mul_le_mul_of_nonneg_left (zpow_le_zpow_right₀ (by norm_num) (le_max_left _ _)) (by norm_num)
      _ = 2 ^ 53 * (2 * 2 ^ lowest num den) := by ring

/-- **Rounding takes the nearest multiple of a unit.** -/
theorem round_spec {num den : ℕ} (hnum : num ≠ 0) (hden : den ≠ 0) :
    ∃ m e, Nearest (num / den) m e ∧ round num den = pack m e := by
  refine ⟨_, chosen num den, ?_, round_eq_pack hnum den⟩
  obtain ⟨hnormal, hlt⟩ := chosen_spec hnum hden
  obtain ⟨hbelow, habove⟩ := roundDiv_near (descale num den (chosen num den)).1 (descale_pos hden num (chosen num den))
  rw [descale_div] at hbelow habove
  have hpos := zpow_two_pos (chosen num den)
  have hscale : (num / den : ℚ) / 2 ^ chosen num den * 2 ^ chosen num den = num / den := div_mul_cancel₀ _ hpos.ne'
  refine ⟨hnormal, hlt, ?_, ?_⟩
  · calc (num / den : ℚ) - 2 ^ chosen num den / 2
        = ((num / den : ℚ) / 2 ^ chosen num den - 1 / 2) * 2 ^ chosen num den := by rw [sub_mul, hscale]; ring
      _ ≤ _ := mul_le_mul_of_nonneg_right hbelow hpos.le
  · calc _ ≤ ((num / den : ℚ) / 2 ^ chosen num den + 1 / 2) * 2 ^ chosen num den :=
          mul_le_mul_of_nonneg_right habove hpos.le
      _ = num / den + 2 ^ chosen num den / 2 := by rw [add_mul, hscale]; ring

/-! ### The nearest multiple of a unit -/

namespace Nearest

variable {x : ℚ} {m : ℕ} {e : ℤ}

/-- The smallest unit is far below one. -/
theorem smallest_unit_le : (2 : ℚ) ^ (-1074 : ℤ) ≤ 1 / 2 ^ 54 := by
  have hle : (2 : ℚ) ^ (-1074 : ℤ) ≤ 2 ^ (-54 : ℤ) := zpow_le_zpow_right₀ (by norm_num) (by norm_num)
  exact hle.trans (by norm_num)

/-- A unit of a number from one on is small beside the number. -/
theorem unit_le (h : Nearest x m e) (hx : 1 ≤ x) : 2 ^ 52 * 2 ^ e ≤ x := by
  refine h.normal.resolve_left ?_
  rintro rfl
  have := smallest_unit_le
  have := h.lt
  linarith

/-- Rounding up adds at most one part in `2 ^ 53`. -/
theorem le_of_one_le (h : Nearest x m e) (hx : 1 ≤ x) : m * 2 ^ e ≤ x * (1 + 1 / 2 ^ 53) := by
  have hunit := h.unit_le hx
  have := h.above
  linarith

/-- Rounding down leaves at least one half. -/
theorem half_le (h : Nearest x m e) (hx : 1 ≤ x) : x / 2 ≤ m * 2 ^ e := by
  have hunit := h.unit_le hx
  have hpos := zpow_two_pos e
  have := h.below
  linarith

/-- Rounding at most doubles a number and adds one. -/
theorem le_double (h : Nearest x m e) (hx : 0 ≤ x) : m * 2 ^ e ≤ 2 * x + 1 := by
  have := h.above
  obtain rfl | hunit := h.normal
  · have := smallest_unit_le
    linarith
  · have hpos := zpow_two_pos e
    linarith

theorem mantissa_le (h : Nearest x m e) : m ≤ 2 ^ 53 := by
  have hpos := zpow_two_pos e
  have hlt : (m : ℚ) * 2 ^ e < (2 ^ 53 + 1) * 2 ^ e := by
    have := h.above
    have := h.lt
    linarith
  have hm : (m : ℚ) < 2 ^ 53 + 1 := lt_of_mul_lt_mul_right hlt hpos.le
  exact Nat.lt_succ_iff.1 (by exact_mod_cast hm)

end Nearest

/-- A magnitude that fits into a double. -/
structure IsFinite (b : Binary64) : Prop where
  mantissa : b.mantissa < 2 ^ 53
  exponent : b.exponent ≤ 971

theorem isFinite_zero : zero.IsFinite := ⟨by decide, by decide⟩

/-- **A rounded number is a multiple of its unit that fits into a double.** -/
theorem eq_of_pack {m : ℕ} {e : ℤ} {b : Binary64} (hm : m ≤ 2 ^ 53) (h : pack m e = some b) :
    b.IsFinite ∧ b.value = m * 2 ^ e := by
  unfold pack at h
  by_cases hcarry : m = Nat.pow 2 53
  · rw [if_pos hcarry] at h
    dsimp only at h
    by_cases hbig : 971 < e + 1
    · rw [if_pos hbig] at h
      cases h
    · rw [if_neg hbig] at h
      obtain rfl := Option.some.inj h
      refine ⟨⟨by norm_num, not_lt.1 hbig⟩, ?_⟩
      simp only [value, hcarry, zpow_two_add_one, Nat.pow_eq]
      push_cast
      ring
  · rw [if_neg hcarry] at h
    dsimp only at h
    by_cases hbig : 971 < e
    · rw [if_pos hbig] at h
      cases h
    · rw [if_neg hbig] at h
      obtain rfl := Option.some.inj h
      exact ⟨⟨lt_of_le_of_ne hm hcarry, not_lt.1 hbig⟩, rfl⟩

/-- The midpoint above the largest magnitude. -/
def bound : ℚ := (2 ^ 53 - 1 / 2) * 2 ^ (971 : ℤ)

theorem isSome_pack {x : ℚ} {m : ℕ} {e : ℤ} (h : Nearest x m e) (hx : x < bound) : (pack m e).isSome := by
  have hpos := zpow_two_pos 971
  have hle : e ≤ 971 := by
    by_contra hgt
    have hunit : (2 : ℚ) ^ (971 + 1 : ℤ) ≤ 2 ^ e := zpow_le_zpow_right₀ (by norm_num) (by omega)
    have := h.normal.resolve_left (by omega)
    rw [zpow_two_add_one] at hunit
    unfold bound at hx
    generalize (2 : ℚ) ^ (971 : ℤ) = u at *
    linarith
  have hcarry : m = Nat.pow 2 53 → e ≠ 971 := by
    rintro rfl rfl
    have hcast : ((Nat.pow 2 53 : ℕ) : ℚ) = 2 ^ 53 := by norm_num
    have habove := h.above
    rw [hcast] at habove
    unfold bound at hx
    generalize (2 : ℚ) ^ (971 : ℤ) = u at *
    linarith
  unfold pack
  by_cases hm : m = Nat.pow 2 53
  · have := hcarry hm
    rw [if_pos hm]
    dsimp only
    rw [if_neg (by omega)]
    rfl
  · rw [if_neg hm]
    dsimp only
    rw [if_neg (by omega)]
    rfl

/-! ### Rounding as a whole -/

variable {num den : ℕ} {b : Binary64}

theorem round_zero (den : ℕ) : round 0 den = some zero := rfl

theorem value_zero : zero.value = 0 := by simp [value, zero]

/-- **What a number is rounded to**: zero, or the nearest multiple of a unit. -/
theorem round_cases (hden : den ≠ 0) (h : round num den = some b) :
    b.IsFinite ∧ (num = 0 ∧ b.value = 0 ∨ ∃ m e, Nearest (num / den) m e ∧ b.value = m * 2 ^ e) := by
  by_cases hnum : num = 0
  · subst hnum
    obtain rfl := Option.some.inj (h.symm.trans (round_zero den)).symm
    exact ⟨isFinite_zero, Or.inl ⟨rfl, value_zero⟩⟩
  · obtain ⟨m, e, hnear, hround⟩ := round_spec hnum hden
    obtain ⟨hfinite, hvalue⟩ := eq_of_pack hnear.mantissa_le (hround.symm.trans h)
    exact ⟨hfinite, Or.inr ⟨m, e, hnear, hvalue⟩⟩

/-- **Everything below the bound is rounded.** -/
theorem isSome_round (hden : den ≠ 0) (h : (num / den : ℚ) < bound) : (round num den).isSome := by
  by_cases hnum : num = 0
  · rw [hnum, round_zero]
    rfl
  · obtain ⟨m, e, hnear, hround⟩ := round_spec hnum hden
    rw [hround]
    exact isSome_pack hnear h

end EditorScaffold.Binary64
