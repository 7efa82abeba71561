import EditorScaffold.Decimal.Shortest
import EditorScaffold.Proofs.Decimal.Rounding

/-! # The shortest digits are close

The digits that are found for a magnitude are read back as it, so the number they spell is at most half a unit too large
(`digits_spec`). -/

namespace EditorScaffold.Binary64

variable {b : Binary64} {d : ℕ} {k : ℤ}

theorem overPower_pos (n : ℕ) (e k : ℤ) : 0 < (overPower n e k).2 :=
  Nat.mul_pos (Nat.pow_pos (by decide)) (Nat.pow_pos (by decide))

/-- The fraction of the scaled numbers. -/
theorem overPower_div (n : ℕ) (e k : ℤ) :
    ((overPower n e k).1 : ℚ) / (overPower n e k).2 = n * 2 ^ e / 10 ^ k := by
  have htwo := pow_toNat_div 2 e
  have hten := pow_toNat_div 10 k
  rw [← htwo, ← hten]
  simp only [overPower, Nat.pow_eq, Nat.cast_mul, Nat.cast_pow, Nat.cast_ofNat]
  field_simp

/-- The number that a decimal has to reach, in quarters of a unit. -/
def lower (b : Binary64) : ℕ :=
  if b.mantissa = Nat.pow 2 52 ∧ -1074 < b.exponent then 4 * b.mantissa - 1 else 4 * b.mantissa - 2

/-- A decimal that is read back lies between the two midpoints. -/
theorem between_of_readsBack (h : b.readsBack d k = true) :
    (overPower b.lower (b.exponent - 2) k).1 ≤ d * (overPower b.lower (b.exponent - 2) k).2 ∧
      d * (overPower (4 * b.mantissa + 2) (b.exponent - 2) k).2 ≤
        (overPower (4 * b.mantissa + 2) (b.exponent - 2) k).1 := by
  change (if b.mantissa % 2 = 0 then
      decide ((overPower b.lower (b.exponent - 2) k).1 ≤ d * (overPower b.lower (b.exponent - 2) k).2) &&
        decide (d * (overPower (4 * b.mantissa + 2) (b.exponent - 2) k).2 ≤
          (overPower (4 * b.mantissa + 2) (b.exponent - 2) k).1)
    else
      decide ((overPower b.lower (b.exponent - 2) k).1 < d * (overPower b.lower (b.exponent - 2) k).2) &&
        decide (d * (overPower (4 * b.mantissa + 2) (b.exponent - 2) k).2 <
          (overPower (4 * b.mantissa + 2) (b.exponent - 2) k).1)) = true at h
  split at h
  · rwa [Bool.and_eq_true, decide_eq_true_eq, decide_eq_true_eq] at h
  · rw [Bool.and_eq_true, decide_eq_true_eq, decide_eq_true_eq] at h
    exact ⟨h.1.le, h.2.le⟩

/-- **A decimal that is read back as a magnitude** is not zero and at most half a unit larger. -/
theorem readsBack_spec (hb : b.mantissa ≠ 0) (h : b.readsBack d k = true) :
    0 < d ∧ (d : ℚ) * 10 ^ k ≤ (b.mantissa + 1 / 2) * 2 ^ b.exponent := by
  obtain ⟨hlow, hhigh⟩ := between_of_readsBack h
  have hten : (0 : ℚ) < 10 ^ k := zpow_pos (by norm_num) k
  constructor
  · have hlower : 0 < b.lower := by
      unfold lower
      split <;> omega
    have hpos : 0 < (overPower b.lower (b.exponent - 2) k).1 :=
      Nat.mul_pos (Nat.mul_pos hlower (Nat.pow_pos (by decide))) (Nat.pow_pos (by decide))
    exact Nat.pos_of_mul_pos_right (hpos.trans_le hlow)
  · have hupper : (0 : ℚ) < (overPower (4 * b.mantissa + 2) (b.exponent - 2) k).2 :=
      Nat.cast_pos.2 (overPower_pos _ _ _)
    have hle : (d : ℚ) ≤ (overPower (4 * b.mantissa + 2) (b.exponent - 2) k).1 /
        (overPower (4 * b.mantissa + 2) (b.exponent - 2) k).2 := by
      rw [le_div_iff₀ hupper]
      exact_mod_cast hhigh
    rw [overPower_div, le_div_iff₀ hten, zpow_sub₀ (by norm_num)] at hle
    push_cast at hle
    calc (d : ℚ) * 10 ^ k ≤ (4 * b.mantissa + 2) * (2 ^ b.exponent / 2 ^ (2 : ℤ)) := hle
      _ = (b.mantissa + 1 / 2) * 2 ^ b.exponent := by
        rw [zpow_ofNat]
        ring

/-- A decimal on a grid is read back. -/
theorem readsBack_of_onGrid {n : ℕ} (h : onGrid b n = some (d, k)) : b.readsBack d k = true := by
  unfold onGrid at h
  dsimp only at h
  split at h
  · next hfirst hsecond =>
    split at h
    · obtain ⟨rfl, rfl⟩ := Prod.mk.inj (Option.some.inj h)
      exact hfirst
    · obtain ⟨rfl, rfl⟩ := Prod.mk.inj (Option.some.inj h)
      exact hsecond
  · next hfirst _ =>
    obtain ⟨rfl, rfl⟩ := Prod.mk.inj (Option.some.inj h)
    exact hfirst
  · next _ hsecond =>
    obtain ⟨rfl, rfl⟩ := Prod.mk.inj (Option.some.inj h)
    exact hsecond
  · cases h

/-- **The shortest digits**: none are found, or they spell a number at most half a unit too large. -/
theorem digits_spec (hb : b.mantissa ≠ 0) :
    b.digits = (0, 0) ∨
      0 < b.digits.1 ∧ (b.digits.1 : ℚ) * 10 ^ b.digits.2 ≤ (b.mantissa + 1 / 2) * 2 ^ b.exponent := by
  unfold digits
  cases hfind : (List.range 17).findSome? fun n => onGrid b (n + 1) with
  | none => exact Or.inl rfl
  | some found =>
    obtain ⟨n, -, hn⟩ := List.exists_of_findSome?_eq_some hfind
    exact Or.inr (readsBack_spec hb (readsBack_of_onGrid hn))

/-- **Half a unit above a magnitude there is room for two roundings**, except above the three largest. -/
theorem near_lt_bound (hb : b.IsFinite) (hroom : b.exponent ≤ 970 ∨ b.mantissa ≤ 2 ^ 53 - 4) :
    (b.mantissa + 1 / 2) * 2 ^ b.exponent * (1 + 1 / 2 ^ 53) ^ 2 < bound := by
  have hunit : (0 : ℚ) < 2 ^ (971 : ℤ) := zpow_two_pos 971
  have hpos := zpow_two_pos b.exponent
  unfold bound
  obtain he | hm := hroom
  · have hle : (2 : ℚ) ^ (b.exponent + 1) ≤ 2 ^ (971 : ℤ) := zpow_le_zpow_right₀ (by norm_num) (by omega)
    have hm : (b.mantissa + 1 / 2 : ℚ) ≤ 2 ^ 53 := by
      have : (b.mantissa + 1 : ℚ) ≤ 2 ^ 53 := by exact_mod_cast hb.mantissa
      linarith
    rw [zpow_two_add_one] at hle
    generalize (2 : ℚ) ^ (971 : ℤ) = u at *
    have hproduct : (b.mantissa + 1 / 2) * 2 ^ b.exponent ≤ 2 ^ 53 * (u / 2) :=
      mul_le_mul hm (by linarith) hpos.le (by norm_num)
    have := mul_le_mul_of_nonneg_right hproduct (by norm_num : (0 : ℚ) ≤ (1 + 1 / 2 ^ 53) ^ 2)
    norm_num at this ⊢
    linarith
  · have hle : (2 : ℚ) ^ b.exponent ≤ 2 ^ (971 : ℤ) := zpow_le_zpow_right₀ (by norm_num) hb.exponent
    have hm : (b.mantissa + 1 / 2 : ℚ) ≤ 2 ^ 53 - 4 + 1 / 2 := by
      have hcast : ((2 ^ 53 - 4 : ℕ) : ℚ) = 2 ^ 53 - 4 := by norm_num
      have := Nat.cast_le (α := ℚ).2 hm
      rw [hcast] at this
      linarith
    generalize (2 : ℚ) ^ (971 : ℤ) = u at *
    have hproduct : (b.mantissa + 1 / 2) * 2 ^ b.exponent ≤ (2 ^ 53 - 4 + 1 / 2) * u :=
      mul_le_mul hm hle hpos.le (by norm_num)
    have := mul_le_mul_of_nonneg_right hproduct (by norm_num : (0 : ℚ) ≤ (1 + 1 / 2 ^ 53) ^ 2)
    norm_num at this ⊢
    linarith

end EditorScaffold.Binary64
