import EditorScaffold.Proofs.Decimal.Rounding

/-! # Where scaling has an answer

A magnitude is scaled by a product or by quotients, each of them rounded. Quotients make a number that is not too large
smaller, so they always have an answer (`isSome_scaleWithin`); a product has one below the midpoint above the largest
magnitude, with two roundings to spare (`isSome_scaleTen_of_pos`). -/

namespace EditorScaffold.Binary64

variable {num den : ℕ} {a b f p : Binary64} {k : ℤ}

/-! ### What rounding keeps -/

theorem value_nonneg (b : Binary64) : 0 ≤ b.value := mul_nonneg (Nat.cast_nonneg _) (zpow_two_pos _).le

theorem value_le_double (hden : den ≠ 0) (h : round num den = some b) : b.value ≤ 2 * (num / den) + 1 := by
  have hnonneg : (0 : ℚ) ≤ num / den := by positivity
  obtain ⟨-, ⟨rfl, hvalue⟩ | ⟨m, e, hnear, hvalue⟩⟩ := round_cases hden h
  · rw [hvalue]
    linarith
  · rw [hvalue]
    exact hnear.le_double hnonneg

theorem value_near (hden : den ≠ 0) (hone : (1 : ℚ) ≤ num / den) (h : round num den = some b) :
    num / den / 2 ≤ b.value ∧ b.value ≤ num / den * (1 + 1 / 2 ^ 53) := by
  obtain ⟨-, ⟨rfl, -⟩ | ⟨m, e, hnear, hvalue⟩⟩ := round_cases hden h
  · rw [Nat.cast_zero, zero_div] at hone
    exact absurd hone (by norm_num)
  · rw [hvalue]
    exact ⟨hnear.half_le hone, hnear.le_of_one_le hone⟩

/-! ### Products and quotients -/

/-- A product is the rounded product of the values. -/
theorem mul_eq_round (a b : Binary64) :
    ∃ num den : ℕ, den ≠ 0 ∧ (num / den : ℚ) = a.value * b.value ∧ a.mul b = round num den := by
  refine ⟨_, _, (Nat.pow_pos (by decide)).ne', ?_, rfl⟩
  have hpow := pow_toNat_div 2 (a.exponent + b.exponent)
  simp only [value, Nat.pow_eq, Nat.cast_mul, Nat.cast_pow, Nat.cast_ofNat]
  rw [mul_div_assoc, hpow, zpow_add₀ (by norm_num)]
  ring

/-- A quotient is the rounded quotient of the values. -/
theorem div_eq_round (a : Binary64) (hb : b.mantissa ≠ 0) :
    ∃ num den : ℕ, den ≠ 0 ∧ (num / den : ℚ) = a.value / b.value ∧ a.div b = round num den := by
  refine ⟨_, _, Nat.mul_ne_zero hb (Nat.pow_pos (by decide)).ne', ?_, rfl⟩
  have hpow := pow_toNat_div 2 (a.exponent - b.exponent)
  simp only [value, Nat.pow_eq, Nat.cast_mul, Nat.cast_pow, Nat.cast_ofNat]
  rw [mul_div_mul_comm, hpow, zpow_sub₀ (by norm_num), mul_div_mul_comm]

theorem isFinite_mul (h : a.mul b = some f) : f.IsFinite := by
  obtain ⟨num, den, hden, -, hmul⟩ := mul_eq_round a b
  exact (round_cases hden (hmul ▸ h)).1

theorem isFinite_div (hb : b.mantissa ≠ 0) (h : a.div b = some f) : f.IsFinite := by
  obtain ⟨num, den, hden, -, hdiv⟩ := div_eq_round a hb
  exact (round_cases hden (hdiv ▸ h)).1

theorem mantissa_ne_zero (h : 0 < b.value) : b.mantissa ≠ 0 := fun hzero => by
  rw [value, hzero, Nat.cast_zero, zero_mul] at h
  exact lt_irrefl _ h

/-! ### Powers of ten -/

theorem large_lt_bound : (2 : ℚ) ^ 72 < bound := by
  have hpow : (2 : ℚ) ^ (20 : ℤ) ≤ 2 ^ (971 : ℤ) := zpow_le_zpow_right₀ (by norm_num) (by norm_num)
  unfold bound
  generalize (2 : ℚ) ^ (971 : ℤ) = u at *
  norm_num at hpow ⊢
  linarith

theorem ten_pow_lt_bound {k : ℕ} (hk : k ≤ maxPower) : (10 : ℚ) ^ k < bound := by
  have hmax : 2 * 10 ^ maxPower < 18014398509481983 * 2 ^ 971 := by decide +kernel
  have hcast := Nat.cast_lt (α := ℚ).2 hmax
  have hle : (10 : ℚ) ^ k ≤ 10 ^ maxPower := pow_le_pow_right₀ (by norm_num) hk
  simp only [Nat.cast_mul, Nat.cast_pow, Nat.cast_ofNat] at hcast
  unfold bound
  rw [zpow_ofNat]
  generalize (2 : ℚ) ^ 971 = u at *
  linarith

theorem bound_lt_ten_pow : bound < (10 : ℚ) ^ (maxPower + 1) := by
  have hmax : 18014398509481983 * 2 ^ 971 < 2 * 10 ^ (maxPower + 1) := by decide +kernel
  have hcast := Nat.cast_lt (α := ℚ).2 hmax
  simp only [Nat.cast_mul, Nat.cast_pow, Nat.cast_ofNat] at hcast
  unfold bound
  rw [zpow_ofNat]
  generalize (2 : ℚ) ^ 971 = u at *
  linarith

/-- **A power of ten that is in range is nearly itself.** -/
theorem powerOfTen_spec {k : ℕ} (hk : k ≤ maxPower) :
    ∃ p, powerOfTen k = some p ∧ (10 : ℚ) ^ k / 2 ≤ p.value ∧ p.value ≤ 10 ^ k * (1 + 1 / 2 ^ 53) := by
  have hcast : ((Nat.pow 10 k : ℕ) / (1 : ℕ) : ℚ) = 10 ^ k := by simp
  have hone : (1 : ℚ) ≤ (Nat.pow 10 k : ℕ) / (1 : ℕ) := by
    rw [hcast]
    exact one_le_pow₀ (by norm_num)
  obtain ⟨p, hp⟩ := Option.isSome_iff_exists.1 (isSome_round one_ne_zero (hcast.symm ▸ ten_pow_lt_bound hk))
  have hnear := value_near one_ne_zero hone hp
  rw [hcast] at hnear
  exact ⟨p, hp, hnear⟩

/-! ### Scaling -/

/-- A number that is not too large is divided by a power of ten that is in range. -/
theorem isSome_scaleOnce (hk : k ≤ 0) (hmax : k.natAbs ≤ maxPower) (hf : f.value ≤ 2 ^ 70) :
    ((powerOfTen k.natAbs).bind fun p => if 0 ≤ k then f.mul p else f.div p).isSome := by
  obtain ⟨p, hp, hlow, hhigh⟩ := powerOfTen_spec hmax
  have hone : (1 : ℚ) ≤ 10 ^ k.natAbs := one_le_pow₀ (by norm_num)
  have hpos : (0 : ℚ) < p.value := by linarith
  rw [hp, Option.bind_some]
  split
  · next hnonneg =>
    obtain rfl : k = 0 := le_antisymm hk hnonneg
    obtain ⟨num, den, hden, hvalue, hmul⟩ := mul_eq_round f p
    have hproduct : f.value * p.value ≤ 2 ^ 70 * 2 := by
      refine mul_le_mul hf ?_ hpos.le (by norm_num)
      rw [Int.natAbs_zero, pow_zero] at hhigh
      linarith
    rw [hmul]
    exact isSome_round hden (by rw [hvalue]; linarith [large_lt_bound])
  · obtain ⟨num, den, hden, hvalue, hdiv⟩ := div_eq_round f (mantissa_ne_zero hpos)
    have hquotient : f.value / p.value ≤ 2 ^ 71 := by
      rw [div_le_iff₀ hpos]
      linarith
    rw [hdiv]
    exact isSome_round hden (by rw [hvalue]; linarith [large_lt_bound])

/-- **A number that is not too large is divided by a power of ten**, however many quotients that takes. -/
theorem isSome_scaleWithin {steps : ℕ} (hk : k ≤ 0) (hsteps : k.natAbs < steps) (hf : f.value ≤ 2 ^ 70) :
    (scaleWithin steps f k).isSome := by
  induction steps generalizing f k with
  | zero => exact absurd hsteps (Nat.not_lt_zero _)
  | succ steps ih =>
    obtain ⟨p, hp, hlow, -⟩ := powerOfTen_spec le_rfl
    rw [scaleWithin]
    split
    · next hsmall => exact isSome_scaleOnce hk hsmall hf
    · next hlarge =>
      have hten : (10 : ℚ) ^ 22 ≤ 10 ^ maxPower := pow_le_pow_right₀ (by norm_num) (by decide)
      have hpos : (0 : ℚ) < p.value := by linarith
      by_cases hzero : f.mantissa = 0
      · rw [if_pos hzero]
        rfl
      rw [if_neg hzero, if_neg (by omega), hp, Option.bind_some]
      obtain ⟨num, den, hden, hvalue, hdiv⟩ := div_eq_round f (mantissa_ne_zero hpos)
      have hquotient : f.value / p.value ≤ 1 := by
        rw [div_le_one hpos]
        linarith
      obtain ⟨g, hg⟩ := Option.isSome_iff_exists.1
        (isSome_round hden (by rw [hvalue]; linarith [large_lt_bound]))
      have hdouble := value_le_double hden hg
      rw [hdiv, hg, Option.bind_some]
      refine ih (by unfold maxPower at *; omega) (by unfold maxPower at *; omega) ?_
      rw [hvalue] at hdouble
      linarith

theorem isSome_scaleTen_of_nonpos (hk : k ≤ 0) (hf : f.value ≤ 2 ^ 70) : (f.scaleTen k).isSome :=
  isSome_scaleWithin hk (Nat.lt_succ_self _) hf

/-- **A number is multiplied by a power of ten** if the product stays below the bound. -/
theorem isSome_scaleTen_of_pos (hk : 0 ≤ k) (hmax : k ≤ maxPower)
    (hf : f.value * (10 ^ k * (1 + 1 / 2 ^ 53)) < bound) : (f.scaleTen k).isSome := by
  obtain ⟨n, rfl⟩ := Int.eq_ofNat_of_zero_le hk
  have hn : n ≤ maxPower := by exact_mod_cast hmax
  obtain ⟨p, hp, hlow, hhigh⟩ := powerOfTen_spec hn
  obtain ⟨num, den, hden, hvalue, hmul⟩ := mul_eq_round f p
  rw [scaleTen, scaleWithin, Int.natAbs_natCast, if_pos hn, hp, Option.bind_some, if_pos hk, hmul]
  refine isSome_round hden ?_
  rw [hvalue]
  rw [zpow_natCast] at hf
  exact (mul_le_mul_of_nonneg_left hhigh f.value_nonneg).trans_lt hf

/-- **A scaled magnitude fits into a double.** -/
theorem isFinite_scaleWithin {steps : ℕ} (hf : f.IsFinite) (h : scaleWithin steps f k = some b) : b.IsFinite := by
  have hdivisor {p : Binary64} {n : ℕ} (hn : n ≤ maxPower) (hp : powerOfTen n = some p) : p.mantissa ≠ 0 := by
    obtain ⟨q, hq, hlow, -⟩ := powerOfTen_spec hn
    obtain rfl := Option.some.inj (hq.symm.trans hp)
    exact mantissa_ne_zero (lt_of_lt_of_le (by positivity) hlow)
  induction steps generalizing f k with
  | zero => cases h
  | succ steps ih =>
    rw [scaleWithin] at h
    split at h
    · next hsmall =>
      obtain ⟨p, hp, h⟩ := Option.bind_eq_some_iff.1 h
      split at h
      · exact isFinite_mul h
      · exact isFinite_div (hdivisor hsmall hp) h
    · split at h
      · exact Option.some.inj h ▸ hf
      · split at h
        · cases h
        · obtain ⟨g, hg, h⟩ := Option.bind_eq_some_iff.1 h
          obtain ⟨p, hp, hg⟩ := Option.bind_eq_some_iff.1 hg
          exact ih (isFinite_div (hdivisor le_rfl hp) hg) h

end EditorScaffold.Binary64
