import EditorScaffold.Proofs.Decimal.Scaling
import EditorScaffold.Proofs.Json.Digits

/-! # Numerals that have values

A numeral has a value if its leading digits can be scaled by its power of ten. They can if the power divides
(`isSome_magnitude?_of_nonpos`), and otherwise if the product is so far below the largest double that three roundings
do not matter (`isSome_magnitude?_of_pos`). A value that is a double fits into one (`isFinite_of_magnitude?`). -/

namespace EditorScaffold.Json

variable {ds : List Digit}

namespace Numeral

theorem wordBound_pos : 0 < wordBound := by decide

/-- Digits are taken as long as the number stays below the bound. -/
theorem accumulate_spec {n : Nat} (hn : n < wordBound) (ds : List Digit) :
    ∃ used rest, ds = used ++ rest ∧ accumulate n ds = (extend n used, rest) ∧ extend n used < wordBound := by
  induction ds generalizing n with
  | nil => exact ⟨[], [], rfl, rfl, hn⟩
  | cons d ds ih =>
    unfold accumulate
    split
    · next h =>
      obtain ⟨used, rest, rfl, haccumulate, hlt⟩ := ih h
      exact ⟨d :: used, rest, rfl, haccumulate, hlt⟩
    · exact ⟨[], d :: ds, rfl, rfl, hn⟩

/-- All digits are taken if the whole number stays below the bound. -/
theorem accumulate_of_lt {n : Nat} (h : extend n ds < wordBound) : accumulate n ds = (extend n ds, []) := by
  induction ds generalizing n with
  | nil => rfl
  | cons d ds ih =>
    have hstep : extend n (d :: ds) = extend (10 * n + d.val) ds := rfl
    rw [hstep] at h ⊢
    rw [accumulate, if_pos ((le_extend _ ds).trans_lt h)]
    exact ih h

/-- **The leading digits** of a numeral with a small whole part are those of the whole part and some after it. -/
theorem leading_spec {n : Numeral} (hwhole : n.whole < wordBound) :
    ∃ used rest, n.fraction = used ++ rest ∧
      n.leading = (extend n.whole used, n.exponent.getD 0 - used.length) ∧ extend n.whole used < wordBound := by
  have hzero : extend 0 (toDigits n.whole) = n.whole := ofDigits_toDigits n.whole
  have hall : accumulate 0 (toDigits n.whole) = (extend 0 (toDigits n.whole), []) := accumulate_of_lt (by rwa [hzero])
  rw [hzero] at hall
  obtain ⟨used, rest, hfraction, haccumulate, hlt⟩ := accumulate_spec hwhole n.fraction
  refine ⟨used, rest, hfraction, ?_, hlt⟩
  unfold leading
  rw [hall]
  dsimp only
  rw [haccumulate, hfraction]
  simp only [List.length_nil, List.length_append, Prod.mk.injEq, true_and]
  push_cast
  ring

/-! ### Values -/

theorem isSome_number? {n : Numeral} (h : n.magnitude?.isSome) : n.number?.isSome := by
  unfold number?
  split
  · rfl
  · rwa [Option.isSome_map]

theorem round_lead {lead : Nat} (h : lead < wordBound) :
    ∃ f, Binary64.round lead 1 = some f ∧ f.value ≤ 2 ^ 70 ∧ (0 < lead → f.value ≤ lead * (1 + 1 / 2 ^ 53)) := by
  have hword : (lead : ℚ) < 2 ^ 64 := by exact_mod_cast h
  have hone : (lead / (1 : ℕ) : ℚ) = lead := by rw [Nat.cast_one, div_one]
  obtain ⟨f, hround⟩ := Option.isSome_iff_exists.1
    (Binary64.isSome_round one_ne_zero (by rw [hone]; linarith [Binary64.large_lt_bound]))
  refine ⟨f, hround, ?_, fun hpos => ?_⟩
  · have := Binary64.value_le_double one_ne_zero hround
    rw [hone] at this
    linarith
  · have hle : (1 : ℚ) ≤ lead / (1 : ℕ) := by
      rw [hone]
      exact_mod_cast hpos
    exact hone ▸ (Binary64.value_near one_ne_zero hle hround).2

theorem isSome_magnitude?_of_nonpos {n : Numeral} (hlead : n.leading.1 < wordBound) (hscale : n.leading.2 ≤ 0) :
    n.magnitude?.isSome := by
  obtain ⟨f, hround, hf, -⟩ := round_lead hlead
  rw [magnitude?, hround, Option.bind_some]
  exact Binary64.isSome_scaleTen_of_nonpos hscale hf

/-- **A numeral has a value if it is so far below the largest double that three roundings do not matter.** -/
theorem isSome_magnitude?_of_pos {n : Numeral} (hlead : n.leading.1 < wordBound) (hpos : 0 < n.leading.1)
    (hscale : 0 ≤ n.leading.2)
    (hvalue : (n.leading.1 : ℚ) * 10 ^ n.leading.2 * (1 + 1 / 2 ^ 53) ^ 2 < Binary64.bound) :
    n.magnitude?.isSome := by
  obtain ⟨f, hround, -, hf⟩ := round_lead hlead
  rw [magnitude?, hround, Option.bind_some]
  have hten : (0 : ℚ) < 10 ^ n.leading.2 := zpow_pos (by norm_num) _
  refine Binary64.isSome_scaleTen_of_pos hscale ?_ ?_
  · by_contra hlarge
    have hscale : (10 : ℚ) ^ ((Binary64.maxPower + 1 : ℕ) : ℤ) ≤ 10 ^ n.leading.2 :=
      zpow_le_zpow_right₀ (by norm_num) (by push_cast; omega)
    rw [zpow_natCast] at hscale
    have hone : (1 : ℚ) ≤ n.leading.1 := by exact_mod_cast hpos
    have hle : (10 : ℚ) ^ n.leading.2 ≤ n.leading.1 * 10 ^ n.leading.2 * (1 + 1 / 2 ^ 53) ^ 2 := by
      rw [mul_right_comm]
      exact le_mul_of_one_le_left hten.le (one_le_mul_of_one_le_of_one_le hone (by norm_num))
    exact absurd (hscale.trans_lt (hle.trans_lt hvalue)) (not_lt.2 Binary64.bound_lt_ten_pow.le)
  · calc f.value * (10 ^ n.leading.2 * (1 + 1 / 2 ^ 53))
        ≤ n.leading.1 * (1 + 1 / 2 ^ 53) * (10 ^ n.leading.2 * (1 + 1 / 2 ^ 53)) :=
          mul_le_mul_of_nonneg_right (hf hpos) (by positivity)
      _ = n.leading.1 * 10 ^ n.leading.2 * (1 + 1 / 2 ^ 53) ^ 2 := by ring
      _ < Binary64.bound := hvalue

/-- **The double that a numeral stands for fits into a double.** -/
theorem isFinite_of_magnitude? {n : Numeral} {b : Binary64} (h : n.magnitude? = some b) : b.IsFinite := by
  obtain ⟨f, hround, h⟩ := Option.bind_eq_some_iff.1 h
  exact Binary64.isFinite_scaleWithin (Binary64.round_cases one_ne_zero hround).1 h

end Numeral

end EditorScaffold.Json
