import EditorScaffold.Json.Numeral
import Mathlib.Data.List.Basic
import Mathlib.Data.Nat.Init
import Mathlib.Data.List.Induction
import Mathlib.Tactic.Ring

/-! # Digits of a number

A number is written by its digits (`ofNat_eq_map`), which spell it (`ofDigits_toDigits`) and do not start with a zero
unless the number is zero (`toDigits_head?_ne`). No other digits do both: digits that do not start with a zero are the
digits of what they spell (`toDigits_ofDigits`). Digits written after a number shift it (`extend_eq`). -/

namespace EditorScaffold.Json

variable {n : Nat} {d : Digit} {ds : List Digit}

theorem digit?_digitChar : ∀ d : Digit, digit? (digitChar d) = some d := by decide

theorem digitChar_eq_zero_iff : ∀ d : Digit, digitChar d = '0' ↔ d = 0 := by decide

/-! ### The digits of a number -/

theorem toDigits_of_lt (h : n < 10) : toDigits n = [⟨n, h⟩] := by
  rw [toDigits, Text.ofNat, Nat.toDigits_of_lt_base h]
  exact congrArg Option.toList (digit?_digitChar ⟨n, h⟩)

theorem toDigits_of_le (h : 10 ≤ n) : toDigits n = toDigits (n / 10) ++ [⟨n % 10, Nat.mod_lt n (by decide)⟩] := by
  rw [toDigits, Text.ofNat, Nat.toDigits_of_base_le (by decide) h, List.filterMap_append]
  exact congrArg (_ ++ ·) (congrArg Option.toList (digit?_digitChar ⟨n % 10, _⟩))

/-- **A number is written by its digits.** -/
theorem ofNat_eq_map (n : Nat) : Text.ofNat n = (toDigits n).map digitChar := by
  induction n using Nat.strong_induction_on with
  | _ n ih =>
    by_cases h : n < 10
    · rw [toDigits_of_lt h, Text.ofNat, Nat.toDigits_of_lt_base h]
      rfl
    · have hle : 10 ≤ n := Nat.le_of_not_lt h
      rw [toDigits_of_le hle, List.map_append, ← ih (n / 10) (by omega), Text.ofNat,
        Nat.toDigits_of_base_le (by decide) hle]
      rfl

theorem toDigits_ne_nil (n : Nat) : toDigits n ≠ [] := by
  by_cases h : n < 10
  · rw [toDigits_of_lt h]
    exact List.cons_ne_nil _ _
  · rw [toDigits_of_le (Nat.le_of_not_lt h)]
    simp

/-- **The digits of a number do not start with a zero**, except for the number zero. -/
theorem toDigits_head?_ne (hn : n ≠ 0) : (toDigits n).head? ≠ some 0 := by
  induction n using Nat.strong_induction_on with
  | _ n ih =>
    by_cases h : n < 10
    · rw [toDigits_of_lt h, List.head?_cons]
      intro hzero
      exact hn (congrArg Fin.val (Option.some.inj hzero))
    · rw [toDigits_of_le (Nat.le_of_not_lt h), List.head?_append_of_ne_nil _ (toDigits_ne_nil _)]
      exact ih (n / 10) (by omega) (by omega)

/-! ### What digits spell -/

theorem ofDigits_concat (ds : List Digit) (d : Digit) : ofDigits (ds ++ [d]) = 10 * ofDigits ds + d.val := by
  rw [ofDigits, List.foldl_append]
  rfl

/-- **The digits of a number spell it.** -/
theorem ofDigits_toDigits (n : Nat) : ofDigits (toDigits n) = n := by
  induction n using Nat.strong_induction_on with
  | _ n ih =>
    by_cases h : n < 10
    · rw [toDigits_of_lt h]
      exact Nat.zero_add n
    · rw [toDigits_of_le (Nat.le_of_not_lt h), ofDigits_concat, ih (n / 10) (by omega)]
      dsimp only
      omega

theorem ofDigits_pos (hne : ds ≠ []) (h : ds.head? ≠ some 0) : 0 < ofDigits ds := by
  induction ds using List.reverseRecOn with
  | nil => exact absurd rfl hne
  | append_singleton ds d ih =>
    rw [ofDigits_concat]
    by_cases hds : ds = []
    · subst hds
      have hd : d.val ≠ 0 := fun hzero => h (congrArg some (Fin.ext hzero))
      omega
    · rw [List.head?_append_of_ne_nil _ hds] at h
      have := ih hds h
      omega

/-- **Digits that do not start with a zero are the digits of what they spell.** -/
theorem toDigits_ofDigits (hne : ds ≠ []) (h : ds.head? ≠ some 0) : toDigits (ofDigits ds) = ds := by
  induction ds using List.reverseRecOn with
  | nil => exact absurd rfl hne
  | append_singleton ds d ih =>
    rw [ofDigits_concat]
    by_cases hds : ds = []
    · subst hds
      have hvalue : 10 * ofDigits [] + d.val = d.val := Nat.zero_add _
      rw [hvalue, toDigits_of_lt d.isLt]
      rfl
    · rw [List.head?_append_of_ne_nil _ hds] at h
      have hpos := ofDigits_pos hds h
      have hdiv : (10 * ofDigits ds + d.val) / 10 = ofDigits ds := by omega
      have hmod : (10 * ofDigits ds + d.val) % 10 = d.val := by omega
      rw [toDigits_of_le (by omega)]
      simp only [hdiv, hmod, ih hds h]

/-! ### Digits after a number -/

/-- The number with digits written after it. -/
def extend (n : Nat) (ds : List Digit) : Nat := ds.foldl (fun n d => 10 * n + d.val) n

theorem extend_eq (n : Nat) (ds : List Digit) : extend n ds = n * 10 ^ ds.length + ofDigits ds := by
  induction ds using List.reverseRecOn with
  | nil => simp [extend, ofDigits]
  | append_singleton ds d ih =>
    have hextend : extend n (ds ++ [d]) = 10 * extend n ds + d.val := by
      rw [extend, List.foldl_append]
      rfl
    rw [hextend, ih, ofDigits_concat, List.length_append, List.length_singleton, pow_succ]
    ring

theorem le_extend (n : Nat) (ds : List Digit) : n ≤ extend n ds := by
  rw [extend_eq]
  exact (Nat.le_mul_of_pos_right n (Nat.pow_pos (by decide))).trans (Nat.le_add_right _ _)

end EditorScaffold.Json
