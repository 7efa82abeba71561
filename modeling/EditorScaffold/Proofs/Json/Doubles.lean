import EditorScaffold.Proofs.Decimal.Shortest
import EditorScaffold.Proofs.Json.Magnitudes
import EditorScaffold.Proofs.Json.Numerals

/-! # The text of a double is a numeral with a value

A double is written with its shortest digits, the point among them or behind them, or with an exponent. Either way the
text is that of a numeral (`exists_numeral_of_double`), and the numeral has a value, although reading rounds three
times: only the three largest doubles come near the end of the range. -/

namespace EditorScaffold.Json

variable {ds : List Digit} {p : Int}

/-! ### Digits -/

/-- The zeros at the end of a number are counted. -/
theorem stripZeros_spec (rs : List Digit) (n : Nat) :
    ∃ (ds : List Digit) (z : Nat), rs = List.replicate z 0 ++ ds.reverse ∧
      Binary64.stripZeros (rs.map digitChar) n = (ds.map digitChar, n + z) := by
  induction rs generalizing n with
  | nil => exact ⟨[], 0, rfl, rfl⟩
  | cons d rs ih =>
    by_cases hd : d = 0
    · subst hd
      obtain ⟨ds, z, hrs, hstrip⟩ := ih (n + 1)
      refine ⟨ds, z + 1, by rw [hrs]; rfl, ?_⟩
      show Binary64.stripZeros (rs.map digitChar) (n + 1) = _
      rw [hstrip, Nat.add_right_comm, Nat.add_assoc]
    · refine ⟨(d :: rs).reverse, 0, by simp, ?_⟩
      rw [List.map_cons, Binary64.stripZeros]
      · simp
      · intro _ h
        exact hd ((digitChar_eq_zero_iff d).1 (List.cons.inj h).1)

theorem ofDigits_lt (ds : List Digit) : ofDigits ds < 10 ^ ds.length := by
  induction ds using List.reverseRecOn with
  | nil => exact Nat.one_pos
  | append_singleton ds d ih =>
    have := d.isLt
    rw [ofDigits_concat, List.length_append, List.length_singleton, pow_succ]
    omega

theorem ofDigits_lt_wordBound (h : ds.length ≤ 16) : ofDigits ds < Numeral.wordBound :=
  (ofDigits_lt ds).trans_le ((Nat.pow_le_pow_right (by decide) h).trans (by decide))

theorem ofNat_ofDigits (hne : ds ≠ []) (hhead : ds.head? ≠ some 0) : Text.ofNat (ofDigits ds) = ds.map digitChar := by
  rw [ofNat_eq_map, toDigits_ofDigits hne hhead]

/-! ### Forms -/

/-- A numeral without an exponent has a value if its whole part is small. -/
theorem isSome_number?_of_whole {n : Numeral} (hwhole : n.whole < Numeral.wordBound) (he : n.exponent = none) :
    n.number?.isSome := by
  obtain ⟨used, rest, -, hleading, hlt⟩ := Numeral.leading_spec hwhole
  refine Numeral.isSome_number? (Numeral.isSome_magnitude?_of_nonpos ?_ ?_) <;> rw [hleading]
  · exact hlt
  · rw [he, Option.getD_none]
    dsimp only
    omega

/-- **Digits with the point near them** are a numeral with a value. -/
theorem exists_numeral_positional (negative : Bool) (hne : ds ≠ []) (hhead : ds.head? ≠ some 0) (hlow : -4 ≤ p)
    (hhigh : p ≤ 16) :
    ∃ n : Numeral, n.negative = negative ∧ n.unsigned = Number.style.place (ds.map digitChar) p ∧ n.number?.isSome := by
  have hstyle : ¬ (p < Number.style.lowest ∨ Number.style.highest < p) := by
    rw [not_or, not_lt, not_lt]
    exact ⟨hlow, hhigh⟩
  unfold DecimalStyle.place
  rw [if_neg hstyle]
  by_cases hp : p ≤ 0
  · rw [if_pos hp]
    refine ⟨⟨negative, 0, List.replicate (-p).toNat 0 ++ ds, none⟩, rfl, ?_,
      isSome_number?_of_whole Numeral.wordBound_pos rfl⟩
    have hfraction : List.replicate (-p).toNat 0 ++ ds ≠ [] := by simp [hne]
    simp only [Numeral.unsigned, fractionText, if_neg hfraction, exponentText, List.map_append, List.map_replicate,
      List.append_nil, List.append_assoc]
    rfl
  rw [if_neg hp]
  obtain ⟨n, rfl⟩ := Int.eq_ofNat_of_zero_le (not_le.1 hp).le
  rw [Int.toNat_natCast, List.length_map]
  by_cases hlen : ds.length ≤ n
  · rw [if_pos hlen]
    have hlength : (ds ++ List.replicate (n - ds.length) 0).length ≤ 16 := by
      rw [List.length_append, List.length_replicate]
      omega
    refine ⟨⟨negative, ofDigits (ds ++ List.replicate (n - ds.length) 0), [0], none⟩, rfl, ?_,
      isSome_number?_of_whole (ofDigits_lt_wordBound hlength) rfl⟩
    have hwhole : Text.ofNat (ofDigits (ds ++ List.replicate (n - ds.length) 0)) = _ :=
      ofNat_ofDigits (by simp [hne]) (by rwa [List.head?_append_of_ne_nil _ hne])
    rw [Numeral.unsigned, hwhole, List.map_append, List.map_replicate]
    rfl
  · rw [if_neg hlen]
    have hlength : (ds.take n).length ≤ 16 := by
      rw [List.length_take]
      omega
    have htake : ds.take n ≠ [] := by simp [hne]; omega
    have hdrop : ds.drop n ≠ [] := by simpa using hlen
    refine ⟨⟨negative, ofDigits (ds.take n), ds.drop n, none⟩, rfl, ?_,
      isSome_number?_of_whole (ofDigits_lt_wordBound hlength) rfl⟩
    have hwhole : Text.ofNat (ofDigits (ds.take n)) = _ :=
      ofNat_ofDigits htake (by rwa [List.head?_take, if_neg (by omega)])
    rw [Numeral.unsigned, hwhole, fractionText, if_neg hdrop, List.map_take, List.map_drop, exponentText,
      List.append_nil]

theorem unsigned_scientific (negative : Bool) (d : Digit) (ds : List Digit)
    (h : p < Number.style.lowest ∨ Number.style.highest < p) :
    (⟨negative, d.val, ds, some (p - 1)⟩ : Numeral).unsigned = Number.style.place ((d :: ds).map digitChar) p := by
  have hwhole : Text.ofNat d.val = [digitChar d] := by rw [ofNat_eq_map, toDigits_of_lt d.isLt]; rfl
  unfold DecimalStyle.place
  rw [if_pos h, Numeral.unsigned]
  dsimp only
  rw [hwhole]
  cases ds <;> simp [fractionText, exponentText]

/-- Digits that are left out make a number smaller. -/
theorem extend_mul_le (n : Nat) (ds es : List Digit) : extend n ds * 10 ^ es.length ≤ extend n (ds ++ es) := by
  have happend : extend n (ds ++ es) = extend (extend n ds) es := List.foldl_append
  rw [happend, extend_eq (extend n ds)]
  exact Nat.le_add_right _ _

/-- **Digits with an exponent** are a numeral with a value, if the decimal they spell leaves room. -/
theorem isSome_number?_scientific {b : Binary64} (hb : b.IsFinite)
    (hroom : b.exponent ≤ 970 ∨ b.mantissa ≤ 2 ^ 53 - 4) (negative : Bool) {d : Digit} (hd : d ≠ 0) {z : Nat} {k : Int}
    (hvalue : (ofDigits (d :: ds ++ List.replicate z 0) : ℚ) * 10 ^ k ≤ (b.mantissa + 1 / 2) * 2 ^ b.exponent) :
    (⟨negative, d.val, ds, some ((d :: ds).length + z + k - 1)⟩ : Numeral).number?.isSome := by
  have hwhole : d.val < Numeral.wordBound := d.isLt.trans (by decide)
  refine Numeral.isSome_number? ?_
  obtain ⟨used, rest, hfraction, hleading, hlt⟩ :=
    Numeral.leading_spec (n := ⟨negative, d.val, ds, some ((d :: ds).length + z + k - 1)⟩) hwhole
  dsimp only at hfraction hleading hlt
  by_cases hscale : ((some ((d :: ds).length + z + k - 1 : Int)).getD 0 - used.length : Int) ≤ 0
  · refine Numeral.isSome_magnitude?_of_nonpos ?_ ?_ <;> rw [hleading]
    · exact hlt
    · exact hscale
  have hpower : ((some ((d :: ds).length + z + k - 1 : Int)).getD 0 - used.length : Int) =
      ((rest ++ List.replicate z 0 : List Digit).length : Int) + k := by
    subst hfraction
    simp only [Option.getD_some, List.length_cons, List.length_append, List.length_replicate]
    push_cast
    ring
  have hpos : 0 < extend d.val used := lt_of_lt_of_le (Nat.pos_of_ne_zero fun h => hd (Fin.ext h)) (le_extend _ _)
  have hlead := extend_mul_le d.val used (rest ++ List.replicate z 0)
  have hall : extend d.val (used ++ (rest ++ List.replicate z 0)) = ofDigits (d :: ds ++ List.replicate z 0) := by
    rw [← List.append_assoc, ← hfraction]
    show _ = extend (10 * 0 + d.val) _
    rw [Nat.mul_zero, Nat.zero_add]
    rfl
  rw [hall] at hlead
  refine Numeral.isSome_magnitude?_of_pos ?_ ?_ ?_ ?_ <;> rw [hleading]
  · exact hlt
  · exact hpos
  · exact (not_le.1 hscale).le
  · refine lt_of_le_of_lt (mul_le_mul_of_nonneg_right ?_ (by norm_num)) (Binary64.near_lt_bound hb hroom)
    refine le_trans ?_ hvalue
    dsimp only
    rw [hpower, zpow_add₀ (by norm_num), zpow_natCast, ← mul_assoc]
    exact mul_le_mul_of_nonneg_right (by exact_mod_cast hlead) (zpow_pos (by norm_num) k).le

/-! ### Doubles -/

/-- **Digits are written as a numeral with a value**, if the decimal they spell leaves room. -/
theorem exists_numeral_of_digits (negative : Bool) {b : Binary64} (hb : b.IsFinite)
    (hroom : b.exponent ≤ 970 ∨ b.mantissa ≤ 2 ^ 53 - 4) {d : Nat} {k : Int} (hd : d ≠ 0)
    (hvalue : (d : ℚ) * 10 ^ k ≤ (b.mantissa + 1 / 2) * 2 ^ b.exponent) :
    ∃ n : Numeral, n.negative = negative ∧
      n.unsigned = (let (ds, zeros) := Binary64.stripZeros (Text.ofNat d).reverse 0
        Number.style.place ds (ds.length + zeros + k)) ∧ n.number?.isSome := by
  obtain ⟨ds, z, hrs, hstrip⟩ := stripZeros_spec (toDigits d).reverse 0
  have hdigits : toDigits d = ds ++ List.replicate z 0 := by
    have := congrArg List.reverse hrs
    rwa [List.reverse_reverse, List.reverse_append, List.reverse_reverse, List.reverse_replicate] at this
  have hhead := toDigits_head?_ne hd
  have hne : ds ≠ [] := by
    rintro rfl
    obtain ⟨e, es, hcons⟩ := List.exists_cons_of_ne_nil (toDigits_ne_nil d)
    have he : e = 0 := List.eq_of_mem_replicate (by rw [← List.nil_append (List.replicate z 0), ← hdigits, hcons]; simp)
    exact hhead (by rw [hcons, he]; rfl)
  obtain ⟨e, es, rfl⟩ := List.exists_cons_of_ne_nil hne
  rw [hdigits, List.cons_append, List.head?_cons] at hhead
  rw [ofNat_eq_map, ← List.map_reverse, hstrip, Nat.zero_add]
  dsimp only
  rw [List.length_map]
  by_cases hstyle : ((e :: es).length + z + k : Int) < Number.style.lowest ∨
      Number.style.highest < ((e :: es).length + z + k : Int)
  · refine ⟨_, rfl, unsigned_scientific negative e es hstyle, ?_⟩
    refine isSome_number?_scientific hb hroom negative (fun h => hhead (congrArg some h)) ?_
    rwa [← hdigits, ofDigits_toDigits]
  · rw [not_or, not_lt, not_lt] at hstyle
    exact exists_numeral_positional negative hne hhead hstyle.1 hstyle.2

/-- The three largest doubles have values in spite of the roundings. -/
theorem exists_numeral_of_largest (negative : Bool) {m : Nat} (hlow : 2 ^ 53 - 4 < m) (hhigh : m < 2 ^ 53) :
    ∃ n : Numeral, n.negative = negative ∧ n.unsigned = Number.style.write ⟨m, 971⟩ ∧ n.number?.isSome := by
  have hcases : m = 9007199254740989 ∨ m = 9007199254740990 ∨ m = 9007199254740991 := by omega
  obtain rfl | rfl | rfl := hcases
  · refine ⟨⟨negative, 1, [7, 9, 7, 6, 9, 3, 1, 3, 4, 8, 6, 2, 3, 1, 5, 3], some 308⟩, rfl, ?_⟩
    cases negative <;> decide +kernel
  · refine ⟨⟨negative, 1, [7, 9, 7, 6, 9, 3, 1, 3, 4, 8, 6, 2, 3, 1, 5, 5], some 308⟩, rfl, ?_⟩
    cases negative <;> decide +kernel
  · refine ⟨⟨negative, 1, [7, 9, 7, 6, 9, 3, 1, 3, 4, 8, 6, 2, 3, 1, 5, 7], some 308⟩, rfl, ?_⟩
    cases negative <;> decide +kernel

/-- **A double is written as a numeral with a value.** -/
theorem exists_numeral_of_double (negative : Bool) {b : Binary64} (hb : b.IsFinite) :
    ∃ n : Numeral, n.negative = negative ∧ n.unsigned = Number.style.write b ∧ n.number?.isSome := by
  by_cases hroom : b.exponent ≤ 970 ∨ b.mantissa ≤ 2 ^ 53 - 4
  swap
  · obtain ⟨m, e⟩ := b
    obtain rfl : e = 971 := by have := hb.exponent; dsimp only at *; omega
    exact exists_numeral_of_largest negative (by dsimp only at hroom; omega) hb.mantissa
  have hzero : ∃ n : Numeral, n.negative = negative ∧ n.unsigned = "0.0".toList ∧ n.number?.isSome :=
    ⟨⟨negative, 0, [0], none⟩, rfl, by cases negative <;> decide +kernel,
      isSome_number?_of_whole Numeral.wordBound_pos rfl⟩
  unfold DecimalStyle.write
  by_cases hb0 : b.mantissa = 0
  · rwa [if_pos hb0]
  rw [if_neg hb0]
  obtain hnone | ⟨hpos, hvalue⟩ := Binary64.digits_spec hb0
  · rw [hnone]
    exact hzero
  · exact exists_numeral_of_digits negative hb hroom (Nat.pos_iff_ne_zero.1 hpos) hvalue

/-- **The value of a numeral is written as a numeral with a value.** -/
theorem exists_rewritten {n : Numeral} (h : n.number?.isSome) :
    ∃ m : Numeral, m.text = numberText n ∧ m.number?.isSome := by
  by_cases hwhole : n.fraction = [] ∧ n.exponent = none ∧ n.whole < Numeral.wordBound ∧
      (n.negative → 0 < n.whole ∧ n.whole ≤ Nat.pow 2 63)
  · refine ⟨n, ?_, h⟩
    have hnumber : n.number? = some (if n.negative then .negative n.whole else .natural n.whole) := if_pos hwhole
    rw [numberText, hnumber]
    show n.text = Number.text _
    rw [Numeral.text_eq, Numeral.unsigned, hwhole.1, hwhole.2.1]
    cases n.negative <;> simp [fractionText, exponentText, Number.text]
  · have hnumber : n.number? = n.magnitude?.map (.double n.negative) := if_neg hwhole
    rw [hnumber, Option.isSome_map] at h
    obtain ⟨b, hb⟩ := Option.isSome_iff_exists.1 h
    obtain ⟨m, hnegative, hunsigned, hvalue⟩ :=
      exists_numeral_of_double n.negative (Numeral.isFinite_of_magnitude? hb)
    refine ⟨m, ?_, hvalue⟩
    rw [numberText, hnumber, hb, Numeral.text_eq, hnegative, hunsigned]
    rfl

end EditorScaffold.Json
