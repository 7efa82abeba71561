import EditorScaffold.CommandLine.Parser
import EditorScaffold.Proofs.Json.Digits
import Mathlib.Data.List.Pairwise
import Mathlib.Data.List.TakeWhile

/-! # Options that are set one by one

An option is spelled as one argument, with its value after an equals sign (`spelled`). Taking such an argument sets the
option (`take_spelled`), and taking many of them sets one option after the other, as long as none is set again that may
be set only once (`foldlM_take_spelled`). No two options that exclude each other have been set if and only if one of
each such pair has no values (`rivals?_eq_none_iff`). -/

namespace EditorScaffold.CommandLine

variable {level : Level} {o : Opt} {v : Text} {x : Opt × Text} {ss : List (Opt × Text)} {s : Taken}

/-! ### Numbers -/

theorem digitChar_between : ∀ d : Json.Digit, '0' ≤ Json.digitChar d ∧ Json.digitChar d ≤ '9' := by decide

theorem toNat_digitChar : ∀ d : Json.Digit, (Json.digitChar d).toNat - 48 = d.val := by decide

theorem digitChar_ne_plus : ∀ d : Json.Digit, Json.digitChar d ≠ '+' := by decide

/-- Digits are read to the number that they extend, if it is below the bound. -/
theorem readDigits_map_digitChar {n : ℕ} {ds : List Json.Digit} (h : Json.extend n ds < numberBound) :
    readDigits n (ds.map Json.digitChar) = .ok (Json.extend n ds) := by
  induction ds generalizing n with
  | nil => rfl
  | cons d ds ih =>
    have hstep : Json.extend n (d :: ds) = Json.extend (10 * n + d.val) ds := rfl
    rw [hstep] at h ⊢
    rw [List.map_cons, readDigits, if_pos (digitChar_between d), toNat_digitChar]
    simp only [(Json.le_extend _ ds).trans_lt h, if_true]
    exact ih h

/-- **A number is read from its digits**, if it is below the bound. -/
theorem readNumber_ofNat {n : ℕ} (h : n < numberBound) : readNumber (Text.ofNat n) = .ok n := by
  have hvalue : Json.extend 0 (Json.toDigits n) = n := Json.ofDigits_toDigits n
  have hbound : Json.extend 0 (Json.toDigits n) < numberBound := by rwa [hvalue]
  have hread := readDigits_map_digitChar hbound
  rw [hvalue, ← Json.ofNat_eq_map] at hread
  rw [← hread]
  obtain ⟨d, ds, hds⟩ := List.exists_cons_of_ne_nil (Json.toDigits_ne_nil n)
  rw [Json.ofNat_eq_map, hds, List.map_cons]
  unfold readNumber
  split
  · next h => cases h
  · next h => exact absurd (List.cons.inj h).1 (digitChar_ne_plus d)
  · next h => exact absurd (List.cons.inj h).1 (digitChar_ne_plus d)
  · rfl

/-! ### Arguments -/

/-- **An option as an argument**, with its value after an equals sign. -/
def spelled (x : Opt × Text) : Text := '-' :: '-' :: x.1.long ++ if x.1.takesValue then '=' :: x.2 else []

/-- What can be set by an argument: the option is known, and the value is one of the option. -/
structure Settable (level : Level) (x : Opt × Text) : Prop where
  mem : x.1 ∈ level.options
  ne_help : x.1 ≠ .help
  ne_version : x.1 ≠ .version
  fault : Taken.valueFault? x.1 x.2 = none
  flag : x.1.takesValue = false → x.2 = []

/-- Two settings can stand beside each other: they are of different options, or of one that may be repeated. -/
def Compatible (x y : Opt × Text) : Prop := x.1 = y.1 → x.1.repeatable = true

theorem long?_long (h : o ∈ level.options) : level.long? o.long = some o := by
  revert h
  cases level with
  | top => cases o <;> decide
  | verb w => cases w <;> cases o <;> decide

theorem equals_notMem_long (o : Opt) : '=' ∉ o.long := by cases o <;> decide

namespace Taken

theorem take_long {body : Text} (hs : s.trailing = false) (hbody : body ≠ []) :
    s.take level ('-' :: '-' :: body) = s.takeLong level body := by
  obtain ⟨c, body, rfl⟩ := List.exists_cons_of_ne_nil hbody
  unfold take
  rw [if_neg (by rw [hs]; exact Bool.false_ne_true)]
  rfl

/-- A long argument is taken as its option, with the value after the equals sign. -/
theorem takeLong_spelled (h : x.1 ∈ level.options) :
    s.takeLong level (x.1.long ++ if x.1.takesValue then '=' :: x.2 else []) =
      s.takeOption level x.1 (if x.1.takesValue then some x.2 else none) := by
  have hlong : ∀ c ∈ x.1.long, decide (c ≠ '=') = true := fun c hc =>
    decide_eq_true fun heq => equals_notMem_long x.1 (heq ▸ hc)
  cases hvalue : x.1.takesValue with
  | true =>
    have hname : (x.1.long ++ '=' :: x.2).takeWhile (· ≠ '=') = x.1.long := by
      rw [List.takeWhile_append_of_pos hlong, List.takeWhile_cons_of_neg (by simp), List.append_nil]
    have hlt : x.1.long.length < (x.1.long ++ '=' :: x.2).length := by simp
    have hdrop : (x.1.long ++ '=' :: x.2).drop (x.1.long.length + 1) = x.2 := by
      rw [List.drop_length_add_append]
      rfl
    simp only [if_true, takeLong, hname, long?_long h, if_pos hlt, hdrop]
  | false =>
    have hname : x.1.long.takeWhile (· ≠ '=') = x.1.long := List.takeWhile_eq_self_iff.2 hlong
    simp only [Bool.false_eq_true, if_false, List.append_nil, takeLong, hname, long?_long h, Nat.lt_irrefl]

theorem set_of_settable (hx : Settable level x) (hfree : s.has x.1 = true → x.1.repeatable = true) :
    s.set level x.1 x.2 = .ok { s with settings := s.settings ++ [x] } := by
  have hhas : ¬ (s.has x.1 && !x.1.repeatable) = true := by
    rw [Bool.and_eq_true, Bool.not_eq_true']
    exact fun h => Bool.false_ne_true (h.2.symm.trans (hfree h.1))
  unfold set
  split
  · exact absurd ‹_› hx.ne_help
  · exact absurd ‹_› hx.ne_version
  · simp only [if_neg hhas, hx.fault]

/-- **An argument sets its option.** -/
theorem take_spelled (hx : Settable level x) (hfree : ∀ y ∈ ss, Compatible y x) :
    take level { settings := ss } (spelled x) = .ok { settings := ss ++ [x] } := by
  have hhas : ({ settings := ss } : Taken).has x.1 = true → x.1.repeatable = true := by
    intro h
    obtain ⟨y, hy, hyx⟩ := List.any_eq_true.1 h
    have heq : y.1 = x.1 := of_decide_eq_true hyx
    exact heq ▸ hfree y hy heq
  have hset := set_of_settable (s := { settings := ss }) hx hhas
  have hlong : x.1.long ≠ [] := by cases x.1 <;> decide
  have hbody : (x.1.long ++ if x.1.takesValue then '=' :: x.2 else []) ≠ [] :=
    List.append_ne_nil_of_left_ne_nil hlong _
  have htake : take level { settings := ss } (spelled x) = takeLong level { settings := ss } _ := take_long rfl hbody
  refine htake.trans ((takeLong_spelled hx.mem).trans ?_)
  unfold takeOption
  cases hvalue : x.1.takesValue with
  | true => exact hset
  | false =>
    rw [hx.flag hvalue] at hset
    exact hset

/-- **Arguments set their options in their order.** -/
theorem foldlM_take_spelled {done : List (Opt × Text)} (hss : ∀ x ∈ ss, Settable level x)
    (hpair : (done ++ ss).Pairwise Compatible) :
    (ss.map spelled).foldlM (take level) { settings := done } = .ok { settings := done ++ ss } := by
  induction ss generalizing done with
  | nil =>
    rw [List.append_nil]
    rfl
  | cons x ss ih =>
    obtain ⟨hx, hss⟩ := List.forall_mem_cons.1 hss
    have hfree : ∀ y ∈ done, Compatible y x := fun y hy =>
      (List.pairwise_append.1 hpair).2.2 y hy x List.mem_cons_self
    have hlist : done ++ x :: ss = (done ++ [x]) ++ ss := by simp
    rw [hlist] at hpair ⊢
    rw [List.map_cons, List.foldlM_cons, take_spelled hx hfree]
    exact ih hss hpair

/-! ### What has been set -/

theorem mem_values : v ∈ s.values o ↔ (o, v) ∈ s.settings := by
  simp [values]

theorem values_ne_nil_of_mem (h : (o, v) ∈ s.settings) : s.values o ≠ [] :=
  List.ne_nil_of_mem (mem_values.2 h)

theorem exists_mem_of_values_ne_nil (h : s.values o ≠ []) : ∃ v, (o, v) ∈ s.settings := by
  obtain ⟨v, hv⟩ := List.exists_mem_of_ne_nil _ h
  exact ⟨v, mem_values.1 hv⟩

theorem has_iff : s.has o = true ↔ s.values o ≠ [] := by
  rw [has, List.any_eq_true]
  constructor
  · rintro ⟨⟨p, v⟩, hx, hp⟩
    obtain rfl : p = o := of_decide_eq_true hp
    exact values_ne_nil_of_mem hx
  · intro h
    obtain ⟨v, hv⟩ := exists_mem_of_values_ne_nil h
    exact ⟨(o, v), hv, decide_eq_true rfl⟩

theorem has_eq_false_iff : s.has o = false ↔ s.values o = [] := by
  rw [← Bool.not_eq_true, has_iff, not_not]

/-- **Options that exclude each other** have not both been set if and only if one of them has no values. -/
theorem rivals?_eq_none_iff (s : Taken) :
    s.rivals? = none ↔
      (s.values .skip = [] ∨ s.values .only = []) ∧ (s.values .stdout = [] ∨ s.values .output = []) := by
  have hstep : s.rivals? = none ↔ ∀ x ∈ s.settings, ∀ r, x.1.rival? = some r → s.values r = [] := by
    unfold rivals?
    rw [List.findSome?_eq_none_iff]
    refine forall₂_congr fun ⟨p, v⟩ _ => ?_
    cases hrival : p.rival? <;> simp [hrival, has_eq_false_iff]
  rw [hstep]
  constructor
  · intro h
    refine ⟨or_iff_not_imp_left.2 fun hne => ?_, or_iff_not_imp_left.2 fun hne => ?_⟩ <;>
      obtain ⟨v, hv⟩ := exists_mem_of_values_ne_nil hne
    · exact h _ hv _ rfl
    · exact h _ hv _ rfl
  · rintro ⟨hnames, hplace⟩ ⟨p, v⟩ hx r hr
    have hne := values_ne_nil_of_mem hx
    cases p with
    | skip => cases hr; exact hnames.resolve_left hne
    | only => cases hr; exact hnames.resolve_right hne
    | stdout => cases hr; exact hplace.resolve_left hne
    | output => cases hr; exact hplace.resolve_right hne
    | _ => cases hr

end Taken

end EditorScaffold.CommandLine
