import EditorScaffold.Text.Lines
import Mathlib.Order.Bounds.Basic

/-! # Where lines start

A line of a text starts at offset `0` and right after each newline. `exists_startsLine_iff` ties these
offsets to the list of lines: a line starts with `p` at some offset if and only if one of the lines starts
with `p`. Facts about offsets are proved along the lines of a text (`lines_induction`): the first line is
cut off, and every other offset is moved by its length and the newline. The first offset of a kind stays
where it is when lines follow (`isLeast_startsLine_append`), and is moved by the lines put before it
(`isLeast_startsLine_prepend`). -/

namespace EditorScaffold.Text

/-- A line starts at the offset `i`. -/
def IsLineStart (t : Text) (i : ℕ) : Prop := i = 0 ∨ ∃ j, i = j + 1 ∧ t[j]? = some '\n'

/-- A line starts at the offset `i` and begins with `p`. -/
def StartsLine (p t : Text) (i : ℕ) : Prop := IsLineStart t i ∧ p <+: t.drop i

/-! ### Along the lines -/

/-- A list is free of `a`, or what comes before the first `a` and a rest. -/
@[elab_as_elim] theorem cut_induction {α : Type} (a : α) {motive : List α → Prop} (t : List α)
    (last : ∀ l, a ∉ l → motive l) (cut : ∀ l t, a ∉ l → motive t → motive (l ++ a :: t)) : motive t := by
  induction h : t.length using Nat.strong_induction_on generalizing t with
  | _ n ih =>
    by_cases hn : a ∈ t
    · obtain ⟨l, r, rfl, hl⟩ := List.eq_append_cons_of_mem hn
      have hr : r.length < n := by rw [← h, List.length_append, List.length_cons]; omega
      exact cut l r hl (ih r.length hr r rfl)
    · exact last t hn

/-- Lists that are equal are cut in the same way at the first `a`. -/
theorem eq_of_append_cons_eq {α : Type} {a : α} {xs ys us vs : List α} (hx : a ∉ xs) (hy : a ∉ ys)
    (h : xs ++ a :: us = ys ++ a :: vs) : xs = ys ∧ us = vs := by
  induction xs generalizing ys with
  | nil =>
    cases ys with
    | nil => exact ⟨rfl, List.tail_eq_of_cons_eq h⟩
    | cons y ys =>
      rw [List.head_eq_of_cons_eq h] at hy
      exact absurd List.mem_cons_self hy
  | cons x xs ih =>
    cases ys with
    | nil =>
      rw [← List.head_eq_of_cons_eq h] at hx
      exact absurd List.mem_cons_self hx
    | cons y ys =>
      obtain ⟨rfl, htail⟩ := List.cons.inj h
      obtain ⟨rfl, rfl⟩ := ih (fun hm => hx (List.mem_cons_of_mem _ hm))
        (fun hm => hy (List.mem_cons_of_mem _ hm)) htail
      exact ⟨rfl, rfl⟩

/-- **Induction along the lines**: a text is its only line, or a first line before a newline and a rest. -/
@[elab_as_elim] theorem lines_induction {motive : Text → Prop} (t : Text) (last : ∀ l, '\n' ∉ l → motive l)
    (cut : ∀ l t, '\n' ∉ l → motive t → motive (l ++ '\n' :: t)) : motive t :=
  cut_induction '\n' t last cut

theorem lines_cut {l : Text} (hl : '\n' ∉ l) (t : Text) : lines (l ++ '\n' :: t) = l :: lines t := by
  rw [lines_append_newline, lines_of_notMem hl]
  rfl

theorem isLineStart_of_notMem {l : Text} (hl : '\n' ∉ l) {i : ℕ} : IsLineStart l i ↔ i = 0 := by
  constructor
  · rintro (rfl | ⟨j, rfl, hj⟩)
    · rfl
    · exact absurd (List.mem_of_getElem? hj) hl
  · exact Or.inl

/-- After the first line, lines start where they start in the rest. -/
theorem isLineStart_cut {l : Text} (hl : '\n' ∉ l) {t : Text} {i : ℕ} :
    IsLineStart (l ++ '\n' :: t) i ↔ i = 0 ∨ ∃ k, i = l.length + 1 + k ∧ IsLineStart t k := by
  constructor
  · rintro (rfl | ⟨j, rfl, hj⟩)
    · exact Or.inl rfl
    · right
      rcases Nat.lt_trichotomy j l.length with h | h | h
      · rw [List.getElem?_append_left h] at hj
        exact absurd (List.mem_of_getElem? hj) hl
      · exact ⟨0, by omega, Or.inl rfl⟩
      · rw [List.getElem?_append_right (by omega)] at hj
        obtain ⟨k, hk⟩ : ∃ k, j = l.length + 1 + k := ⟨j - l.length - 1, by omega⟩
        have hjk : j - l.length = k + 1 := by omega
        rw [hjk, List.getElem?_cons_succ] at hj
        exact ⟨k + 1, by omega, Or.inr ⟨k, rfl, hj⟩⟩
  · rintro (rfl | ⟨k, rfl, rfl | ⟨j, rfl, hj⟩⟩)
    · exact Or.inl rfl
    · exact Or.inr ⟨l.length, by omega, by simp⟩
    · refine Or.inr ⟨l.length + 1 + j, by omega, ?_⟩
      rw [List.getElem?_append_right (by omega)]
      have hjk : l.length + 1 + j - l.length = j + 1 := by omega
      rw [hjk, List.getElem?_cons_succ]
      exact hj

theorem drop_cut (l t : Text) (k : ℕ) : (l ++ '\n' :: t).drop (l.length + 1 + k) = t.drop k := by
  rw [Nat.add_assoc, List.drop_length_add_append, Nat.add_comm 1 k, List.drop_succ_cons]

/-- What has no newline begins a line if and only if it begins the text from there. -/
theorem prefix_cut {p l t : Text} (hp : '\n' ∉ p) : p <+: l ++ '\n' :: t ↔ p <+: l := by
  constructor
  · intro h
    by_cases hle : p.length ≤ l.length
    · exact List.prefix_of_prefix_length_le h (List.prefix_append l _) hle
    · have hl : l <+: p := List.prefix_of_prefix_length_le (List.prefix_append l _) h (by omega)
      obtain ⟨r, rfl⟩ := hl
      obtain ⟨c, r, rfl⟩ : ∃ c r', r = c :: r' := List.exists_cons_of_ne_nil (by rintro rfl; simp at hle)
      rw [List.prefix_append_right_inj, List.cons_prefix_cons] at h
      exact absurd (by simp [h.1]) hp
  · intro h
    exact h.trans (List.prefix_append l _)

/-! ### Offsets and lines -/

theorem startsLine_of_notMem {p l : Text} (hl : '\n' ∉ l) {i : ℕ} :
    StartsLine p l i ↔ i = 0 ∧ p <+: l := by
  unfold StartsLine
  rw [isLineStart_of_notMem hl]
  constructor
  · rintro ⟨rfl, h⟩; exact ⟨rfl, h⟩
  · rintro ⟨rfl, h⟩; exact ⟨rfl, h⟩

theorem startsLine_cut {p l t : Text} (hp : '\n' ∉ p) (hl : '\n' ∉ l) {i : ℕ} :
    StartsLine p (l ++ '\n' :: t) i ↔
      i = 0 ∧ p <+: l ∨ ∃ k, i = l.length + 1 + k ∧ StartsLine p t k := by
  unfold StartsLine
  rw [isLineStart_cut hl]
  constructor
  · rintro ⟨rfl | ⟨k, rfl, hk⟩, h⟩
    · exact Or.inl ⟨rfl, (prefix_cut hp).1 h⟩
    · rw [drop_cut] at h
      exact Or.inr ⟨k, rfl, hk, h⟩
  · rintro (⟨rfl, h⟩ | ⟨k, rfl, hk, h⟩)
    · exact ⟨Or.inl rfl, (prefix_cut hp).2 h⟩
    · rw [drop_cut]
      exact ⟨Or.inr ⟨k, rfl, hk⟩, h⟩

/-- **Offsets and lines agree**: a line begins with `p` at some offset if and only if one of the lines
begins with `p`. -/
theorem exists_startsLine_iff {p : Text} (hp : '\n' ∉ p) (t : Text) :
    (∃ i, StartsLine p t i) ↔ ∃ l ∈ lines t, p <+: l := by
  induction t using lines_induction with
  | last l hl => simp [startsLine_of_notMem hl, lines_of_notMem hl]
  | cut l t hl ih =>
    rw [lines_cut hl]
    simp only [startsLine_cut hp hl, List.mem_cons, exists_eq_or_imp]
    rw [← ih]
    constructor
    · rintro ⟨i, ⟨-, h⟩ | ⟨k, -, hk⟩⟩
      · exact Or.inl h
      · exact Or.inr ⟨k, hk⟩
    · rintro (h | ⟨k, hk⟩)
      · exact ⟨0, Or.inl ⟨rfl, h⟩⟩
      · exact ⟨_, Or.inr ⟨k, rfl, hk⟩⟩

/-! ### Lines before and after -/

theorem IsLineStart.le_length {t : Text} {i : ℕ} (h : IsLineStart t i) : i ≤ t.length := by
  rcases h with rfl | ⟨j, rfl, hj⟩
  · exact Nat.zero_le _
  · exact (List.getElem?_eq_some_iff.1 hj).1

/-- Before a newline lines start as they do without what follows, and after it as in what follows. -/
theorem startsLine_append_newline {p : Text} (hp : '\n' ∉ p) (s t : Text) {i : ℕ} :
    StartsLine p (s ++ '\n' :: t) i ↔ StartsLine p s i ∨ ∃ k, i = s.length + 1 + k ∧ StartsLine p t k := by
  induction s using lines_induction generalizing i with
  | last l hl => rw [startsLine_cut hp hl, startsLine_of_notMem hl]
  | cut l s hl ih =>
    have hlen : (l ++ '\n' :: s).length = l.length + 1 + s.length := by
      rw [List.length_append, List.length_cons]; omega
    rw [List.append_assoc, List.cons_append, startsLine_cut hp hl, startsLine_cut hp hl, hlen, or_assoc]
    refine or_congr_right ⟨?_, ?_⟩
    · rintro ⟨k, rfl, hk⟩
      rcases ih.1 hk with hs | ⟨m, rfl, ht⟩
      · exact Or.inl ⟨k, rfl, hs⟩
      · exact Or.inr ⟨m, by omega, ht⟩
    · rintro (⟨k, rfl, hs⟩ | ⟨m, rfl, ht⟩)
      · exact ⟨k, rfl, ih.2 (Or.inl hs)⟩
      · exact ⟨s.length + 1 + m, by omega, ih.2 (Or.inr ⟨m, rfl, ht⟩)⟩

/-- The first start of a line stays the first one, whatever lines follow. -/
theorem isLeast_startsLine_append {p : Text} (hp : '\n' ∉ p) {s : Text} {k : ℕ}
    (h : IsLeast {i | StartsLine p s i} k) (t : Text) :
    IsLeast {i | StartsLine p (s ++ '\n' :: t) i} k := by
  refine ⟨(startsLine_append_newline hp s t).2 (Or.inl h.1), fun i hi => ?_⟩
  rcases (startsLine_append_newline hp s t).1 hi with hs | ⟨m, rfl, -⟩
  · exact h.2 hs
  · have := h.1.1.le_length
    omega

/-- The first start of a line is moved by the lines put before it, if none of them starts so. -/
theorem isLeast_startsLine_prepend {p : Text} (hp : '\n' ∉ p) {s t : Text} {k : ℕ}
    (hs : ¬ ∃ i, StartsLine p s i) (h : IsLeast {i | StartsLine p t i} k) :
    IsLeast {i | StartsLine p (s ++ '\n' :: t) i} (s.length + 1 + k) := by
  refine ⟨(startsLine_append_newline hp s t).2 (Or.inr ⟨k, rfl, h.1⟩), fun i hi => ?_⟩
  rcases (startsLine_append_newline hp s t).1 hi with hi | ⟨m, rfl, hm⟩
  · exact absurd ⟨i, hi⟩ hs
  · have := h.2 hm
    omega

/-- What comes before a start of a line is nothing, or ends in a newline. -/
theorem IsLineStart.eq_nil_or_concat {s t : Text} (h : IsLineStart (s ++ t) s.length) :
    s = [] ∨ ∃ r, s = r ++ ['\n'] := by
  rcases List.eq_nil_or_concat s with rfl | ⟨r, c, hs⟩
  · exact Or.inl rfl
  · rw [List.concat_eq_append] at hs
    subst hs
    rcases h with h | ⟨j, hj, hget⟩
    · simp at h
    · have hjr : j = r.length := by simpa using hj.symm
      rw [hjr, List.append_assoc, List.getElem?_append_right le_rfl, Nat.sub_self] at hget
      obtain rfl : c = '\n' := Option.some.inj hget
      exact Or.inr ⟨r, rfl⟩

end EditorScaffold.Text
