import EditorScaffold.Path
import Mathlib.Data.List.DropRight

/-! # The parts of a path that count

Parts that are empty or a dot lead nowhere; the others are the names of a path, `..` among them. The parent
of a path whose last part counts has all its names but the last (`parent?_eq_some`), is shorter, and ends in
a part that counts or has no names at all, so that parents can be taken one after the other. -/

namespace EditorScaffold.Path

/-- The last part counts, or none does. -/
def IsTidy (p : Text) : Prop :=
  names p = [] ∨ ∃ way x, pieces p = way ++ [x] ∧ isVoid x = false

/-! ### Parts -/

theorem pieces_ne_nil (p : Text) : pieces p ≠ [] := Text.splitAt_ne_nil '/' p

theorem slash_notMem_of_mem_pieces {p x : Text} (h : x ∈ pieces p) : '/' ∉ x := Text.notMem_of_mem_splitAt h

theorem joinWith_pieces (p : Text) : Text.joinWith '/' (pieces p) = p := Text.joinWith_splitAt '/' p

theorem pieces_joinWith {ps : List Text} (hne : ps ≠ []) (h : ∀ x ∈ ps, '/' ∉ x) :
    pieces (Text.joinWith '/' ps) = ps := Text.splitAt_joinWith hne h

theorem pieces_slash (p : Text) : pieces ('/' :: p) = [] :: pieces p := Text.splitAt_append_cons '/' [] p

theorem pieces_dot_slash (p : Text) : pieces ('.' :: '/' :: p) = ['.'] :: pieces p :=
  Text.splitAt_append_cons '/' ['.'] p

/-- A path ends in a slash where its last part is empty. -/
theorem getLast?_eq_slash_iff {p x : Text} {way : List Text} (hne : p ≠ []) (h : pieces p = way ++ [x]) :
    p.getLast? = some '/' ↔ x = [] := by
  have hp : Text.joinWith '/' (way ++ [x]) = p := by rw [← h, joinWith_pieces]
  have hx : '/' ∉ x := slash_notMem_of_mem_pieces (h ▸ List.mem_append_right way List.mem_cons_self)
  by_cases hway : way = []
  · rw [hway] at hp
    obtain rfl : x = p := hp
    refine iff_of_false (fun hlast => hx (List.mem_of_getLast? hlast)) hne
  · rw [← hp, Text.joinWith_concat hway]
    constructor
    · intro hlast
      by_contra hxne
      have hcons : '/' :: x = ['/'] ++ x := rfl
      rw [hcons, ← List.append_assoc, List.getLast?_append_of_ne_nil _ hxne] at hlast
      exact hx (List.mem_of_getLast? hlast)
    · rintro rfl
      exact List.getLast?_concat

theorem names_slash (p : Text) : names ('/' :: p) = names p := by
  rw [names, pieces_slash]
  rfl

theorem names_dot_slash (p : Text) : names ('.' :: '/' :: p) = names p := by
  rw [names, pieces_dot_slash]
  rfl

theorem names_joinWith {ps : List Text} (h : ∀ x ∈ ps, '/' ∉ x) :
    names (Text.joinWith '/' ps) = ps.filter (!isVoid ·) := by
  by_cases hne : ps = []
  · rw [hne]
    rfl
  · rw [names, pieces_joinWith hne h]

theorem names_of_pieces {p x : Text} {way : List Text} (h : pieces p = way ++ [x]) (hx : isVoid x = false) :
    names p = way.filter (!isVoid ·) ++ [x] := by
  rw [names, h, List.filter_append]
  simp [hx]

theorem joinWith_isPrefix {c : Char} {xs ys : List Text} (h : xs <+: ys) :
    Text.joinWith c xs <+: Text.joinWith c ys := by
  induction xs generalizing ys with
  | nil => exact List.nil_prefix
  | cons x xs ih =>
    obtain ⟨y, ys, rfl⟩ := List.exists_cons_of_ne_nil (List.IsPrefix.ne_nil h (List.cons_ne_nil x xs))
    obtain ⟨rfl, hp⟩ := List.cons_prefix_cons.1 h
    by_cases hxs : xs = []
    · rw [hxs]
      by_cases hys : ys = []
      · subst hys
        exact List.prefix_refl _
      · rw [Text.joinWith_cons x hys]
        exact List.prefix_append x _
    · rw [Text.joinWith_cons x hxs, Text.joinWith_cons x (hp.ne_nil hxs), List.prefix_append_right_inj,
        List.cons_prefix_cons]
      exact ⟨rfl, ih hp⟩

theorem IsTidy.slash {p : Text} (h : IsTidy p) : IsTidy ('/' :: p) := by
  unfold IsTidy
  rw [names_slash, pieces_slash]
  rcases h with h | ⟨way, x, h, hx⟩
  · exact Or.inl h
  · exact Or.inr ⟨[] :: way, x, congrArg _ h, hx⟩

theorem IsTidy.dot_slash {p : Text} (h : IsTidy p) : IsTidy ('.' :: '/' :: p) := by
  unfold IsTidy
  rw [names_dot_slash, pieces_dot_slash]
  rcases h with h | ⟨way, x, h, hx⟩
  · exact Or.inl h
  · exact Or.inr ⟨['.'] :: way, x, congrArg _ h, hx⟩

/-! ### Trimming -/

theorem trimEnd_eq (ps : List Text) : trimEnd ps = ps.rdropWhile isVoid := rfl

theorem trimEnd_isPrefix (ps : List Text) : trimEnd ps <+: ps := List.rdropWhile_prefix isVoid ps

theorem trimEnd_concat (ps : List Text) {x : Text} (hx : isVoid x = false) :
    trimEnd (ps ++ [x]) = ps ++ [x] :=
  List.rdropWhile_concat_neg isVoid ps x (Bool.eq_false_iff.1 hx)

theorem trimEnd_eq_nil_iff {ps : List Text} : trimEnd ps = [] ↔ ∀ x ∈ ps, isVoid x = true :=
  List.rdropWhile_eq_nil_iff

theorem filter_trimEnd (ps : List Text) : (trimEnd ps).filter (!isVoid ·) = ps.filter (!isVoid ·) := by
  induction ps using List.reverseRecOn with
  | nil => rfl
  | append_singleton ps x ih =>
    by_cases hx : isVoid x = true
    · rw [trimEnd_eq, List.rdropWhile_concat_pos isVoid ps x hx, ← trimEnd_eq, ih, List.filter_append]
      simp [hx]
    · rw [trimEnd_concat ps (Bool.eq_false_iff.2 hx)]

theorem trimEnd_cons (y : Text) {ps : List Text} (hne : trimEnd ps ≠ []) :
    trimEnd (y :: ps) = y :: trimEnd ps := by
  induction ps using List.reverseRecOn with
  | nil => exact absurd rfl hne
  | append_singleton ps x ih =>
    rw [← List.cons_append]
    by_cases hx : isVoid x = true
    · simp only [trimEnd_eq, List.rdropWhile_concat_pos isVoid _ x hx] at hne ih ⊢
      exact ih hne
    · rw [trimEnd_concat _ (Bool.eq_false_iff.2 hx), trimEnd_concat _ (Bool.eq_false_iff.2 hx)]
      rfl

/-- Trimmed parts are none, or end in one that counts. -/
theorem trimEnd_eq_concat {ps : List Text} (hne : trimEnd ps ≠ []) :
    ∃ way x, trimEnd ps = way ++ [x] ∧ isVoid x = false := by
  refine ⟨_, _, (List.dropLast_append_getLast hne).symm, ?_⟩
  exact Bool.eq_false_iff.2 (List.rdropWhile_last_not isVoid ps hne)

/-! ### Parents -/

theorem lead_cases (p : Text) :
    (∃ r, p = '/' :: r ∧ lead p = ['/']) ∨ p = ['.'] ∨ (∃ r, p = '.' :: '/' :: r ∧ lead p = ['.']) ∨
      lead p = [] := by
  unfold lead
  split
  · next r => exact Or.inl ⟨r, rfl, rfl⟩
  · exact Or.inr (Or.inl rfl)
  · next r => exact Or.inr (Or.inr (Or.inl ⟨r, rfl, rfl⟩))
  · exact Or.inr (Or.inr (Or.inr rfl))

theorem isAbsolute_of_lead {p : Text} (h : lead p = []) : isAbsolute p = false := by
  cases p with
  | nil => rfl
  | cons c p =>
    by_cases hc : c = '/'
    · rw [hc] at h
      cases h
    · simp [isAbsolute, hc]

/-- The parent of a path whose last part, after what leads it, counts. -/
theorem parent?_of_concat (p : Text) (way : List Text) {x : Text} (hx : isVoid x = false)
    (h : pieces (p.drop (lead p).length) = way ++ [x]) :
    parent? p = some (lead p ++ Text.joinWith '/' (trimEnd way)) := by
  obtain ⟨y, ys, hy⟩ : ∃ y ys, way ++ [x] = y :: ys :=
    List.exists_cons_of_ne_nil (List.append_ne_nil_of_right_ne_nil way (List.cons_ne_nil x []))
  have hway : (y :: ys).dropLast = way := by rw [← hy, List.dropLast_concat]
  have ht : trimEnd (pieces (p.drop (lead p).length)) = y :: ys := by rw [h, trimEnd_concat way hx, hy]
  unfold parent?
  simp only [ht, hway]

theorem eq_cons_of_cons_eq_concat {y x : Text} {ps way : List Text} (hps : ps ≠ [])
    (h : y :: ps = way ++ [x]) : ∃ way', way = y :: way' ∧ ps = way' ++ [x] := by
  cases way with
  | nil => exact absurd (List.cons.inj h).2 hps
  | cons z way =>
    obtain ⟨rfl, hps⟩ := List.cons.inj h
    exact ⟨way, rfl, hps⟩

theorem joinWith_trimEnd_isPrefix {p x : Text} {way : List Text} (h : pieces p = way ++ [x]) :
    Text.joinWith '/' (trimEnd way) <+: p := by
  have hp := joinWith_isPrefix (c := '/') ((trimEnd_isPrefix way).trans (List.prefix_append way [x]))
  rwa [← h, joinWith_pieces] at hp

theorem names_joinWith_trimEnd {p x : Text} {way : List Text} (h : pieces p = way ++ [x]) :
    names (Text.joinWith '/' (trimEnd way)) = way.filter (!isVoid ·) := by
  rw [names_joinWith, filter_trimEnd]
  intro y hy
  exact slash_notMem_of_mem_pieces (h ▸ List.mem_append_left [x] ((trimEnd_isPrefix way).subset hy))

theorem isTidy_joinWith_trimEnd {p x : Text} {way : List Text} (h : pieces p = way ++ [x]) :
    IsTidy (Text.joinWith '/' (trimEnd way)) := by
  by_cases hne : trimEnd way = []
  · left
    rw [hne]
    rfl
  · right
    rw [pieces_joinWith hne]
    · exact trimEnd_eq_concat hne
    · intro y hy
      exact slash_notMem_of_mem_pieces (h ▸ List.mem_append_left [x] ((trimEnd_isPrefix way).subset hy))

theorem isAbsolute_of_prefix {p q : Text} (h : q <+: p) (hp : isAbsolute p = false) :
    isAbsolute q = false := by
  cases q with
  | nil => rfl
  | cons c q =>
    obtain ⟨r, rfl⟩ := h
    exact hp

/-- **The parent has all names but the last**: if the last part of a path counts, the parent begins the
path, has the names before that part, and can be taken apart in the same way. -/
theorem parent?_eq_some {p x : Text} {way : List Text} (hx : isVoid x = false)
    (h : pieces p = way ++ [x]) :
    ∃ q, parent? p = some q ∧ q <+: p ∧ isAbsolute q = isAbsolute p ∧
      names q = way.filter (!isVoid ·) ∧ IsTidy q := by
  rcases lead_cases p with ⟨r, rfl, hl⟩ | rfl | ⟨r, rfl, hl⟩ | hl
  · -- The empty part before the first slash is not among the parts that the parent is made from.
    rw [pieces_slash] at h
    obtain ⟨way, rfl, hr⟩ := eq_cons_of_cons_eq_concat (pieces_ne_nil r) h
    have hq := parent?_of_concat ('/' :: r) way hx (by rw [hl]; exact hr)
    rw [hl] at hq
    refine ⟨_, hq, List.cons_prefix_cons.2 ⟨rfl, joinWith_trimEnd_isPrefix hr⟩, rfl, ?_, ?_⟩
    · exact (names_slash _).trans (names_joinWith_trimEnd hr)
    · exact (isTidy_joinWith_trimEnd hr).slash
  · have hdot : pieces ['.'] = [['.']] := rfl
    rw [hdot] at h
    obtain ⟨rfl, hxd⟩ : [] = way ∧ [['.']] = [x] := List.append_inj' h rfl
    obtain rfl := List.head_eq_of_cons_eq hxd
    exact absurd hx (by decide)
  · -- The dot before the first slash is not among them either, but an empty part is in its place.
    rw [pieces_dot_slash] at h
    obtain ⟨way, rfl, hr⟩ := eq_cons_of_cons_eq_concat (pieces_ne_nil r) h
    have hq := parent?_of_concat ('.' :: '/' :: r) ([] :: way) hx (by
      rw [hl]
      exact (pieces_slash r).trans (congrArg _ hr))
    rw [hl] at hq
    by_cases hne : trimEnd way = []
    · have hnil : trimEnd ([] :: way) = [] := trimEnd_eq_nil_iff.2 (by simpa [isVoid] using trimEnd_eq_nil_iff.1 hne)
      rw [hnil] at hq
      refine ⟨_, hq, ⟨'/' :: r, rfl⟩, rfl, ?_, Or.inl rfl⟩
      calc names ['.'] = (trimEnd way).filter (!isVoid ·) := by rw [hne]; rfl
        _ = way.filter (!isVoid ·) := filter_trimEnd way
    · rw [trimEnd_cons _ hne, Text.joinWith_cons _ hne] at hq
      refine ⟨_, hq, ?_, rfl, ?_, ?_⟩
      · exact List.cons_prefix_cons.2 ⟨rfl, List.cons_prefix_cons.2 ⟨rfl, joinWith_trimEnd_isPrefix hr⟩⟩
      · exact (names_dot_slash _).trans (names_joinWith_trimEnd hr)
      · exact (isTidy_joinWith_trimEnd hr).dot_slash
  · have hq := parent?_of_concat p way hx (by rw [hl]; exact h)
    rw [hl, List.nil_append] at hq
    have hp : isAbsolute p = false := isAbsolute_of_lead hl
    have hqp := joinWith_trimEnd_isPrefix h
    refine ⟨_, hq, hqp, ?_, names_joinWith_trimEnd h, isTidy_joinWith_trimEnd h⟩
    rw [hp, isAbsolute_of_prefix hqp hp]

/-- A beginning of a path that has not its last name is shorter. -/
theorem length_lt_of_names {p q x : Text} {way : List Text} (hq : q <+: p)
    (hn : names q = way.filter (!isVoid ·)) (h : pieces p = way ++ [x]) (hx : isVoid x = false) :
    q.length < p.length := by
  refine lt_of_le_of_ne hq.length_le fun hlen => ?_
  have hlast := names_of_pieces h hx
  rw [← hq.eq_of_length hlen, hn] at hlast
  simpa using congrArg List.length hlast

end EditorScaffold.Path
