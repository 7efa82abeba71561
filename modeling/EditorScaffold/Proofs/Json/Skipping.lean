import EditorScaffold.Proofs.Json.Trees

/-! # Values are skipped

A value that nobody asks for is skipped with the open brackets on a stack. What comes after a value is the same for all
values: the ends of brackets up to the next value (`resume`). So a value is skipped if the rest after it can be resumed
to the end (`skips`), by induction on the value; with no open bracket there is nothing to resume. -/

namespace EditorScaffold.Json.Reader

variable {s t : Text} {outer : List Bracket}

/-- Goes on after a value, or after an opening bracket, up to the next value. -/
def resume (outer : List Bracket) (afterValue : Bool) : Reader (List Bracket ⊕ Unit) := do
  match ← skipEnds outer afterValue with
  | none => pure (.inr ())
  | some (.list, outer) => pure (.inl (.list :: outer))
  | some (.object, outer) => skipKey *> pure (.inl (.object :: outer))

theorem skipStep_eq (outer : List Bracket) :
    skipStep outer = skipScalar >>= fun
      | some b => resume (b :: outer) false
      | none => resume outer true := rfl

/-- Going on from `s` ends at `t`: at once, or with the next value. -/
def Resumes (outer : List Bracket) (afterValue : Bool) (s t : Text) : Prop :=
  Reads (resume outer afterValue) s (.inr ()) t ∨
  ∃ inner u, Reads (resume outer afterValue) s (.inl inner) u ∧ u.length ≤ s.length ∧ Loops skipStep inner u () t

theorem loops_plain {u : Text} (hskip : Reads skipScalar u none s) (hlt : s.length < u.length)
    (h : Resumes outer true s t) : Loops skipStep outer u () t := by
  obtain h | ⟨inner, u', h, hle, hloop⟩ := h
  · exact .stop (by rw [skipStep_eq]; exact hskip.bind h)
  · exact .next (by rw [skipStep_eq]; exact hskip.bind h) (hle.trans_lt hlt) hloop

theorem loops_bracket {b : Bracket} (h : Resumes (b :: outer) false s t) :
    Loops skipStep outer (b.opening :: s) () t := by
  have hskip : Reads skipScalar (b.opening :: s) (some b) s := by
    cases b <;> exact (reads_next? (by decide) s).bind ((reads_skip _ s).then (.pure _ s))
  obtain h | ⟨inner, u, h, hle, hloop⟩ := h
  · exact .stop (by rw [skipStep_eq]; exact hskip.bind h)
  · exact .next (by rw [skipStep_eq]; exact hskip.bind h) (Nat.lt_succ_of_le hle) hloop

/-! ### The ends of brackets -/

theorem Resumes.nil (s : Text) : Resumes [] true s s :=
  Or.inl ((Reads.pure none s).bind (.pure (Sum.inr ()) s))

/-- The end of the innermost bracket comes after a value. -/
theorem Resumes.close {b : Bracket} {afterValue : Bool} (h : Resumes outer true s t) :
    Resumes (b :: outer) afterValue (b.closing :: s) t := by
  have hclose {x u} (h : Reads (resume outer true) s x u) :
      Reads (resume (b :: outer) afterValue) (b.closing :: s) x u := by
    intro o
    obtain ⟨o', h⟩ := h (Cursor.advance ⟨b.closing :: s, o⟩ 1).offset
    refine ⟨o', ?_⟩
    rw [← h]
    cases b <;> cases afterValue <;> rfl
  obtain h | ⟨inner, u, h, hle, hloop⟩ := h
  · exact Or.inl (hclose h)
  · exact Or.inr ⟨inner, u, hclose h, hle.trans (Nat.le_succ _), hloop⟩

/-! ### Items and members -/

theorem reads_resume_item (v : Json) (s : Text) :
    Reads (resume (.list :: outer) false) (v.spelled ++ s) (.inl (.list :: outer)) (v.spelled ++ s) := by
  obtain ⟨c, u, hv, hblank, hc⟩ := v.spelled_cons
  have hends : Reads (skipEnds (.list :: outer) false) (c :: (u ++ s)) (some (.list, outer)) (c :: (u ++ s)) := by
    refine (reads_next? hblank _).bind ?_
    show Reads (if c = ']' then _ else pure (some (Bracket.list, outer))) _ _ _
    rw [if_neg hc]
    exact .pure _ _
  rw [hv]
  exact hends.bind (.pure _ _)

theorem reads_resume_comma (s : Text) : Reads (resume (.list :: outer) true) (',' :: s) (.inl (.list :: outer)) s :=
  Reads.bind (a := some (Bracket.list, outer)) ((reads_next? (by decide) s).bind ((reads_skip ',' s).then (.pure _ s)))
    (.pure _ s)

theorem reads_skipKey (m : Text × Json) (s : Text) : Reads skipKey (spelledMember m ++ s) () (m.2.spelled ++ s) := by
  rw [spelledMember_append]
  exact (reads_next? (by decide) _).bind (((reads_skip '"' _).then (reads_skipString m.1 _)).then (reads_colon _))

theorem reads_resume_member (m : Text × Json) (s : Text) :
    Reads (resume (.object :: outer) false) (spelledMember m ++ s) (.inl (.object :: outer)) (m.2.spelled ++ s) := by
  refine Reads.bind (a := some (Bracket.object, outer)) ?_ ((reads_skipKey m s).then (.pure _ _))
  rw [spelledMember_append]
  exact (reads_next? (by decide) _).bind (.pure _ _)

theorem reads_resume_next (m : Text × Json) (s : Text) :
    Reads (resume (.object :: outer) true) (',' :: (spelledMember m ++ s)) (.inl (.object :: outer))
      (m.2.spelled ++ s) := by
  refine Reads.bind (a := some (Bracket.object, outer)) ?_ ((reads_skipKey m s).then (.pure _ _))
  exact (reads_next? (by decide) _).bind ((reads_skip ',' _).then (.pure _ _))

theorem length_le_spelledMember (m : Text × Json) (s : Text) :
    (m.2.spelled ++ s).length ≤ (spelledMember m ++ s).length := by
  have hlength : (spelledMember m ++ s).length = (stringText m.1).length + 1 + (m.2.spelled ++ s).length := by
    simp [spelledMember]
    omega
  omega

/-! ### Whole values -/

/-- A value is skipped if what comes after it can be gone on from. -/
def Skips (v : Json) : Prop :=
  ∀ {outer s t}, Ended s → Resumes outer true s t → Loops skipStep outer (v.spelled ++ s) () t

theorem resumes_items {vs : List Json} (hv : ∀ v ∈ vs, Skips v) (h : Resumes outer true s t) :
    Resumes (.list :: outer) true (vs.flatMap (',' :: ·.spelled) ++ ']' :: s) t := by
  induction vs with
  | nil => exact h.close
  | cons v vs ih =>
    obtain ⟨hv, hvs⟩ := List.forall_mem_cons.1 hv
    rw [List.flatMap_cons, List.append_assoc]
    exact Or.inr ⟨_, _, reads_resume_comma _, Nat.le_succ _, hv (ended_items vs s) (ih hvs)⟩

theorem resumes_members {ms : List (Text × Json)} (hm : ∀ m ∈ ms, Skips m.2) (h : Resumes outer true s t) :
    Resumes (.object :: outer) true (ms.flatMap (',' :: spelledMember ·) ++ '}' :: s) t := by
  induction ms with
  | nil => exact h.close
  | cons m ms ih =>
    obtain ⟨hm, hms⟩ := List.forall_mem_cons.1 hm
    rw [List.flatMap_cons, List.append_assoc]
    exact Or.inr ⟨_, _, reads_resume_next m _, (length_le_spelledMember m _).trans (Nat.le_succ _),
      hm (ended_members ms s) (ih hms)⟩

theorem skips_array {items : List Json} (hv : ∀ v ∈ items, Skips v) : Skips (.array items) := by
  intro outer s t _ h
  rw [spelled_array_append]
  refine loops_bracket ?_
  cases items with
  | nil => exact h.close
  | cons v vs =>
    obtain ⟨hv, hvs⟩ := List.forall_mem_cons.1 hv
    rw [spelledItems_cons, List.append_assoc]
    exact Or.inr ⟨_, _, reads_resume_item v _, le_rfl, hv (ended_items vs s) (resumes_items hvs h)⟩

theorem skips_object {members : List (Text × Json)} (hm : ∀ m ∈ members, Skips m.2) : Skips (.object members) := by
  intro outer s t _ h
  rw [spelled_object_append]
  refine loops_bracket ?_
  cases members with
  | nil => exact h.close
  | cons m ms =>
    obtain ⟨hm, hms⟩ := List.forall_mem_cons.1 hm
    rw [spelledMembers_cons, List.append_assoc]
    exact Or.inr ⟨_, _, reads_resume_member m _, length_le_spelledMember m _,
      hm (ended_members ms s) (resumes_members hms h)⟩

theorem reads_skipScalar {v : Json} (hv : v.isPlain) (hs : Ended s) : Reads skipScalar (v.spelled ++ s) none s := by
  match v, hv with
  | .null, _ =>
    exact (reads_next? (by decide) _).bind (((reads_skip 'n' _).then (reads_literal "ull".toList s)).then (.pure _ s))
  | .bool true, _ =>
    exact (reads_next? (by decide) _).bind (((reads_skip 't' _).then (reads_literal "rue".toList s)).then (.pure _ s))
  | .bool false, _ =>
    exact (reads_next? (by decide) _).bind (((reads_skip 'f' _).then (reads_literal "alse".toList s)).then (.pure _ s))
  | .number n, _ =>
    have hread := (reads_numeral n .badNumber hs).then (.pure (none : Option Bracket) s)
    rw [spelled, n.text_eq]
    cases hneg : n.negative with
    | true =>
      rw [hneg] at hread
      exact (reads_next? (by decide) _).bind ((reads_skip '-' _).then hread)
    | false =>
      obtain ⟨d, u, hd⟩ := n.unsigned_cons
      rw [hneg, hd] at hread
      rw [hd]
      refine (reads_next? (digitChar_start d).1 _).bind ?_
      fin_cases d <;> exact hread
  | .string r, _ =>
    have htext : stringText r ++ s = '"' :: (r.flatMap escapeChar ++ '"' :: s) := by simp [stringText]
    rw [spelled, htext]
    exact (reads_next? (by decide) _).bind (((reads_skip '"' _).then (reads_skipString r s)).then (.pure _ s))

/-- **Every value is skipped**, whatever it is and whatever brackets are open around it. -/
theorem skips (v : Json) : Skips v := by
  have hplain {v : Json} (hv : v.isPlain) : Skips v := fun hs h =>
    loops_plain (reads_skipScalar hv hs) (length_lt_spelled v _) h
  induction v using Json.induction with
  | null => exact hplain rfl
  | bool b => exact hplain rfl
  | number n => exact hplain rfl
  | string t => exact hplain rfl
  | array items ih => exact skips_array ih
  | object members ih => exact skips_object ih

/-- **A value is skipped** from its text, at any nesting and with numbers of any size. -/
theorem readsTree_skipValue (v : Json) : ReadsTree skipValue v () := fun s hs => (skips v hs (.nil s)).reads

end EditorScaffold.Json.Reader
