import EditorScaffold.Proofs.FieldType.Spelling

/-! # Field types are read from text

The text of a tree that spells a type is read to a tree with the kind in front of everything else: another spelling of
the same type (`readsTree_readTree`). So the type is read from every spelling (`readsTree_read`). -/

namespace EditorScaffold.FieldType

open Json (Spelling)
open Json.Reader

variable {k : Kind} {slot : Slot → Json → Prop} {levels : Nat}

theorem readsTree_kind (k : Kind) : ReadsTree Kind.read (.string k.spelling) k := by
  refine readsTree_named ?_
  cases k with
  | leaf l => cases l <;> rfl
  | text => rfl
  | container c => cases c <;> rfl
  | generic => rfl

/-! ### Objects -/

/-- The members that do not tell the kind. -/
def others (ms : List (Text × Json)) : List (Text × Json) := ms.filter fun m => m.1 ≠ kindKey

theorem others_cons_kind (v : Json) (ms : List (Text × Json)) : others ((kindKey, v) :: ms) = others ms :=
  List.filter_cons_of_neg (by simp)

theorem others_cons {m : Text × Json} (h : m.1 ≠ kindKey) (ms : List (Text × Json)) :
    others (m :: ms) = m :: others ms :=
  List.filter_cons_of_pos (by simpa using h)

section Members

variable {written : List (Option Slot)} {ms : List (Text × Json)}

theorem members_others (h : (k.spelled slot).Members (kindKey :: k.slots.map Slot.label) written ms) :
    (k.spelled slot).Members (kindKey :: k.slots.map Slot.label) (written.filter Option.isSome) (others ms) := by
  induction h with
  | nil => exact .nil
  | @part p v ps ms hv _ ih =>
    cases p with
    | none =>
      rw [k.label_none, others_cons_kind]
      exact ih
    | some s =>
      rw [k.label_some, others_cons s.label_ne_kindKey]
      exact .part (p := some s) hv ih
  | @other m ps ms hm _ ih =>
    rw [others_cons (ne_kindKey hm)]
    exact .other hm ih

theorem reads_readMember_kind (k : Kind) (read : List (Text × Json)) {s : Text} (hs : Ended s) :
    Reads (readMember levels (none, read) kindKey) (':' :: ((Json.string k.spelling).spelled ++ s))
      (some k, read) s := by
  unfold readMember
  rw [if_pos rfl]
  exact (reads_colon _).bind ((readsTree_kind k s hs).bind (.pure _ s))

theorem reads_readMember {m : Text × Json} (hm : m.1 ≠ kindKey) (hn : m.2.nesting ≤ levels) (hrange : m.2.InRange)
    (o : Option Kind) (read : List (Text × Json)) {s : Text} (hs : Ended s) :
    Reads (readMember levels (o, read) m.1) (':' :: (m.2.spelled ++ s)) (o, m :: read) s := by
  unfold readMember
  rw [if_neg hm]
  exact (reads_colon _).bind ((readsTree_tree m.2 hn hrange s hs).bind (.pure _ s))

/-- **The members of a type are taken up**: the kind for itself, all others as trees. -/
theorem takes_readMember (h : (k.spelled slot).Members (kindKey :: k.slots.map Slot.label) written ms)
    (hnodup : written.Nodup) (hn : ∀ m ∈ ms, m.2.nesting ≤ levels) (hrange : ∀ m ∈ ms, m.2.InRange)
    (o : Option Kind) (ho : none ∈ written → o = none) (read : List (Text × Json)) :
    Takes (readMember levels) (o, read) ms (if none ∈ written then some k else o, (others ms).reverse ++ read) := by
  induction h generalizing o read with
  | nil => exact .nil _
  | @part p v ps ms hv _ ih =>
    rw [List.nodup_cons] at hnodup
    obtain ⟨hn, hns⟩ := List.forall_mem_cons.1 hn
    obtain ⟨hrange, hranges⟩ := List.forall_mem_cons.1 hrange
    cases p with
    | none =>
      obtain rfl : v = .string k.spelling := hv
      obtain rfl := ho List.mem_cons_self
      have htail := ih hnodup.2 hns hranges (some k) (fun hmem => absurd hmem hnodup.1) read
      rw [if_neg hnodup.1] at htail
      rw [if_pos List.mem_cons_self, k.label_none, others_cons_kind]
      exact .cons (fun s hs => reads_readMember_kind k read hs) htail
    | some s =>
      have htail := ih hnodup.2 hns hranges o (fun hmem => ho (List.mem_cons_of_mem _ hmem)) ((s.label, v) :: read)
      have hkind : (none ∈ some s :: ps) = (none ∈ ps) := by simp
      rw [k.label_some, others_cons s.label_ne_kindKey, List.reverse_cons, List.append_assoc]
      simp only [hkind]
      exact .cons (fun _ hs => reads_readMember s.label_ne_kindKey hn hrange o read hs) htail
  | @other m ps ms hm _ ih =>
    obtain ⟨hn, hns⟩ := List.forall_mem_cons.1 hn
    obtain ⟨hrange, hranges⟩ := List.forall_mem_cons.1 hrange
    rw [others_cons (ne_kindKey hm), List.reverse_cons, List.append_assoc]
    exact .cons (fun _ hs => reads_readMember (ne_kindKey hm) hn hrange o read hs)
      (ih hnodup hns hranges o ho (m :: read))

end Members

/-! ### Arrays -/

/-- **The items of a type are taken up**: the kind for itself, all others as trees. -/
theorem reads_readItems {items : List Json} (hn : ∀ v ∈ items, v.nesting ≤ levels) (hrange : ∀ v ∈ items, v.InRange)
    (k : Kind) (s : Text) :
    Reads (readItems levels) (Json.spelledItems (.string k.spelling :: items) ++ ']' :: s) (k, items) (']' :: s) := by
  have htrees : List.Forall₂ (ReadsTree (tree levels)) items items :=
    List.forall₂_same.2 fun v hv => readsTree_tree v (hn v hv) (hrange v hv)
  rw [Json.spelledItems_cons, List.append_assoc]
  refine (reads_nextItem_value _ _).1.bind ?_
  rw [if_pos rfl]
  refine (readsTree_kind k _ (ended_items items s)).bind ?_
  exact (loops_items htrees (fun _ _ => rfl) rfl s).reads.bind (.pure (k, items) _)

/-! ### Whole types -/

/-- An object with the kind moved to the front spells the same. -/
theorem Kind.node_others (k : Kind) {written : List (Option Slot)} {ms : List (Text × Json)}
    (hperm : written.Perm (none :: k.slots.map some))
    (hms : (k.spelled slot).Members (kindKey :: k.slots.map Slot.label) written ms) :
    k.Node slot (.object (k.member :: others ms)) := by
  have hslots : (written.filter Option.isSome).Perm (k.slots.map some) := by
    have hall : (none :: k.slots.map some).filter Option.isSome = k.slots.map some := by
      rw [List.filter_cons_of_neg (by simp)]
      exact List.filter_eq_self.2 (by simp)
    exact hall ▸ hperm.filter Option.isSome
  refine @Spelling.Node.object _ _ _ (none :: written.filter Option.isSome) _ ⟨[], ?_, nofun⟩ ?_
  · rw [List.append_nil]
    exact hslots.cons none
  · rw [k.map_label slot]
    exact .part (p := none) rfl (members_others hms)

/-- **The text of a type is read to another spelling of it**, with the kind in front. -/
theorem readsTree_readTree {v : Json} (h : k.Node slot v) (hn : v.nesting ≤ levels) (hrange : v.InRange) :
    ∃ w, k.Node slot w ∧ ReadsTree (readTree levels) v w := by
  obtain ⟨written, ms, rfl, hperm, hms⟩ | ⟨items, rfl, hitems⟩ := h.cases
  · obtain ⟨levels, rfl, hmember⟩ := Json.nesting_object_le.1 hn
    refine ⟨.object (k.member :: others ms), k.node_others hperm hms, fun s _ => Reads.placed ?_⟩
    have htakes := takes_readMember hms (Kind.nodup_of_perm hperm) hmember (Json.inRange_object.1 hrange) none
      (fun _ => rfl) []
    rw [if_pos (hperm.mem_iff.2 List.mem_cons_self), List.append_nil] at htakes
    have hobject : Json.object (k.member :: (others ms).reverse.reverse) = .object (k.member :: others ms) := by
      rw [List.reverse_reverse]
    rw [spelled_object_append, ← hobject]
    exact reads_bracket .object (Reads.bracketed ((reads_members htakes s).bind (.pure _ _)))
  · obtain ⟨levels, rfl, hitem⟩ := Json.nesting_array_le.1 hn
    have hrange := Json.inRange_array.1 hrange
    refine ⟨_, h, fun s _ => Reads.placed ?_⟩
    have hread := reads_readItems (List.forall_mem_cons.1 hitem).2 (List.forall_mem_cons.1 hrange).2 k s
    rw [spelled_array_append]
    exact reads_bracket .list (Reads.bracketed (hread.bind (.pure _ _)))

/-- **A type is read from every tree that spells it.** -/
theorem readsTree_read {t : FieldType} {v : Json} (h : Spells t v) (hn : v.nesting ≤ levels) (hrange : v.InRange) :
    ReadsTree (read levels) v t := by
  obtain ⟨k, slot, hnode⟩ : ∃ k slot, Spells t = Kind.Node k slot := by
    cases t <;> exact ⟨_, _, rfl⟩
  obtain ⟨w, hw, hread⟩ := readsTree_readTree (hnode ▸ h) hn hrange
  exact fun s hs => (hread s hs).bind (.ofExcept (ofTree_of_spells t (hnode ▸ hw)) s)

end EditorScaffold.FieldType
