import EditorScaffold.Proofs.Catalogue.Lookup

/-! # Qualified names

The dots of a qualified name do not tell where the namespace ends, so two types can have the same one: the namespace of
one of them then holds the beginning of the name of the other (`TypeName.Regroups`, `qualified_eq_iff`). A catalogue
accepts both, and their qualified name stands for the one that is listed first (`resolve_qualified_iff`). -/

namespace EditorScaffold

theorem append_cons_eq_append_cons_iff {α : Type} {x : α} {as bs cs ds : List α} :
    as ++ x :: cs = bs ++ x :: ds ↔
      (as = bs ∧ cs = ds) ∨ (∃ es, bs = as ++ x :: es ∧ cs = es ++ x :: ds) ∨
        ∃ es, as = bs ++ x :: es ∧ ds = es ++ x :: cs := by
  constructor
  · intro h
    rcases List.append_eq_append_iff.1 h with ⟨es, hb, hc⟩ | ⟨es, ha, hd⟩
    · cases es with
      | nil => simp_all
      | cons y es =>
        obtain ⟨rfl, htail⟩ := List.cons.inj hc
        exact Or.inr (Or.inl ⟨es, hb, htail⟩)
    · cases es with
      | nil => simp_all
      | cons y es =>
        obtain ⟨rfl, htail⟩ := List.cons.inj hd
        exact Or.inr (Or.inr ⟨es, ha, htail⟩)
  · rintro (⟨rfl, rfl⟩ | ⟨es, rfl, rfl⟩ | ⟨es, rfl, rfl⟩) <;> simp

namespace TypeName

variable {s t : TypeName}

/-- **The same dots, read differently**: `t` is `s` with the beginning of its name, up to a dot, moved to the end of
the namespace. -/
def Regroups (s t : TypeName) : Prop :=
  ∃ outer, s.name = outer ++ '.' :: t.name ∧ t.space = qualified ⟨outer, s.space⟩ ∧ t.space ≠ []

theorem qualified_of_space_eq_nil (h : t.space = []) : t.qualified = t.name := by
  simp [qualified, hasSpace, h]

theorem qualified_of_space_ne_nil (h : t.space ≠ []) : t.qualified = t.space ++ '.' :: t.name := by
  simp [qualified, hasSpace, h]

theorem Regroups.dot_mem (h : Regroups s t) : '.' ∈ s.name := by
  obtain ⟨outer, hname, -⟩ := h
  rw [hname]
  exact List.mem_append_right outer List.mem_cons_self

theorem Regroups.ne (h : Regroups s t) : s ≠ t := by
  rintro rfl
  obtain ⟨outer, hname, -⟩ := h
  have hlength := congrArg List.length hname
  simp at hlength
  omega

theorem Regroups.qualified_eq (h : Regroups s t) : s.qualified = t.qualified := by
  obtain ⟨outer, hname, hspace, hne⟩ := h
  rw [qualified_of_space_ne_nil hne, hspace]
  by_cases hs : s.space = []
  · rw [qualified_of_space_eq_nil hs, qualified_of_space_eq_nil (t := ⟨outer, s.space⟩) hs, hname]
  · rw [qualified_of_space_ne_nil hs, qualified_of_space_ne_nil (t := ⟨outer, s.space⟩) hs, hname,
      List.append_assoc, List.cons_append]

/-- A name without a namespace is read as one with a namespace. -/
theorem regroups_of_space_eq_nil (hs : s.space = []) (ht : t.space ≠ []) (h : s.qualified = t.qualified) :
    Regroups s t := by
  rw [qualified_of_space_eq_nil hs, qualified_of_space_ne_nil ht] at h
  exact ⟨t.space, h, (qualified_of_space_eq_nil (t := ⟨t.space, s.space⟩) hs).symm, ht⟩

/-- **Two types have the same qualified name** only if they are the same or read its dots differently. -/
theorem qualified_eq_iff : s.qualified = t.qualified ↔ s = t ∨ Regroups s t ∨ Regroups t s := by
  constructor
  · intro h
    by_cases hs : s.space = [] <;> by_cases ht : t.space = []
    · left
      rw [qualified_of_space_eq_nil hs, qualified_of_space_eq_nil ht] at h
      cases s
      cases t
      simp_all
    · exact Or.inr (Or.inl (regroups_of_space_eq_nil hs ht h))
    · exact Or.inr (Or.inr (regroups_of_space_eq_nil ht hs h.symm))
    · rw [qualified_of_space_ne_nil hs, qualified_of_space_ne_nil ht] at h
      rcases append_cons_eq_append_cons_iff.1 h with ⟨hspace, hname⟩ | ⟨outer, hspace, hname⟩ | ⟨outer, hspace, hname⟩
      · left
        cases s
        cases t
        simp_all
      · exact Or.inr (Or.inl ⟨outer, hname, hspace.trans (qualified_of_space_ne_nil (t := ⟨outer, s.space⟩) hs).symm, ht⟩)
      · exact Or.inr (Or.inr ⟨outer, hname, hspace.trans (qualified_of_space_ne_nil (t := ⟨outer, t.space⟩) ht).symm, hs⟩)
  · rintro (rfl | h | h)
    · rfl
    · exact h.qualified_eq
    · exact h.qualified_eq.symm

end TypeName

namespace Entry

variable {e : Entry} {handle : Text} {r : Nat}

theorem two_le_of_rank? (h : e.script ≠ some handle) (hr : e.rank? handle = some r) : 2 ≤ r := by
  unfold rank? at hr
  rw [if_neg h] at hr
  split_ifs at hr <;> simp at hr <;> omega

theorem rank?_eq_two_iff (h : e.script ≠ some handle) :
    e.rank? handle = some 2 ↔ e.type.qualified = handle := by
  unfold rank?
  rw [if_neg h]
  split_ifs <;> simp_all

end Entry

namespace Catalogue

variable {c : Catalogue} {es : List Entry} {e : Entry} {i : Nat}

/-- No two entries have the same qualified name exactly if no two read it differently. -/
theorem nodup_qualified_iff :
    (c.entries.map (·.type.qualified)).Nodup ↔ ∀ d ∈ c.entries, ∀ e ∈ c.entries, ¬ d.type.Regroups e.type := by
  constructor
  · intro h d hd e he hregroups
    exact hregroups.ne (congrArg Entry.type (List.inj_on_of_nodup_map h hd he hregroups.qualified_eq))
  · intro h
    refine List.Nodup.map_on (fun d hd e he hqualified => ?_) (List.Nodup.of_map _ c.nodup)
    rcases TypeName.qualified_eq_iff.1 hqualified with htype | hregroups | hregroups
    · exact eq_of_type_eq hd he htype
    · exact absurd hregroups (h d hd e he)
    · exact absurd hregroups (h e he d hd)

/-- **A qualified name that is no script stands for the first entry that has it.** -/
theorem resolve_qualified_iff (hi : c.entries[i]? = some e) (hcompiled : e.compiled = true)
    (hscript : ∀ d ∈ c.entries, d.script ≠ some e.type.qualified) :
    c.resolve e.type.qualified = some e.type ↔
      ∀ j d, c.entries[j]? = some d → d.type.qualified = e.type.qualified → i ≤ j := by
  have he : e ∈ c.entries := List.mem_of_getElem? hi
  have hrank : e.rank? e.type.qualified = some 2 := (Entry.rank?_eq_two_iff (hscript e he)).2 rfl
  constructor
  · intro hresolve j d hd hqualified
    obtain ⟨i', e', hmatch, -, htype⟩ := resolve_eq_some_iff.1 hresolve
    obtain rfl := eq_of_type_eq hmatch.mem he htype
    have hlt : i < c.entries.length := (List.getElem?_eq_some_iff.1 hi).1
    obtain rfl : i = i' :=
      (List.getElem?_inj hlt (List.Nodup.of_map _ c.nodup)).1 (hi.trans hmatch.listed.symm)
    obtain ⟨r, hr, hleast⟩ := hmatch.least
    have hd2 := (Entry.rank?_eq_two_iff (hscript d (List.mem_of_getElem? hd))).2 hqualified
    have := hleast j d 2 hd hd2
    rw [hrank] at hr
    obtain rfl := Option.some.inj hr
    omega
  · intro hfirst
    refine resolve_eq_some_iff.2 ⟨i, e, ⟨hi, 2, hrank, fun j d q hd hq => ?_⟩, hcompiled, rfl⟩
    have hdscript := hscript d (List.mem_of_getElem? hd)
    rcases Nat.lt_or_eq_of_le (Entry.two_le_of_rank? hdscript hq) with hlt | rfl
    · exact Or.inl hlt
    · exact Or.inr ⟨rfl, hfirst j d hd ((Entry.rank?_eq_two_iff hdscript).1 hq)⟩

theorem nodup_qualified_of_dot_notMem (h : ∀ e ∈ c.entries, '.' ∉ e.type.name) :
    (c.entries.map (·.type.qualified)).Nodup :=
  nodup_qualified_iff.2 fun d hd _ _ hregroups => h d hd hregroups.dot_mem

/-- **What a qualified name denotes.** Two entries of a catalogue have the same one exactly if they read its dots
differently, which cannot be if no name has a dot in it. Unless a script is called so, it stands for an entry that
compiles exactly if no other entry before has the same one. -/
theorem qualified_denotes_first (h : ofEntries es = .ok c) :
    ((es.map (·.type.qualified)).Nodup ↔ ∀ d ∈ es, ∀ e ∈ es, ¬ d.type.Regroups e.type) ∧
    ((∀ e ∈ es, '.' ∉ e.type.name) → (es.map (·.type.qualified)).Nodup) ∧
    ∀ (i : Nat) e, es[i]? = some e → e.compiled = true → (∀ d ∈ es, d.script ≠ some e.type.qualified) →
      (c.source.resolve e.type.qualified = some e.type ↔
        ∀ (j : Nat) d, es[j]? = some d → d.type.qualified = e.type.qualified → i ≤ j) := by
  obtain rfl := ofEntries_eq_ok_iff.1 h
  exact ⟨nodup_qualified_iff, nodup_qualified_of_dot_notMem,
    fun _ _ hi hcompiled hscript => resolve_qualified_iff hi hcompiled hscript⟩

/-- The lock of doors. -/
def doorsLock : Entry := { type := ⟨"Lock".toList, "Level.Door".toList⟩ }

/-- The lock that is part of a door. -/
def doorLock : Entry := { type := ⟨"Door.Lock".toList, "Level".toList⟩ }

/-- Two locks that have the same qualified name. -/
def locks : Catalogue := ⟨[doorsLock, doorLock], by decide⟩

/-- Both locks are accepted, and the second one cannot be reached by its qualified name. -/
theorem doorLock_hidden :
    ofEntries [doorsLock, doorLock] = .ok locks ∧ doorLock.type.Regroups doorsLock.type ∧
    ¬ ([doorsLock, doorLock].map (·.type.qualified)).Nodup ∧
    doorLock.compiled = true ∧ (∀ d ∈ [doorsLock, doorLock], d.script ≠ some doorLock.type.qualified) ∧
    locks.source.resolve doorLock.type.qualified ≠ some doorLock.type := by
  have haccepted : ofEntries [doorsLock, doorLock] = .ok locks := ofEntries_eq_ok_iff.2 rfl
  have hregroups : doorLock.type.Regroups doorsLock.type := ⟨"Door".toList, rfl, rfl, by decide⟩
  have hscript : ∀ d ∈ [doorsLock, doorLock], d.script ≠ some doorLock.type.qualified := by decide
  obtain ⟨hnodup, -, hresolve⟩ := qualified_denotes_first haccepted
  refine ⟨haccepted, hregroups, fun h => hnodup.1 h doorLock (by simp) doorsLock (by simp) hregroups, rfl, hscript,
    fun h => ?_⟩
  have hle := (hresolve 1 doorLock rfl rfl hscript).1 h 0 doorsLock rfl rfl
  omega

end Catalogue

end EditorScaffold
