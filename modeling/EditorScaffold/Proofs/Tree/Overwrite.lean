import EditorScaffold.Proofs.Tree.Writing

/-! # What writing an editor does to the files that are there

Whether there is a file at a path is asked before the directories around it are made. A path may lead through
a directory that is missing and up again out of it: then nothing is there when it is asked, and a file may be
there when it is written. Such a path is a detour (`Detour`). A file at its end is overwritten, and no other
file is ever lost (`writeEditor_lossless_iff_not_detour`). A path that never goes up is no detour to
anything that is there (`not_detour_of_up_notMem`). -/

namespace EditorScaffold.Tree

variable {s t : Tree} {at_ : Location} {path name : Text} {way : List Text} {c : Contents}

/-! ### Detours -/

/-- **A detour to a location**: the path ends in a name and leads there, with no file and no name that is too
long in the way, but through a location where nothing is. -/
def Detour (s : Tree) (path : Text) (at_ : Location) : Prop :=
  ∃ way name, EndsIn path way name ∧ at_ = s.target path way name ∧
    (∀ k ∈ visited (s.origin path) way, s.IsClear k) ∧ ∃ k ∈ visited (s.origin path) way, s.node? k = none

/-- Nothing is present at the end of a detour before the directories of the path are made. -/
theorem Detour.present_eq_false (h : s.Detour path at_) : s.present path = false := by
  obtain ⟨way, name, hends, -, -, k, hk, hnone⟩ := h
  by_contra hp
  obtain ⟨n, hlookup⟩ := present_eq_true_iff.1 (Bool.not_eq_false _ ▸ hp)
  obtain ⟨l, hl, -⟩ := lookup_eq_ok_iff.1 hlookup
  rw [((hends.locate_eq_ok_iff.1 hl).2 k hk).2] at hnone
  cases hnone

theorem present_of_canEnter (hs : s.WellFormed) (hends : EndsIn path way name) {n : Node}
    (hn : s.node? (s.target path way name) = some n)
    (hin : ∀ k ∈ visited (s.origin path) way, s.CanEnter k) : s.present path = true :=
  present_eq_true_iff.2 ⟨n, lookup_eq_ok_iff.2
    ⟨_, hends.locate_eq_ok_iff.2 ⟨rfl, hin⟩, find_eq_ok_iff.2 ⟨hs.short hn, hn.symm⟩⟩⟩

/-- **A file that is there only once the directories are made** is at the end of a detour. -/
theorem detour_of_ready (hs : s.WellFormed) (h : Ready s t path way name)
    (hfile : s.node? (s.target path way name) = some (.file c)) (hp : s.present path = false) :
    s.Detour path (s.target path way name) := by
  have hclear : ∀ k ∈ visited (s.origin path) way, s.IsClear k := by
    intro k hk
    obtain ⟨hshort, hdir⟩ := h.enter k hk
    refine ⟨hshort, fun c' hc' => ?_⟩
    rw [h.grown.kept hc'] at hdir
    cases hdir
  refine ⟨way, name, h.endsIn, rfl, hclear, ?_⟩
  by_contra hall
  have hin : ∀ k ∈ visited (s.origin path) way, s.CanEnter k := by
    intro k hk
    cases hn : s.node? k with
    | none => exact absurd ⟨k, hk, hn⟩ hall
    | some n => exact (hclear k hk).canEnter hn
  rw [present_of_canEnter hs h.endsIn hfile hin] at hp
  cases hp

/-- What leads down to a directory is there. -/
theorem node?_of_mem_visited (hs : s.WellFormed) {ps : List Text} (hup : "..".toList ∉ ps)
    (h : s.node? (destination at_ ps) = some .directory) :
    ∀ k ∈ visited at_ ps, s.node? k = some .directory := by
  induction ps using List.reverseRecOn with
  | nil =>
    intro k hk
    rw [visited, List.mem_singleton] at hk
    rw [hk]
    exact h
  | append_singleton ps x ih =>
    have hps : s.node? (destination at_ ps) = some .directory := by
      by_cases hx : Path.isVoid x = true
      · rwa [destination_concat, move_of_void hx] at h
      · have hxup : x ≠ "..".toList := fun e => hup (e ▸ List.mem_append_right _ List.mem_cons_self)
        rw [destination_concat_name (Bool.eq_false_iff.2 hx) hxup] at h
        simpa using hs.around h
    intro k hk
    rw [visited_concat, List.mem_append, List.mem_singleton] at hk
    rcases hk with hk | rfl
    · exact ih (fun hmem => hup (List.mem_append_left _ hmem)) hps k hk
    · exact h

/-- **A path that never goes up** is no detour to anything that is there. -/
theorem not_detour_of_up_notMem (hs : s.WellFormed) (hup : "..".toList ∉ Path.pieces path) {n : Node}
    (hn : s.node? at_ = some n) : ¬ s.Detour path at_ := by
  rintro ⟨way, name, hends, rfl, -, k, hk, hnone⟩
  rw [hends.parts] at hup
  have hdir : s.node? (destination (s.origin path) way) = some .directory := by
    simpa [target] using hs.around hn
  rw [node?_of_mem_visited hs (fun hmem => hup (List.mem_append_left _ hmem)) hdir k hk] at hnone
  cases hnone

/-! ### Files that are lost and files that are not -/

/-- What writing an editor gives, and the tree after it. -/
def writing (s : Tree) (path generated guardSymbol : Text) : Except FileError WriteOutcome × Tree :=
  effect (writeEditor (m := StateM Tree) path generated guardSymbol) s

/-- **The file survives**: it is as it was, or it is the file that the path leads to and the editor has been
merged into its text. -/
def Survives (s : Tree) (path generated guardSymbol : Text) (at_ : Location) (c : Contents) : Prop :=
  (s.writing path generated guardSymbol).2.node? at_ = some (.file c) ∨
  ∃ e, c = .text e ∧ s.locate path = .ok at_ ∧
    (s.writing path generated guardSymbol).1 = .ok (.appended (Merge.merge e generated guardSymbol).inserted) ∧
    (s.writing path generated guardSymbol).2.node? at_ =
      some (.file (.text (Merge.merge e generated guardSymbol).text))

theorem survives_of_not_detour (hs : s.WellFormed) (path generated guardSymbol : Text)
    (hfile : s.node? at_ = some (.file c)) (hd : ¬ s.Detour path at_) :
    s.Survives path generated guardSymbol at_ c := by
  unfold Survives writing
  rcases writeEditor_cases s path generated guardSymbol with
    ⟨e, t, hext, h⟩ | ⟨e, t, way, name, hready, hl, he, h⟩ | ⟨t, way, name, hready, hp, h⟩
  · rw [h]
    exact Or.inl (hext.kept hfile)
  · rw [h]
    by_cases hat : at_ = s.target path way name
    · right
      rw [hat, he] at hfile
      obtain rfl := (Node.file.inj (Option.some.inj hfile)).symm
      rw [hat]
      exact ⟨e, rfl, hl, rfl, node?_put_self t target_ne_nil _⟩
    · exact Or.inl (hready.node?_put hat _ hfile)
  · rw [h]
    by_cases hat : at_ = s.target path way name
    · rw [hat] at hfile hd
      exact absurd (detour_of_ready hs hready hfile hp) hd
    · exact Or.inl (hready.node?_put hat _ hfile)

theorem writing_of_detour (hs : s.WellFormed) (path generated guardSymbol : Text)
    (hfile : s.node? at_ = some (.file c)) (hd : s.Detour path at_) :
    (s.writing path generated guardSymbol).1 = .ok .created ∧
    (s.writing path generated guardSymbol).2.locate path = .ok at_ ∧
    (s.writing path generated guardSymbol).2.node? at_ = some (.file (.text generated)) ∧
    ∀ l c', l ≠ at_ → s.node? l = some (.file c') →
      (s.writing path generated guardSymbol).2.node? l = some (.file c') := by
  have hp := hd.present_eq_false
  obtain ⟨way, name, hends, rfl, hclear, -⟩ := hd
  obtain ⟨t, hready, hw⟩ := write_of_isClear hs hends hclear hfile (.text generated)
  unfold writing
  rw [effect_writeEditor_of_absent hp hw]
  exact ⟨rfl, hready.locate_put _, node?_put_self t target_ne_nil _, fun l c' hl => hready.node?_put hl _⟩

/-- Where an editor is created: the path leads to it afterwards, and nothing was there or it is the end of a
detour. -/
theorem writing_created (hs : s.WellFormed) (path generated guardSymbol : Text)
    (h : (s.writing path generated guardSymbol).1 = .ok .created) :
    ∃ at_, (s.writing path generated guardSymbol).2.locate path = .ok at_ ∧
      (s.writing path generated guardSymbol).2.node? at_ = some (.file (.text generated)) ∧
      (s.node? at_ = none ∨ ∃ c, s.node? at_ = some (.file c) ∧ s.Detour path at_) := by
  unfold writing at h ⊢
  rcases writeEditor_cases s path generated guardSymbol with
    ⟨e, t, -, hr⟩ | ⟨e, t, way, name, -, -, -, hr⟩ | ⟨t, way, name, hready, hp, hr⟩
  · rw [hr] at h
    cases h
  · rw [hr] at h
    cases h
  · rw [hr]
    refine ⟨s.target path way name, hready.locate_put _, node?_put_self t target_ne_nil _, ?_⟩
    cases hn : s.node? (s.target path way name) with
    | none => exact Or.inl rfl
    | some n =>
      cases n with
      | directory => exact absurd (hready.grown.kept hn) hready.free
      | file c => exact Or.inr ⟨c, rfl, detour_of_ready hs hready hn hp⟩

/-- **Nothing is lost**: every file survives, and an editor is created only where nothing was before. -/
structure Lossless (s : Tree) (path generated guardSymbol : Text) : Prop where
  survives : ∀ at_ c, s.node? at_ = some (.file c) → s.Survives path generated guardSymbol at_ c
  fresh : (s.writing path generated guardSymbol).1 = .ok .created →
    ∃ at_, (s.writing path generated guardSymbol).2.locate path = .ok at_ ∧
      (s.writing path generated guardSymbol).2.node? at_ = some (.file (.text generated)) ∧
      s.node? at_ = none

/-- **Writing an editor loses nothing exactly if its path is no detour to a file.** The file at the end of a
detour is overwritten as if nothing had been there, and no other file is touched. -/
theorem writeEditor_lossless_iff_not_detour (hs : s.WellFormed) (path generated guardSymbol : Text) :
    (s.Lossless path generated guardSymbol ↔ ∀ at_ c, s.node? at_ = some (.file c) → ¬ s.Detour path at_) ∧
    ∀ at_ c, s.node? at_ = some (.file c) → s.Detour path at_ →
      (s.writing path generated guardSymbol).1 = .ok .created ∧
      (s.writing path generated guardSymbol).2.node? at_ = some (.file (.text generated)) ∧
      ∀ l c', l ≠ at_ → s.node? l = some (.file c') →
        (s.writing path generated guardSymbol).2.node? l = some (.file c') := by
  refine ⟨⟨fun h at_ c hfile hd => ?_, fun h => ⟨fun at_ c hfile => ?_, fun hcreated => ?_⟩⟩,
    fun at_ c hfile hd => ?_⟩
  · obtain ⟨hcreated, hlocate, -⟩ := writing_of_detour hs path generated guardSymbol hfile hd
    obtain ⟨l, hl, -, hnone⟩ := h.fresh hcreated
    obtain rfl := Except.ok.inj (hl.symm.trans hlocate)
    rw [hfile] at hnone
    cases hnone
  · exact survives_of_not_detour hs path generated guardSymbol hfile (h at_ c hfile)
  · obtain ⟨at_, hlocate, hnode, hnone | ⟨c, hfile, hd⟩⟩ :=
      writing_created hs path generated guardSymbol hcreated
    · exact ⟨at_, hlocate, hnode, hnone⟩
    · exact absurd hd (h at_ c hfile)
  · obtain ⟨hcreated, -, hnode, hrest⟩ := writing_of_detour hs path generated guardSymbol hfile hd
    exact ⟨hcreated, hnode, hrest⟩

/-- A tree with one file, at the root. -/
def single (name : Text) (c : Contents) : Tree := ⟨[([name], .file c)], []⟩

theorem node?_single {n : Node} (h : (single name c).node? at_ = some n) :
    at_ = [] ∨ at_ = [name] := by
  by_contra hne
  obtain ⟨hroot, hname⟩ := not_or.1 hne
  rw [node?, if_neg hroot] at h
  simp [single, Table.get?, Ne.symm hname] at h

theorem wellFormed_single (hname : Text.byteSize name ≤ maxName) : (single name c).WellFormed := by
  refine ⟨fun h => ?_, fun h => ?_, rfl⟩
  · rcases node?_single h with rfl | rfl <;> rfl
  · rcases node?_single h with rfl | rfl
    · exact Nat.zero_le _
    · exact hname

/-- From the root, a directory that is missing and the way up again make a detour to the file. -/
theorem detour_single (dir : Text) (h : EndsIn path [dir, "..".toList] name)
    (hdir : Path.isVoid dir = false ∧ dir ≠ "..".toList) (hshort : Text.byteSize dir ≤ maxName)
    (hne : dir ≠ name) : (single name c).Detour path [name] := by
  have horigin : (single name c).origin path = [] := by
    unfold origin
    split <;> rfl
  have hmove : move [] dir = [dir] := by
    rw [move, if_neg (Bool.eq_false_iff.1 hdir.1), if_neg hdir.2]
    rfl
  have hvisited : visited [] [dir, "..".toList] = [[], [dir], []] := by
    rw [visited, hmove]
    rfl
  have hnone : (single name c).node? [dir] = none := by
    simp [node?, single, Table.get?, Ne.symm hne]
  refine ⟨[dir, "..".toList], name, h, ?_, ?_, [dir], ?_, hnone⟩
  · rw [target, horigin, destination_cons, hmove]
    rfl
  · rw [horigin, hvisited]
    simp only [List.forall_mem_cons]
    refine ⟨⟨Nat.zero_le _, fun c' h' => ?_⟩, ⟨hshort, fun c' h' => ?_⟩,
      ⟨Nat.zero_le _, fun c' h' => ?_⟩, by simp⟩
    · cases h'
    · rw [hnone] at h'
      cases h'
    · cases h'
  · rw [horigin, hvisited]
    exact List.mem_cons_of_mem _ List.mem_cons_self

/-- A file that is lost: the path goes into a directory that is missing and up again. -/
theorem not_lossless_new_up :
    (single "AEditor.cs".toList (.text "// kept by hand\n".toList)).WellFormed ∧
    ¬ (single "AEditor.cs".toList (.text "// kept by hand\n".toList)).Lossless
        "new/../AEditor.cs".toList "using UnityEditor;\n".toList "UNITY_EDITOR".toList ∧
    ((single "AEditor.cs".toList (.text "// kept by hand\n".toList)).writing
        "new/../AEditor.cs".toList "using UnityEditor;\n".toList "UNITY_EDITOR".toList).2.node?
      ["AEditor.cs".toList] = some (.file (.text "using UnityEditor;\n".toList)) := by
  have hs : (single "AEditor.cs".toList (.text "// kept by hand\n".toList)).WellFormed :=
    wellFormed_single (by decide)
  have hd : (single "AEditor.cs".toList (.text "// kept by hand\n".toList)).Detour
      "new/../AEditor.cs".toList ["AEditor.cs".toList] :=
    detour_single "new".toList ⟨by decide, by decide, by decide, by decide⟩ ⟨by decide, by decide⟩
      (by decide) (by decide)
  obtain ⟨hiff, hlost⟩ := writeEditor_lossless_iff_not_detour hs "new/../AEditor.cs".toList
    "using UnityEditor;\n".toList "UNITY_EDITOR".toList
  exact ⟨hs, fun h => hiff.1 h _ _ rfl hd, (hlost _ _ rfl hd).2.1⟩

end EditorScaffold.Tree
