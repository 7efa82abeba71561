import EditorScaffold.Proofs.Tree.Making

/-! # The directories around a path

The directories around a path are made from the outermost missing one inwards. One step makes the directory
of a path, finds it there, or finds that a directory around it is missing (`makeDirectory_cases`). By
induction all of them are there in the end if nothing is in the way (`makeDirectories_of_isClear`). -/

namespace EditorScaffold.Tree

variable {s t : Tree} {at_ k l : Location} {path x : Text} {way : List Text}

/-! ### What a path leads through -/

theorem mem_visited_names (hp : Path.pieces path = way ++ [x]) :
    k ∈ visited at_ (Path.names path) ↔ k ∈ visited at_ way ∨ k = destination at_ (way ++ [x]) := by
  rw [Path.names, mem_visited_filter, hp, visited_concat, List.mem_append, List.mem_singleton]

theorem destination_concat_name (hx : Path.isVoid x = false) (hup : x ≠ "..".toList) :
    destination at_ (way ++ [x]) = destination at_ way ++ [x] := by
  rw [destination_concat, move, if_neg (Bool.eq_false_iff.1 hx), if_neg hup]

theorem destination_concat_up : destination at_ (way ++ ["..".toList]) = (destination at_ way).dropLast := by
  rw [destination_concat]
  rfl

theorem ne_nil_of_isVoid_eq_false (hx : Path.isVoid x = false) : x ≠ [] := by
  rintro rfl
  cases hx

theorem ne_dot_of_isVoid_eq_false (hx : Path.isVoid x = false) : x ≠ ".".toList := by
  rintro rfl
  cases hx

theorem isVoid_of_names_eq_nil (hn : Path.names path = []) {y : Text} (hy : y ∈ Path.pieces path) :
    Path.isVoid y = true := by
  by_contra h
  have hmem : y ∈ Path.names path := List.mem_filter.2 ⟨hy, by simp [h]⟩
  rw [hn] at hmem
  cases hmem

/-- Parts that lead nowhere are followed without leaving the directory. -/
theorem arrive_of_isVoid (hin : s.CanEnter at_) {ps : List Text} (h : ∀ y ∈ ps, Path.isVoid y = true) :
    s.arrive at_ ps = .ok (destination at_ ps) := by
  refine arrive_eq_ok_iff.2 ⟨rfl, fun k hk => ?_⟩
  have hnil : ps.filter (!Path.isVoid ·) = [] := List.filter_eq_nil_iff.2 fun y hy => by simp [h y hy]
  rw [← mem_visited_filter, hnil, visited, List.mem_singleton] at hk
  rw [hk]
  exact hin

theorem trimEmpty_of_isVoid {ps : List Text} (h : ∀ y ∈ ps, Path.isVoid y = true) :
    (ps.reverse.dropWhile (· = [])).reverse = [] ∨
      ∃ way, (ps.reverse.dropWhile (· = [])).reverse = way ++ [".".toList] ∧
        ∀ y ∈ way, Path.isVoid y = true := by
  induction ps using List.reverseRecOn with
  | nil => exact Or.inl rfl
  | append_singleton ps x ih =>
    by_cases hx : x = []
    · have hdrop : ((ps ++ [x]).reverse.dropWhile (· = [])).reverse =
          (ps.reverse.dropWhile (· = [])).reverse :=
        List.rdropWhile_concat_pos (· = []) ps x (by simp [hx])
      rw [hdrop]
      exact ih fun y hy => h y (List.mem_append_left _ hy)
    · right
      refine ⟨ps, ?_, fun y hy => h y (List.mem_append_left _ hy)⟩
      have hvoid := h x (List.mem_append_right _ List.mem_cons_self)
      have hdot : x = ".".toList := by simpa [Path.isVoid, hx] using hvoid
      rw [trimEmpty_concat hx, hdot]

/-- A path that leads nowhere has no slot. -/
theorem slot_of_names_eq_nil (hs : s.WellFormed) (hcheck : checkPath path = .ok ())
    (hn : Path.names path = []) : s.slot path = .ok none := by
  have hvoid : ∀ y ∈ Path.pieces path, Path.isVoid y = true := fun y hy => isVoid_of_names_eq_nil hn hy
  unfold slot
  rw [hcheck]
  rcases trimEmpty_of_isVoid hvoid with h | ⟨way, h, hway⟩
  · simp only [h]
    rfl
  · have harr := arrive_of_isVoid (hs.canEnter_origin path) hway
    unfold arrive at harr
    obtain ⟨k, hwalk, henter⟩ := bind_eq_ok_iff.1 harr
    simp only [h, List.getLast?_concat, List.dropLast_concat, hwalk]
    refine bind_eq_ok_iff.2 ⟨(), rfl, bind_eq_ok_iff.2 ⟨k, rfl, bind_eq_ok_iff.2 ⟨_, henter, ?_⟩⟩⟩
    rfl

/-! ### One step -/

theorem makeDirectory_of_slot_none (h : s.slot path = .ok none) :
    s.makeDirectory path = .error .alreadyExists := by
  unfold makeDirectory
  rw [h]
  rfl

theorem makeDirectory_of_slot_some (h : s.slot path = .ok (some l)) {n : Node}
    (hl : s.find l = .ok (some n)) : s.makeDirectory path = .error .alreadyExists :=
  bind_eq_error_iff.2 (Or.inr ⟨_, h, bind_eq_error_iff.2 (Or.inr ⟨_, hl, rfl⟩)⟩)

theorem makeDirectory_of_slot_free (h : s.slot path = .ok (some l)) (hl : s.find l = .ok none) :
    s.makeDirectory path = .ok (s.put l .directory) :=
  bind_eq_ok_iff.2 ⟨_, h, bind_eq_ok_iff.2 ⟨_, hl, rfl⟩⟩

theorem canEnter_names (hp : Path.pieces path = way ++ [x]) (hway : ∀ k ∈ visited at_ way, s.CanEnter k)
    (hlast : s.CanEnter (destination at_ (way ++ [x]))) :
    ∀ k ∈ visited at_ (Path.names path), s.CanEnter k := by
  intro k hk
  rcases (mem_visited_names hp).1 hk with hk | rfl
  · exact hway k hk
  · exact hlast

/-- A path that goes up at its end is that of a directory as soon as it can be followed. -/
theorem makeDirectory_up (hs : s.WellFormed) (hcheck : checkPath path = .ok ())
    (hp : Path.pieces path = way ++ ["..".toList])
    (hin : ∀ k ∈ visited (s.origin path) way, s.CanEnter k) :
    s.makeDirectory path = .error .alreadyExists ∧
      ∀ k ∈ visited (s.origin path) (Path.names path), s.CanEnter k := by
  constructor
  · apply makeDirectory_of_slot_none
    rw [slot_eq hp (by decide), hcheck]
    exact bind_eq_ok_iff.2 ⟨(), rfl, bind_eq_ok_iff.2 ⟨_, arrive_eq_ok_iff.2 ⟨rfl, hin⟩, rfl⟩⟩
  · refine canEnter_names hp hin ?_
    rw [destination_concat_up]
    exact hs.canEnter_dropLast (hin _ (destination_mem_visited _ _))

/-- Where the last name of a path can be made, it is made unless it is there. -/
theorem makeDirectory_name (hcheck : checkPath path = .ok ()) (hp : Path.pieces path = way ++ [x])
    (hx : Path.isVoid x = false) (hup : x ≠ "..".toList)
    (hin : ∀ k ∈ visited (s.origin path) way, s.CanEnter k)
    (hlast : s.IsClear (destination (s.origin path) way ++ [x])) :
    (∃ t, s.makeDirectory path = .ok t ∧
      ∀ k ∈ visited (s.origin path) (Path.names path), t.CanEnter k) ∨
    (s.makeDirectory path = .error .alreadyExists ∧
      ∀ k ∈ visited (s.origin path) (Path.names path), s.CanEnter k) := by
  have hslot := (slot_eq_some_iff hp (ne_nil_of_isVoid_eq_false hx)).2
    ⟨hcheck, ⟨ne_dot_of_isVoid_eq_false hx, hup⟩, rfl, hin⟩
  have hfind : s.find _ = _ := find_eq_ok_iff.2 ⟨hlast.short, rfl⟩
  cases hnode : s.node? (destination (s.origin path) way ++ [x]) with
  | some n =>
    right
    rw [hnode] at hfind
    refine ⟨makeDirectory_of_slot_some hslot hfind, canEnter_names hp hin ?_⟩
    rw [destination_concat_name hx hup]
    exact hlast.canEnter hnode
  | none =>
    left
    rw [hnode] at hfind
    have hmade := makeDirectory_of_slot_free hslot hfind
    refine ⟨_, hmade, canEnter_names hp (fun k hk => (extends_makeDirectory hmade).canEnter (hin k hk)) ?_⟩
    rw [destination_concat_name hx hup]
    exact ⟨hlast.short, node?_put_self s (ne_nil_of_node?_eq_none hnode) _⟩

/-- **One step**: the directory of a path is made, it is there already, or a directory around it is
missing. -/
theorem makeDirectory_cases (hs : s.WellFormed) (hcheck : checkPath path = .ok ())
    (htidy : Path.IsTidy path) (hclear : ∀ k ∈ visited (s.origin path) (Path.names path), s.IsClear k) :
    (∃ t, s.makeDirectory path = .ok t ∧
      ∀ k ∈ visited (s.origin path) (Path.names path), t.CanEnter k) ∨
    (s.makeDirectory path = .error .alreadyExists ∧
      ∀ k ∈ visited (s.origin path) (Path.names path), s.CanEnter k) ∨
    (s.makeDirectory path = .error .notFound ∧
      ∃ way x, Path.pieces path = way ++ [x] ∧ Path.isVoid x = false ∧
        ∃ k ∈ visited (s.origin path) way, s.node? k = none) := by
  rcases htidy with hn | ⟨way, x, hp, hx⟩
  · right; left
    refine ⟨makeDirectory_of_slot_none (slot_of_names_eq_nil hs hcheck hn), fun k hk => ?_⟩
    rw [hn, visited, List.mem_singleton] at hk
    rw [hk]
    exact hs.canEnter_origin path
  · cases harr : s.arrive (s.origin path) way with
    | error e =>
      right; right
      obtain ⟨rfl, hmissing⟩ := arrive_error_of_isClear
        (fun k hk => hclear k ((mem_visited_names hp).2 (Or.inl hk))) harr
      refine ⟨bind_eq_error_iff.2 (Or.inl ?_), way, x, hp, hx, hmissing⟩
      rw [slot_eq hp (ne_nil_of_isVoid_eq_false hx), hcheck, harr]
      rfl
    | ok l =>
      obtain ⟨-, hin⟩ := arrive_eq_ok_iff.1 harr
      by_cases hup : x = "..".toList
      · rw [hup] at hp
        exact Or.inr (Or.inl (makeDirectory_up hs hcheck hp hin))
      · have hlast := hclear _ ((mem_visited_names hp).2 (Or.inr rfl))
        rw [destination_concat_name hx hup] at hlast
        exact (makeDirectory_name hcheck hp hx hup hin hlast).imp_right Or.inl

/-! ### All steps -/

theorem checkPath_of_prefix {p : Text} (h : path <+: p) (hne : path ≠ []) (hcheck : checkPath p = .ok ()) :
    checkPath path = .ok () := by
  obtain ⟨hnul, -, hlen⟩ := checkPath_eq_ok_iff.1 hcheck
  refine checkPath_eq_ok_iff.2 ⟨fun hmem => hnul (h.subset hmem), hne, ?_⟩
  obtain ⟨r, rfl⟩ := h
  rw [Text.byteSize_append] at hlen
  omega

/-- What is around a path, without its last name. -/
theorem mem_visited_parent {p : Text} (hn : Path.names p = way.filter (!Path.isVoid ·))
    (hroot : Path.isAbsolute p = Path.isAbsolute path) :
    k ∈ visited (s.origin p) (Path.names p) ↔ k ∈ visited (s.origin path) way := by
  have ho : s.origin p = s.origin path := by rw [origin, origin, hroot]
  rw [hn, mem_visited_filter, ho]

theorem ensureDirectory_of_around (hs : s.WellFormed) (hcheck : checkPath path = .ok ())
    (hp : Path.pieces path = way ++ [x]) (hx : Path.isVoid x = false)
    (hclear : ∀ k ∈ visited (s.origin path) (Path.names path), s.IsClear k)
    (hin : ∀ k ∈ visited (s.origin path) way, s.CanEnter k) :
    ∃ t, s.ensureDirectory path = (t, none) ∧
      ∀ k ∈ visited (s.origin path) (Path.names path), t.CanEnter k := by
  unfold ensureDirectory
  rcases makeDirectory_cases hs hcheck (Or.inr ⟨way, x, hp, hx⟩) hclear with
    ⟨t, h, ht⟩ | ⟨h, ht⟩ | ⟨-, way', x', hp', -, k, hk, hnone⟩
  · exact ⟨t, by rw [h], ht⟩
  · refine ⟨s, ?_, ht⟩
    rw [h]
    simp only [isDirectory_of_visited hcheck ht, if_true]
  · obtain ⟨rfl, -⟩ := List.append_inj' (hp'.symm.trans hp) rfl
    rw [(hin k hk).2] at hnone
    cases hnone

/-- **All directories of a path are made** if no file and no name that is too long is in the way: in the end
all that the path leads through can be entered. -/
theorem makeDirectories_of_isClear (fuel : ℕ) (hs : s.WellFormed) (htidy : Path.IsTidy path)
    (hcheck : path ≠ [] → checkPath path = .ok ()) (hfuel : path.length < fuel)
    (hclear : ∀ k ∈ visited (s.origin path) (Path.names path), s.IsClear k) :
    ∃ t, makeDirectories fuel s path = (t, none) ∧
      ∀ k ∈ visited (s.origin path) (Path.names path), t.CanEnter k := by
  induction fuel generalizing path with
  | zero => omega
  | succ fuel ih =>
    unfold makeDirectories
    by_cases hne : path = []
    · refine ⟨s, if_pos hne, fun k hk => ?_⟩
      have hn : Path.names path = [] := by rw [hne]; rfl
      rw [hn, visited, List.mem_singleton] at hk
      rw [hk]
      exact hs.canEnter_origin path
    · rw [if_neg hne]
      rcases makeDirectory_cases hs (hcheck hne) htidy hclear with
        ⟨t, h, ht⟩ | ⟨h, ht⟩ | ⟨h, way, x, hp, hx, -⟩
      · exact ⟨t, by rw [h], ht⟩
      · refine ⟨s, ?_, ht⟩
        rw [h]
        simp only [isDirectory_of_visited (hcheck hne) ht, if_true]
      · -- The parent begins the path and is another path, so that it is shorter.
        obtain ⟨p, hparent, hpre, hroot, hn, hptidy⟩ := Path.parent?_eq_some hx hp
        have hlt : p.length < path.length := Path.length_lt_of_names hpre hn hp hx
        have hpclear : ∀ k ∈ visited (s.origin p) (Path.names p), s.IsClear k := fun k hk =>
          hclear k ((mem_visited_names hp).2 (Or.inl ((mem_visited_parent hn hroot).1 hk)))
        obtain ⟨t, ht, htin⟩ := ih hptidy (fun hpne => checkPath_of_prefix hpre hpne (hcheck hne))
          (by omega) hpclear
        have hext := extends_makeDirectories fuel s p
        rw [ht] at hext
        obtain ⟨u, hu, huin⟩ := ensureDirectory_of_around (hext.wellFormed hs) (hcheck hne) hp hx
          (fun k hk => hext.isClear (hclear k (hext.origin path ▸ hk)))
          (fun k hk => htin k ((mem_visited_parent hn hroot).2 (hext.origin path ▸ hk)))
        refine ⟨u, ?_, fun k hk => huin k ((hext.origin path).symm ▸ hk)⟩
        rw [h]
        simp only [hparent, ht, hu]

/-- **The directories around a path are made** if nothing is in the way. -/
theorem makeParents_of_isClear (hs : s.WellFormed) (hcheck : checkPath path = .ok ())
    (hp : Path.pieces path = way ++ [x]) (hx : Path.isVoid x = false)
    (hclear : ∀ k ∈ visited (s.origin path) way, s.IsClear k) :
    ∃ t, s.makeParents path = (t, none) ∧ ∀ k ∈ visited (s.origin path) way, t.CanEnter k := by
  obtain ⟨p, hparent, hpre, hroot, hn, hptidy⟩ := Path.parent?_eq_some hx hp
  have hlen := hpre.length_le
  obtain ⟨t, ht, htin⟩ := makeDirectories_of_isClear (path.length + 1) hs hptidy
    (fun hpne => checkPath_of_prefix hpre hpne hcheck) (by omega)
    (fun k hk => hclear k ((mem_visited_parent hn hroot).1 hk))
  refine ⟨t, ?_, fun k hk => htin k ((mem_visited_parent hn hroot).2 hk)⟩
  unfold makeParents
  rw [hparent]
  exact ht

end EditorScaffold.Tree
