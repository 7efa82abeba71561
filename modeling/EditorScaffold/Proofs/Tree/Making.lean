import EditorScaffold.Proofs.Tree.Walk

/-! # Making directories

Making directories only adds directories: all that was in a tree stays as it is, whether all of them can be
made or not (`Extends`, `extends_makeDirectories`). Where no file and no name that is too long is in the way
(`IsClear`), a walk can only fail because a directory is missing (`arrive_error_of_isClear`). -/

namespace EditorScaffold.Tree

/-! ### Well formed trees -/

/-- **A tree as it can be on a disk**: everything is in a directory and has a name that can be looked up, and
the working directory is there. -/
structure WellFormed (s : Tree) : Prop where
  around : ∀ {at_ n}, s.node? at_ = some n → s.node? at_.dropLast = some .directory
  short : ∀ {at_ n}, s.node? at_ = some n → Text.byteSize (at_.getLastD []) ≤ maxName
  home : s.node? s.cwd = some .directory

variable {s t u : Tree} {at_ l : Location} {path x : Text} {way : List Text}

theorem node?_root (s : Tree) : s.node? [] = some .directory := rfl

theorem node?_put_self (s : Tree) (hne : at_ ≠ []) (n : Node) : (s.put at_ n).node? at_ = some n := by
  rw [node?, if_neg hne]
  exact Table.get?_put_self s.nodes at_ n

theorem node?_put_of_ne (s : Tree) (h : l ≠ at_) (n : Node) : (s.put at_ n).node? l = s.node? l := by
  unfold node?
  split
  · rfl
  · exact Table.get?_put_of_ne h s.nodes n

theorem ne_nil_of_node?_eq_none (h : s.node? at_ = none) : at_ ≠ [] := by
  rintro rfl
  cases h

/-- What is put where nothing was leaves the rest as it is. -/
theorem node?_put_of_some (hnone : s.node? at_ = none) {n : Node} (hl : s.node? l = some n) (m : Node) :
    (s.put at_ m).node? l = some n := by
  rw [node?_put_of_ne]
  · exact hl
  · rintro rfl
    rw [hl] at hnone
    cases hnone

namespace WellFormed

theorem canEnter (hs : s.WellFormed) (h : s.node? at_ = some .directory) : s.CanEnter at_ := ⟨hs.short h, h⟩

theorem canEnter_origin (hs : s.WellFormed) (path : Text) : s.CanEnter (s.origin path) := by
  unfold origin
  split
  · exact hs.canEnter s.node?_root
  · exact hs.canEnter hs.home

theorem canEnter_dropLast (hs : s.WellFormed) (h : s.CanEnter at_) : s.CanEnter at_.dropLast :=
  hs.canEnter (hs.around h.2)

/-- A new directory in a directory keeps a tree well formed. -/
theorem put_directory (hs : s.WellFormed) (hin : s.CanEnter at_)
    (hx : Text.byteSize x ≤ maxName) (hnone : s.node? (at_ ++ [x]) = none) :
    (s.put (at_ ++ [x]) .directory).WellFormed := by
  refine ⟨fun {k n} hk => ?_, fun {k n} hk => ?_, node?_put_of_some hnone hs.home _⟩
  · by_cases hkl : k = at_ ++ [x]
    · rw [hkl, List.dropLast_concat]
      exact node?_put_of_some hnone hin.2 _
    · rw [node?_put_of_ne s hkl] at hk
      exact node?_put_of_some hnone (hs.around hk) _
  · by_cases hkl : k = at_ ++ [x]
    · rw [hkl, List.getLastD_concat]
      exact hx
    · rw [node?_put_of_ne s hkl] at hk
      exact hs.short hk

end WellFormed

/-! ### Trees with more directories -/

/-- **The tree `t` is `s` with new directories**: the working directory is the same, what is in `s` stays,
and all that is new is a directory. -/
structure Extends (s t : Tree) : Prop where
  cwd : t.cwd = s.cwd
  kept : ∀ {at_ n}, s.node? at_ = some n → t.node? at_ = some n
  fresh : ∀ {at_ n}, t.node? at_ = some n → s.node? at_ = some n ∨ n = .directory
  wellFormed : s.WellFormed → t.WellFormed

namespace Extends

theorem refl (s : Tree) : Extends s s := ⟨rfl, id, Or.inl, id⟩

theorem trans (h : Extends s t) (h' : Extends t u) : Extends s u where
  cwd := h'.cwd.trans h.cwd
  kept hk := h'.kept (h.kept hk)
  fresh hk := by
    rcases h'.fresh hk with hk | rfl
    · exact h.fresh hk
    · exact Or.inr rfl
  wellFormed hs := h'.wellFormed (h.wellFormed hs)

theorem origin (h : Extends s t) (path : Text) : t.origin path = s.origin path := by
  unfold Tree.origin
  rw [h.cwd]

theorem canEnter (h : Extends s t) (hin : s.CanEnter at_) : t.CanEnter at_ := ⟨hin.1, h.kept hin.2⟩

/-- The files are the same. -/
theorem file_iff (h : Extends s t) {c : Contents} :
    t.node? at_ = some (.file c) ↔ s.node? at_ = some (.file c) := by
  constructor
  · intro ht
    rcases h.fresh ht with hs | hd
    · exact hs
    · cases hd
  · exact h.kept

end Extends

theorem extends_put_directory (hin : s.CanEnter at_) (hx : Text.byteSize x ≤ maxName)
    (hnone : s.node? (at_ ++ [x]) = none) : Extends s (s.put (at_ ++ [x]) .directory) where
  cwd := rfl
  kept hk := node?_put_of_some hnone hk _
  fresh {k n} hk := by
    by_cases hkl : k = at_ ++ [x]
    · rw [hkl, node?_put_self s (ne_nil_of_node?_eq_none hnone)] at hk
      exact Or.inr (Option.some.inj hk).symm
    · rw [node?_put_of_ne s hkl] at hk
      exact Or.inl hk
  wellFormed hs := hs.put_directory hin hx hnone

/-! ### One directory -/

theorem slot_eq_some (h : s.slot path = .ok (some l)) : ∃ k x, l = k ++ [x] ∧ s.CanEnter k := by
  unfold slot at h
  obtain ⟨⟨⟩, -, hparts⟩ := bind_eq_ok_iff.1 h
  dsimp only at hparts
  split at hparts
  · cases hparts
  · next x _ =>
    obtain ⟨k, -, henter⟩ := bind_eq_ok_iff.1 hparts
    obtain ⟨k', hk, hl⟩ := bind_eq_ok_iff.1 henter
    obtain ⟨rfl, hin⟩ := enter_eq_ok_iff.1 hk
    split at hl
    · cases hl
    · exact ⟨k', x, (Option.some.inj (Except.ok.inj hl)).symm, hin⟩

theorem makeDirectory_eq_ok (h : s.makeDirectory path = .ok t) :
    ∃ l, s.slot path = .ok (some l) ∧ s.find l = .ok none ∧ t = s.put l .directory := by
  unfold makeDirectory at h
  obtain ⟨o, ho, h⟩ := bind_eq_ok_iff.1 h
  split at h
  · cases h
  · next l =>
    obtain ⟨n, hn, h⟩ := bind_eq_ok_iff.1 h
    split at h
    · cases h
    · exact ⟨l, ho, hn, (Except.ok.inj h).symm⟩

theorem extends_makeDirectory (h : s.makeDirectory path = .ok t) : Extends s t := by
  obtain ⟨l, hslot, hfind, rfl⟩ := makeDirectory_eq_ok h
  obtain ⟨k, x, rfl, hin⟩ := slot_eq_some hslot
  obtain ⟨hx, hnone⟩ := find_eq_ok_iff.1 hfind
  rw [List.getLastD_concat] at hx
  exact extends_put_directory hin hx hnone.symm

/-! ### Many directories -/

theorem extends_ensureDirectory (s : Tree) (path : Text) : Extends s (s.ensureDirectory path).1 := by
  unfold ensureDirectory
  split
  · next t h => exact extends_makeDirectory h
  · exact Extends.refl s

/-- **Making directories only adds directories**, whether it succeeds or not. -/
theorem extends_makeDirectories (fuel : ℕ) (s : Tree) (path : Text) :
    Extends s (makeDirectories fuel s path).1 := by
  induction fuel generalizing path with
  | zero => exact Extends.refl s
  | succ fuel ih =>
    unfold makeDirectories
    split
    · exact Extends.refl s
    · split
      · next t h => exact extends_makeDirectory h
      · split
        · exact Extends.refl s
        · next parent _ =>
          have hparent := ih parent
          split
          · next t ht =>
            rw [ht] at hparent
            exact hparent.trans (extends_ensureDirectory t path)
          · exact hparent
      · exact Extends.refl s

theorem extends_makeParents (s : Tree) (path : Text) : Extends s (s.makeParents path).1 := by
  unfold makeParents
  split
  · exact Extends.refl s
  · exact extends_makeDirectories _ s _

/-! ### Nothing in the way -/

/-- No file and no name that is too long is in the way at a location. -/
structure IsClear (s : Tree) (at_ : Location) : Prop where
  short : Text.byteSize (at_.getLastD []) ≤ maxName
  noFile : ∀ c, s.node? at_ ≠ some (.file c)

theorem IsClear.canEnter (h : s.IsClear at_) {n : Node} (hn : s.node? at_ = some n) : s.CanEnter at_ := by
  refine ⟨h.short, ?_⟩
  cases n with
  | directory => exact hn
  | file c => exact absurd hn (h.noFile c)

theorem Extends.isClear (h : Extends s t) (hc : s.IsClear at_) : t.IsClear at_ :=
  ⟨hc.short, fun c ht => hc.noFile c (h.file_iff.1 ht)⟩

/-- Nothing but a missing directory keeps a walk with nothing in the way from arriving. -/
theorem arrive_error_of_isClear {ps : List Text} {e : FileError} (hclear : ∀ k ∈ visited at_ ps, s.IsClear k)
    (h : s.arrive at_ ps = .error e) : e = .notFound ∧ ∃ k ∈ visited at_ ps, s.node? k = none := by
  obtain ⟨k, hk, he⟩ := exists_enter_of_arrive h
  rcases enter_eq_error he with hlong | ⟨c, hc⟩ | ⟨rfl, hnone⟩
  · have := (hclear k hk).short
    omega
  · exact absurd hc ((hclear k hk).noFile c)
  · exact ⟨rfl, k, hk, hnone⟩

end EditorScaffold.Tree
