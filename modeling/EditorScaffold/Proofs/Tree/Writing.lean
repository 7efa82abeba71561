import EditorScaffold.Proofs.Store.Effect
import EditorScaffold.Proofs.Tree.Parents

/-! # Writing files

A file can be written at a path that ends in a name (`EndsIn`). It is put where the parts of the path lead
(`target`), in a tree in which the directories around it have been made (`Ready`, `write_cases`). Writing an
editor fails, appends to the file that the path leads to, or creates a file where the path led nowhere
(`writeEditor_cases`). -/

namespace EditorScaffold.Tree

variable {s t u : Tree} {at_ l : Location} {path name : Text} {way : List Text} {c : Contents}

/-! ### Where a file is put -/

/-- **A path of a file**: it can be walked, and ends in a name after the parts `way`. -/
structure EndsIn (path : Text) (way : List Text) (name : Text) : Prop where
  walkable : checkPath path = .ok ()
  parts : Path.pieces path = way ++ [name]
  counts : Path.isVoid name = false
  proper : name ≠ "..".toList

/-- Where the parts of a path of a file lead. -/
def target (s : Tree) (path : Text) (way : List Text) (name : Text) : Location :=
  destination (s.origin path) way ++ [name]

theorem target_ne_nil : s.target path way name ≠ [] :=
  List.append_ne_nil_of_right_ne_nil _ (List.cons_ne_nil name [])

namespace EndsIn

theorem ne_nil (h : EndsIn path way name) : path ≠ [] := (checkPath_eq_ok_iff.1 h.walkable).2.1

theorem getLast?_ne_slash (h : EndsIn path way name) : path.getLast? ≠ some '/' := by
  rw [Ne, Path.getLast?_eq_slash_iff h.ne_nil h.parts]
  exact ne_nil_of_isVoid_eq_false h.counts

theorem locate_eq_ok_iff (h : EndsIn path way name) :
    s.locate path = .ok l ↔ l = s.target path way name ∧ ∀ k ∈ visited (s.origin path) way, s.CanEnter k := by
  rw [Tree.locate_eq_ok_iff h.parts, destination_concat_name h.counts h.proper]
  exact and_iff_right h.walkable

theorem slot_eq_some_iff (h : EndsIn path way name) :
    s.slot path = .ok (some l) ↔
      l = s.target path way name ∧ ∀ k ∈ visited (s.origin path) way, s.CanEnter k := by
  rw [Tree.slot_eq_some_iff h.parts (ne_nil_of_isVoid_eq_false h.counts), and_iff_right h.walkable,
    and_iff_right ⟨ne_dot_of_isVoid_eq_false h.counts, h.proper⟩]
  exact Iff.rfl

end EndsIn

theorem Extends.target (h : Extends s t) (path : Text) (way : List Text) (name : Text) :
    t.target path way name = s.target path way name := by
  unfold Tree.target
  rw [h.origin]

theorem checkPath_of_slot {o : Option Location} (h : s.slot path = .ok o) : checkPath path = .ok () := by
  unfold slot at h
  obtain ⟨⟨⟩, hcheck, -⟩ := bind_eq_ok_iff.1 h
  exact hcheck

/-- A path with a slot and without a slash at the end is that of a file. -/
theorem endsIn_of_slot (h : s.slot path = .ok (some l)) (hslash : path.getLast? ≠ some '/') :
    ∃ way name, EndsIn path way name := by
  obtain ⟨way, name, hp⟩ := exists_concat_pieces path
  have hcheck := checkPath_of_slot h
  have hne : name ≠ [] := by
    rwa [Ne, Path.getLast?_eq_slash_iff (checkPath_eq_ok_iff.1 hcheck).2.1 hp] at hslash
  obtain ⟨-, ⟨hdot, hup⟩, -, -⟩ := (slot_eq_some_iff hp hne).1 h
  refine ⟨way, name, hcheck, hp, ?_, hup⟩
  have hdot' : name ≠ ['.'] := hdot
  simp [Path.isVoid, hne, hdot']

/-! ### Trees that are ready -/

/-- **The tree `t` is `s` made ready for a file**: new directories lead to its target, where no directory
is. -/
structure Ready (s t : Tree) (path : Text) (way : List Text) (name : Text) : Prop where
  endsIn : EndsIn path way name
  grown : Extends s t
  enter : ∀ k ∈ visited (s.origin path) way, t.CanEnter k
  short : Text.byteSize name ≤ maxName
  free : t.node? (s.target path way name) ≠ some .directory

theorem putFile_eq_ok (hext : Extends s t) (h : t.putFile path c = .ok u) :
    ∃ way name, Ready s t path way name ∧ u = t.put (s.target path way name) (.file c) := by
  unfold putFile at h
  obtain ⟨o, hslot, h⟩ := bind_eq_ok_iff.1 h
  cases o with
  | none => cases h
  | some l =>
    dsimp only at h
    split at h
    · cases h
    · next hslash =>
      obtain ⟨n, hfind, h⟩ := bind_eq_ok_iff.1 h
      obtain ⟨way, name, hends⟩ := endsIn_of_slot hslot hslash
      obtain ⟨rfl, henter⟩ := hends.slot_eq_some_iff.1 hslot
      obtain ⟨hshort, rfl⟩ := find_eq_ok_iff.1 hfind
      rw [hext.origin] at henter
      rw [target, List.getLastD_concat] at hshort
      rw [hext.target] at h
      split at h
      · cases h
      · next hfree => exact ⟨way, name, ⟨hends, hext, henter, hshort, hfree⟩, (Except.ok.inj h).symm⟩

theorem Ready.putFile (h : Ready s t path way name) (c : Contents) :
    t.putFile path c = .ok (t.put (s.target path way name) (.file c)) := by
  have hslot : t.slot path = .ok (some (s.target path way name)) := by
    rw [h.endsIn.slot_eq_some_iff, h.grown.origin, h.grown.target]
    exact ⟨rfl, h.enter⟩
  have hfind : t.find (s.target path way name) = .ok (t.node? (s.target path way name)) := by
    refine find_eq_ok_iff.2 ⟨?_, rfl⟩
    rw [target, List.getLastD_concat]
    exact h.short
  unfold Tree.putFile
  refine bind_eq_ok_iff.2 ⟨_, hslot, ?_⟩
  dsimp only
  rw [if_neg h.endsIn.getLast?_ne_slash]
  refine bind_eq_ok_iff.2 ⟨_, hfind, ?_⟩
  split
  · next hd => exact absurd hd h.free
  · rfl

/-- What is put at a target leaves every file elsewhere as it is. -/
theorem Ready.node?_put (h : Ready s t path way name) (hne : at_ ≠ s.target path way name) (n : Node)
    (hfile : s.node? at_ = some (.file c)) :
    (t.put (s.target path way name) n).node? at_ = some (.file c) := by
  rw [node?_put_of_ne t hne]
  exact h.grown.kept hfile

/-- The path leads to what is put at its target. -/
theorem Ready.locate_put (h : Ready s t path way name) (n : Node) :
    (t.put (s.target path way name) n).locate path = .ok (s.target path way name) := by
  refine h.endsIn.locate_eq_ok_iff.2 ⟨(h.grown.target path way name).symm, fun k hk => ?_⟩
  have hk' : t.CanEnter k := h.enter k (h.grown.origin path ▸ hk)
  refine ⟨hk'.1, ?_⟩
  rw [node?_put_of_ne t]
  · exact hk'.2
  · rintro rfl
    exact h.free hk'.2

/-- The text that is put at a target is read at the path. -/
theorem Ready.read_put (h : Ready s t path way name) (text : Text) :
    (t.put (s.target path way name) (.file (.text text))).read path = .ok text := by
  have hfind : (t.put (s.target path way name) (.file (.text text))).find (s.target path way name) =
      .ok (some (.file (.text text))) := by
    refine find_eq_ok_iff.2 ⟨?_, (node?_put_self t target_ne_nil _).symm⟩
    rw [target, List.getLastD_concat]
    exact h.short
  unfold read
  exact bind_eq_ok_iff.2 ⟨_, lookup_eq_ok_iff.2 ⟨_, h.locate_put _, hfind⟩, rfl⟩

/-- **Writing a whole file** fails and adds directories only, or puts the file in a tree that is ready. -/
theorem write_cases (s : Tree) (path : Text) (c : Contents) :
    (∃ e t, Extends s t ∧ s.write path c = (t, some e)) ∨
    ∃ t way name, Ready s t path way name ∧
      s.write path c = (t.put (s.target path way name) (.file c), none) := by
  have hext := extends_makeParents s path
  unfold write
  rcases h : s.makeParents path with ⟨t, _ | e⟩
  · rw [h] at hext
    dsimp only
    cases hput : t.putFile path c with
    | error e => exact Or.inl ⟨e, t, hext, rfl⟩
    | ok u =>
      obtain ⟨way, name, hready, rfl⟩ := putFile_eq_ok hext hput
      exact Or.inr ⟨t, way, name, hready, rfl⟩
  · rw [h] at hext
    exact Or.inl ⟨e, t, hext, rfl⟩

/-- **A file is written over another one** if nothing is in the way to it. -/
theorem write_of_isClear (hs : s.WellFormed) (h : EndsIn path way name)
    (hclear : ∀ k ∈ visited (s.origin path) way, s.IsClear k)
    (hfile : s.node? (s.target path way name) = some (.file c)) (c' : Contents) :
    ∃ t, Ready s t path way name ∧
      s.write path c' = (t.put (s.target path way name) (.file c'), none) := by
  obtain ⟨t, ht, henter⟩ := makeParents_of_isClear hs h.walkable h.parts h.counts hclear
  have hext := extends_makeParents s path
  rw [ht] at hext
  have hshort := hs.short hfile
  rw [target, List.getLastD_concat] at hshort
  have hready : Ready s t path way name := by
    refine ⟨h, hext, henter, hshort, ?_⟩
    rw [hext.kept hfile]
    simp
  refine ⟨t, hready, ?_⟩
  unfold write
  rw [ht]
  simp only [hready.putFile c']

/-! ### Writing an editor -/

theorem present_eq_true_iff : s.present path = true ↔ ∃ n, s.lookup path = .ok n := by
  unfold present
  cases s.lookup path <;> simp [Except.isOk, Except.toBool]

theorem read_eq_ok {e : Text} (h : s.read path = .ok e) :
    ∃ l, s.locate path = .ok l ∧ s.node? l = some (.file (.text e)) := by
  unfold read at h
  obtain ⟨n, hlookup, h⟩ := bind_eq_ok_iff.1 h
  obtain ⟨l, hl, hfind⟩ := lookup_eq_ok_iff.1 hlookup
  obtain ⟨-, hn⟩ := find_eq_ok_iff.1 hfind
  split at h
  · cases h
  · cases h
  · obtain rfl := Except.ok.inj h
    exact ⟨l, hl, hn.symm⟩

theorem run_present (s : Tree) (path : Text) :
    (FileStore.present (m := StateM Tree) path).run s = (s.present path, s) := rfl

theorem effect_readText (s : Tree) (path : Text) :
    effect (FileStore.readText (m := StateM Tree) path) s = (s.read path, s) := rfl

theorem effect_writeText {text : Text} {failure : Option FileError}
    (h : s.write path (.text text) = (t, failure)) :
    effect (FileStore.writeText (m := StateM Tree) path text) s = (failure.elim (.ok ()) .error, t) := by
  have hget : effect (getThe Tree : ExceptT FileError (StateM Tree) Tree) s = (.ok s, s) := rfl
  have hset : effect (set t : ExceptT FileError (StateM Tree) PUnit) s = (.ok ⟨⟩, t) := rfl
  unfold FileStore.writeText instFileStoreStateMTree
  dsimp only
  rw [effect_bind_ok hget, h]
  dsimp only
  rw [effect_bind_ok hset]
  cases failure <;> rfl

/-- Where nothing is present, the generated text is written. -/
theorem effect_writeEditor_of_absent (hp : s.present path = false) {generated : Text}
    {failure : Option FileError} (hw : s.write path (.text generated) = (t, failure)) (guardSymbol : Text) :
    effect (writeEditor (m := StateM Tree) path generated guardSymbol) s =
      (failure.elim (.ok .created) .error, t) := by
  have hrun : (FileStore.present (m := StateM Tree) path).run s = (false, s) := by rw [run_present, hp]
  rw [effect_writeEditor_absent hrun]
  cases failure with
  | none => rw [effect_bind_ok (effect_writeText hw)]; rfl
  | some e => rw [effect_bind_error (effect_writeText hw)]; rfl

/-- What is present and no text is left as it is. -/
theorem effect_writeEditor_of_unreadable (hp : s.present path = true) {e : FileError}
    (hr : s.read path = .error e) (generated guardSymbol : Text) :
    effect (writeEditor (m := StateM Tree) path generated guardSymbol) s = (.error e, s) := by
  have hrun : (FileStore.present (m := StateM Tree) path).run s = (true, s) := by rw [run_present, hp]
  have hread : effect (FileStore.readText (m := StateM Tree) path) s = (.error e, s) := by
    rw [effect_readText, hr]
  rw [effect_writeEditor_present hrun, effect_bind_error hread]

/-- A text that is present is merged with the generated one. -/
theorem effect_writeEditor_of_readable (hp : s.present path = true) {e : Text} (hr : s.read path = .ok e)
    {generated guardSymbol : Text} {failure : Option FileError}
    (hw : s.write path (.text (Merge.merge e generated guardSymbol).text) = (t, failure)) :
    effect (writeEditor (m := StateM Tree) path generated guardSymbol) s =
      (failure.elim (.ok (.appended (Merge.merge e generated guardSymbol).inserted)) .error, t) := by
  have hrun : (FileStore.present (m := StateM Tree) path).run s = (true, s) := by rw [run_present, hp]
  have hread : effect (FileStore.readText (m := StateM Tree) path) s = (.ok e, s) := by
    rw [effect_readText, hr]
  rw [effect_writeEditor_present hrun, effect_bind_ok hread]
  cases failure with
  | none => rw [effect_bind_ok (effect_writeText hw)]; rfl
  | some e => rw [effect_bind_error (effect_writeText hw)]; rfl

/-- **What writing an editor does**: it fails and adds directories only, it puts the merged text in the file
that the path leads to, or it puts the generated text in a file where the path led nowhere. -/
theorem writeEditor_cases (s : Tree) (path generated guardSymbol : Text) :
    (∃ e t, Extends s t ∧
      effect (writeEditor (m := StateM Tree) path generated guardSymbol) s = (.error e, t)) ∨
    (∃ e t way name, Ready s t path way name ∧ s.locate path = .ok (s.target path way name) ∧
      s.node? (s.target path way name) = some (.file (.text e)) ∧
      effect (writeEditor (m := StateM Tree) path generated guardSymbol) s =
        (.ok (.appended (Merge.merge e generated guardSymbol).inserted),
          t.put (s.target path way name) (.file (.text (Merge.merge e generated guardSymbol).text)))) ∨
    ∃ t way name, Ready s t path way name ∧ s.present path = false ∧
      effect (writeEditor (m := StateM Tree) path generated guardSymbol) s =
        (.ok .created, t.put (s.target path way name) (.file (.text generated))) := by
  cases hp : s.present path with
  | false =>
    rcases write_cases s path (.text generated) with ⟨e, t, hext, hw⟩ | ⟨t, way, name, hready, hw⟩
    · exact Or.inl ⟨e, t, hext, effect_writeEditor_of_absent hp hw guardSymbol⟩
    · exact Or.inr (Or.inr ⟨t, way, name, hready, rfl, effect_writeEditor_of_absent hp hw guardSymbol⟩)
  | true =>
    cases hr : s.read path with
    | error e =>
      have h := effect_writeEditor_of_unreadable hp hr generated guardSymbol
      exact Or.inl ⟨e, s, Extends.refl s, h⟩
    | ok e =>
      obtain ⟨l, hl, hnode⟩ := read_eq_ok hr
      rcases write_cases s path (.text (Merge.merge e generated guardSymbol).text) with
        ⟨e', t, hext, hw⟩ | ⟨t, way, name, hready, hw⟩
      · exact Or.inl ⟨e', t, hext, effect_writeEditor_of_readable hp hr hw⟩
      · obtain ⟨rfl, -⟩ := hready.endsIn.locate_eq_ok_iff.1 hl
        have h := effect_writeEditor_of_readable hp hr hw
        exact Or.inr (Or.inl ⟨e, t, way, name, hready, hl, hnode, h⟩)

end EditorScaffold.Tree
