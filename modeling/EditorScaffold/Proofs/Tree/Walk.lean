import EditorScaffold.Proofs.Path.Names
import EditorScaffold.Store.Tree

/-! # Walks through a tree

Parts of a path lead from location to location, whether or not anything is there (`destination`, `visited`).
A walk follows them if every location that it leaves can be entered (`arrive_eq_ok_iff`), and otherwise fails
as one of these locations does (`exists_enter_of_arrive`). Empty parts and dots do not change what it has to
enter (`mem_visited_filter`). -/

namespace EditorScaffold

/-! ### Steps that may fail -/

theorem bind_eq_ok_iff {ε α β : Type} {x : Except ε α} {f : α → Except ε β} {b : β} :
    x >>= f = .ok b ↔ ∃ a, x = .ok a ∧ f a = .ok b := by
  cases x with
  | error e =>
    change Except.error e = .ok b ↔ _
    simp
  | ok a =>
    change f a = .ok b ↔ _
    simp

theorem bind_eq_error_iff {ε α β : Type} {x : Except ε α} {f : α → Except ε β} {e : ε} :
    x >>= f = .error e ↔ x = .error e ∨ ∃ a, x = .ok a ∧ f a = .error e := by
  cases x with
  | error e' =>
    change Except.error e' = .error e ↔ _
    simp
  | ok a =>
    change f a = .error e ↔ _
    simp

namespace Tree

/-! ### Where parts lead -/

/-- Where a part leads from a location. -/
def move (at_ : Location) (piece : Text) : Location :=
  if Path.isVoid piece then at_
  else if piece = "..".toList then at_.dropLast
  else at_ ++ [piece]

/-- Where parts lead from a location, one after the other. -/
def destination (at_ : Location) (ps : List Text) : Location := ps.foldl move at_

/-- The locations that parts lead to, from the first one on. -/
def visited (at_ : Location) : List Text → List Location
  | [] => [at_]
  | p :: ps => at_ :: visited (move at_ p) ps

theorem move_of_void {at_ : Location} {x : Text} (hx : Path.isVoid x = true) : move at_ x = at_ := by
  rw [move, if_pos hx]

theorem destination_cons (at_ : Location) (p : Text) (ps : List Text) :
    destination at_ (p :: ps) = destination (move at_ p) ps := rfl

theorem destination_concat (at_ : Location) (ps : List Text) (x : Text) :
    destination at_ (ps ++ [x]) = move (destination at_ ps) x := by
  rw [destination, List.foldl_append]
  rfl

theorem start_mem_visited (at_ : Location) (ps : List Text) : at_ ∈ visited at_ ps := by
  cases ps with
  | nil => exact List.mem_cons_self
  | cons p ps => exact List.mem_cons_self

theorem visited_concat (at_ : Location) (ps : List Text) (x : Text) :
    visited at_ (ps ++ [x]) = visited at_ ps ++ [destination at_ (ps ++ [x])] := by
  induction ps generalizing at_ with
  | nil => rfl
  | cons p ps ih =>
    rw [List.cons_append, visited, ih, visited, destination_cons]
    rfl

theorem destination_mem_visited (at_ : Location) (ps : List Text) :
    destination at_ ps ∈ visited at_ ps := by
  induction ps using List.reverseRecOn with
  | nil => exact List.mem_cons_self
  | append_singleton ps x _ =>
    rw [visited_concat]
    exact List.mem_append_right _ List.mem_cons_self

theorem mem_visited_filter {at_ k : Location} {ps : List Text} :
    k ∈ visited at_ (ps.filter (!Path.isVoid ·)) ↔ k ∈ visited at_ ps := by
  induction ps generalizing at_ with
  | nil => exact Iff.rfl
  | cons p ps ih =>
    by_cases hp : Path.isVoid p = true
    · rw [List.filter_cons_of_neg (by simp [hp]), ih, visited, move_of_void hp, List.mem_cons]
      constructor
      · exact Or.inr
      · rintro (rfl | h)
        · exact start_mem_visited k ps
        · exact h
    · rw [List.filter_cons_of_pos (by simp [hp]), visited, visited, List.mem_cons, List.mem_cons, ih]

/-! ### Walks -/

variable {s : Tree} {at_ l : Location}

/-- There is a directory at a location, and its name can be looked up. -/
def CanEnter (s : Tree) (at_ : Location) : Prop :=
  Text.byteSize (at_.getLastD []) ≤ maxName ∧ s.node? at_ = some .directory

/-- Walks and enters the location where the walk ends. -/
def arrive (s : Tree) (at_ : Location) (ps : List Text) : Except FileError Location :=
  s.walk at_ ps >>= s.enter

theorem find_eq_ok_iff {n : Option Node} :
    s.find at_ = .ok n ↔ Text.byteSize (at_.getLastD []) ≤ maxName ∧ n = s.node? at_ := by
  unfold find
  split
  · next h =>
    constructor
    · intro h'
      cases h'
    · rintro ⟨hle, -⟩
      omega
  · next h =>
    refine ⟨fun h' => ⟨by omega, (Except.ok.inj h').symm⟩, ?_⟩
    rintro ⟨-, rfl⟩
    rfl

theorem enter_eq_ok_iff : s.enter at_ = .ok l ↔ l = at_ ∧ s.CanEnter at_ := by
  unfold enter CanEnter
  rw [bind_eq_ok_iff]
  constructor
  · rintro ⟨n, hn, h⟩
    obtain ⟨hle, rfl⟩ := find_eq_ok_iff.1 hn
    split at h
    · next hd => exact ⟨(Except.ok.inj h).symm, hle, hd⟩
    · cases h
    · cases h
  · rintro ⟨rfl, hle, hd⟩
    refine ⟨_, find_eq_ok_iff.2 ⟨hle, rfl⟩, ?_⟩
    rw [hd]
    rfl

/-- Why a location cannot be entered. -/
theorem enter_eq_error {e : FileError} (h : s.enter at_ = .error e) :
    maxName < Text.byteSize (at_.getLastD []) ∨ (∃ c, s.node? at_ = some (.file c)) ∨
      e = .notFound ∧ s.node? at_ = none := by
  unfold enter at h
  rcases bind_eq_error_iff.1 h with h | ⟨n, hn, h⟩
  · left
    by_contra hle
    rw [find, if_neg hle] at h
    cases h
  · obtain ⟨-, rfl⟩ := find_eq_ok_iff.1 hn
    split at h
    · cases h
    · next c hc => exact Or.inr (Or.inl ⟨c, hc⟩)
    · next hnone => exact Or.inr (Or.inr ⟨(Except.error.inj h).symm, hnone⟩)

theorem step_eq (s : Tree) (at_ : Location) (piece : Text) :
    s.step at_ piece = s.enter at_ >>= fun at_ => .ok (move at_ piece) := by
  unfold step move
  congr 1
  funext at_
  split
  · rfl
  · split <;> rfl

theorem walk_cons (s : Tree) (at_ : Location) (p : Text) (ps : List Text) :
    s.walk at_ (p :: ps) = s.enter at_ >>= fun at_ => s.walk (move at_ p) ps := by
  unfold walk
  rw [List.foldlM_cons, step_eq]
  cases s.enter at_ <;> rfl

/-- The last part is followed from where the parts before it lead. -/
theorem walk_concat (s : Tree) (at_ : Location) (ps : List Text) (x : Text) :
    s.walk at_ (ps ++ [x]) = s.arrive at_ ps >>= fun at_ => .ok (move at_ x) := by
  unfold arrive walk
  rw [List.foldlM_append]
  cases ps.foldlM s.step at_ with
  | error e => rfl
  | ok l =>
    change s.step l x >>= pure = _
    rw [bind_pure]
    exact step_eq s l x

theorem arrive_cons (s : Tree) (at_ : Location) (p : Text) (ps : List Text) :
    s.arrive at_ (p :: ps) = s.enter at_ >>= fun at_ => s.arrive (move at_ p) ps := by
  unfold arrive
  rw [walk_cons]
  cases s.enter at_ <;> rfl

/-- **A walk arrives where the parts lead**, if everything on the way can be entered. -/
theorem arrive_eq_ok_iff {ps : List Text} :
    s.arrive at_ ps = .ok l ↔ l = destination at_ ps ∧ ∀ k ∈ visited at_ ps, s.CanEnter k := by
  induction ps generalizing at_ with
  | nil =>
    have h : s.arrive at_ [] = s.enter at_ := rfl
    rw [h, enter_eq_ok_iff, visited, List.forall_mem_singleton]
    rfl
  | cons p ps ih =>
    rw [arrive_cons, bind_eq_ok_iff, visited, List.forall_mem_cons, destination_cons]
    constructor
    · rintro ⟨k, hk, h⟩
      obtain ⟨rfl, hin⟩ := enter_eq_ok_iff.1 hk
      obtain ⟨hl, hall⟩ := ih.1 h
      exact ⟨hl, hin, hall⟩
    · rintro ⟨hl, hin, hall⟩
      exact ⟨at_, enter_eq_ok_iff.2 ⟨rfl, hin⟩, ih.2 ⟨hl, hall⟩⟩

/-- A walk fails as one of the locations on its way does. -/
theorem exists_enter_of_arrive {ps : List Text} {e : FileError} (h : s.arrive at_ ps = .error e) :
    ∃ k ∈ visited at_ ps, s.enter k = .error e := by
  induction ps generalizing at_ with
  | nil => exact ⟨at_, List.mem_cons_self, h⟩
  | cons p ps ih =>
    rw [arrive_cons] at h
    rcases bind_eq_error_iff.1 h with he | ⟨k, hk, he⟩
    · exact ⟨at_, List.mem_cons_self, he⟩
    · obtain ⟨rfl, -⟩ := enter_eq_ok_iff.1 hk
      obtain ⟨k, hmem, he⟩ := ih he
      exact ⟨k, List.mem_cons_of_mem _ hmem, he⟩

/-! ### Paths -/

variable {path x : Text} {way : List Text}

/-- A path is located where its parts lead, if everything but that location can be entered. -/
theorem locate_eq_ok_iff (h : Path.pieces path = way ++ [x]) :
    s.locate path = .ok l ↔ checkPath path = .ok () ∧ l = destination (s.origin path) (way ++ [x]) ∧
      ∀ k ∈ visited (s.origin path) way, s.CanEnter k := by
  unfold locate
  rw [bind_eq_ok_iff, h, walk_concat, destination_concat]
  constructor
  · rintro ⟨⟨⟩, hcheck, hwalk⟩
    obtain ⟨k, hk, hl⟩ := bind_eq_ok_iff.1 hwalk
    obtain ⟨rfl, hall⟩ := arrive_eq_ok_iff.1 hk
    exact ⟨hcheck, (Except.ok.inj hl).symm, hall⟩
  · rintro ⟨hcheck, rfl, hall⟩
    exact ⟨(), hcheck, bind_eq_ok_iff.2 ⟨_, arrive_eq_ok_iff.2 ⟨rfl, hall⟩, rfl⟩⟩

theorem lookup_eq_ok_iff {n : Node} :
    s.lookup path = .ok n ↔ ∃ l, s.locate path = .ok l ∧ s.find l = .ok (some n) := by
  unfold lookup
  rw [bind_eq_ok_iff]
  constructor
  · rintro ⟨l, hl, h⟩
    obtain ⟨o, ho, h⟩ := bind_eq_ok_iff.1 h
    cases o with
    | none => cases h
    | some n' =>
      obtain rfl := Except.ok.inj h
      exact ⟨l, hl, ho⟩
  · rintro ⟨l, hl, ho⟩
    exact ⟨l, hl, bind_eq_ok_iff.2 ⟨some n, ho, rfl⟩⟩

theorem exists_concat_pieces (path : Text) : ∃ way x, Path.pieces path = way ++ [x] :=
  ⟨_, _, (List.dropLast_append_getLast (Path.pieces_ne_nil path)).symm⟩

/-- A path is that of a directory if everything that its names lead to can be entered. -/
theorem isDirectory_of_visited (hcheck : checkPath path = .ok ())
    (h : ∀ k ∈ visited (s.origin path) (Path.names path), s.CanEnter k) : s.isDirectory path = true := by
  obtain ⟨way, x, hp⟩ := exists_concat_pieces path
  have hin : ∀ k ∈ visited (s.origin path) (way ++ [x]), s.CanEnter k := fun k hk =>
    h k (by rwa [Path.names, mem_visited_filter, hp])
  have hlast := hin _ (destination_mem_visited _ _)
  have hlocate : s.locate path = .ok (destination (s.origin path) (way ++ [x])) := by
    refine (locate_eq_ok_iff hp).2 ⟨hcheck, rfl, fun k hk => hin k ?_⟩
    rw [visited_concat]
    exact List.mem_append_left _ hk
  have hlookup : s.lookup path = .ok .directory :=
    lookup_eq_ok_iff.2 ⟨_, hlocate, find_eq_ok_iff.2 ⟨hlast.1, hlast.2.symm⟩⟩
  unfold isDirectory
  rw [hlookup]

/-! ### Slots -/

/-- The parts of a path without the empty ones after the last slash. -/
theorem trimEmpty_concat {ps : List Text} (hx : x ≠ []) :
    ((ps ++ [x]).reverse.dropWhile (· = [])).reverse = ps ++ [x] :=
  List.rdropWhile_concat_neg (· = []) ps x (by simp [hx])

theorem slot_eq (hp : Path.pieces path = way ++ [x]) (hx : x ≠ []) :
    s.slot path = checkPath path >>= fun _ => s.arrive (s.origin path) way >>= fun at_ =>
      if x = ".".toList ∨ x = "..".toList then .ok none else .ok (some (at_ ++ [x])) := by
  unfold slot arrive
  simp only [hp, trimEmpty_concat hx, List.getLast?_concat, List.dropLast_concat]
  cases checkPath path with
  | error e => rfl
  | ok u =>
    cases s.walk (s.origin path) way with
    | error e => rfl
    | ok k => rfl

/-- The slot of a path that ends in a name. -/
theorem slot_eq_some_iff (hp : Path.pieces path = way ++ [x]) (hx : x ≠ []) :
    s.slot path = .ok (some l) ↔ checkPath path = .ok () ∧ (x ≠ ".".toList ∧ x ≠ "..".toList) ∧
      l = destination (s.origin path) way ++ [x] ∧ ∀ k ∈ visited (s.origin path) way, s.CanEnter k := by
  rw [slot_eq hp hx, bind_eq_ok_iff]
  constructor
  · rintro ⟨⟨⟩, hcheck, h⟩
    obtain ⟨k, hk, h⟩ := bind_eq_ok_iff.1 h
    obtain ⟨rfl, hall⟩ := arrive_eq_ok_iff.1 hk
    split at h
    · cases h
    · next hname =>
      refine ⟨hcheck, not_or.1 hname, ?_, hall⟩
      exact (Option.some.inj (Except.ok.inj h)).symm
  · rintro ⟨hcheck, hname, rfl, hall⟩
    refine ⟨(), hcheck, bind_eq_ok_iff.2 ⟨_, arrive_eq_ok_iff.2 ⟨rfl, hall⟩, ?_⟩⟩
    rw [if_neg (not_or.2 hname)]

end Tree

end EditorScaffold
