import EditorScaffold.Session
import Mathlib.Data.List.Nodup

/-! # Which entry a handle stands for

An entry matches a handle as a script, as a qualified name or as a simple name, and is ranked in this order
(`Entry.rank?`). A handle stands for the first entry of the least rank (`IsMatch`, `find?_eq_some_iff`). A catalogue
finds this entry again under its type, because no type is listed twice (`entry?_eq_some_iff`), so all that is asked
about the type is answered from it (`answers_from_match`). -/

namespace EditorScaffold

/-! ### The first of the best -/

section Search

variable {α : Type} {tests : List (α → Bool)} {p : α → Bool} {xs : List α} {x : α}

theorem first_of_find? (h : xs.find? p = some x) :
    ∃ i : Nat, xs[i]? = some x ∧ p x = true ∧ ∀ (j : Nat) y, xs[j]? = some y → p y = true → i ≤ j := by
  obtain ⟨hpx, i, hi, rfl, hfirst⟩ := List.find?_eq_some_iff_getElem.1 h
  refine ⟨i, List.getElem?_eq_getElem hi, hpx, fun j y hy hpy => Nat.le_of_not_lt fun hji => ?_⟩
  obtain ⟨hj, rfl⟩ := List.getElem?_eq_some_iff.1 hy
  have hnot : p xs[j] = false := by simpa using hfirst j hji
  rw [hnot] at hpy
  cases hpy

/-- Searched for with one test after the other, the element found passes an earlier test than all others, or passes
the same test as others that come later. -/
theorem least_of_findSome? (h : tests.findSome? xs.find? = some x) :
    ∃ i r : Nat, xs[i]? = some x ∧ tests.findIdx? (· x) = some r ∧
      ∀ (j : Nat) y q, xs[j]? = some y → tests.findIdx? (· y) = some q → r < q ∨ r = q ∧ i ≤ j := by
  -- the first test is the best one: who passes it wins at once, and if nobody does, all ranks are one more than
  -- with the other tests
  induction tests with
  | nil => cases h
  | cons p ps ih =>
    rw [List.findSome?_cons] at h
    split at h
    · next y hfind =>
      obtain rfl := Option.some.inj h
      obtain ⟨i, hi, hp, hfirst⟩ := first_of_find? hfind
      refine ⟨i, 0, hi, by rw [List.findIdx?_cons, if_pos hp], fun j y q hy hq => ?_⟩
      rcases Nat.eq_zero_or_pos q with rfl | hpos
      · have hpy : p y = true := by
          by_contra hnot
          rw [List.findIdx?_cons, if_neg hnot] at hq
          simp at hq
        exact Or.inr ⟨rfl, hfirst j y hy hpy⟩
      · exact Or.inl hpos
    · next hnone =>
      have hcons : ∀ y ∈ xs, (p :: ps).findIdx? (· y) = (ps.findIdx? (· y)).map (· + 1) := by
        intro y hy
        rw [List.findIdx?_cons, if_neg (List.find?_eq_none.1 hnone y hy)]
      obtain ⟨i, r, hi, hr, hleast⟩ := ih h
      refine ⟨i, r + 1, hi, by rw [hcons x (List.mem_of_getElem? hi), hr]; rfl, fun j y q hy hq => ?_⟩
      rw [hcons y (List.mem_of_getElem? hy)] at hq
      obtain ⟨q, hrest, rfl⟩ := Option.map_eq_some_iff.1 hq
      have := hleast j y q hy hrest
      omega

theorem findSome?_find?_eq_none_iff :
    tests.findSome? xs.find? = none ↔ ∀ x ∈ xs, tests.findIdx? (· x) = none := by
  simp only [List.findSome?_eq_none_iff, List.find?_eq_none, List.findIdx?_eq_none_iff, Bool.not_eq_true]
  exact ⟨fun h x hx p hp => h p hp x hx, fun h p hp x hx => h x hx p hp⟩

end Search

/-! ### Entries -/

theorem Path.join_ne_nil {p : Text} (h : p ≠ []) (dir : Text) : Path.join dir p ≠ [] := by
  unfold join
  split_ifs <;> simp [h]

namespace Entry

/-- **How well an entry matches a handle**: as a script, else as a qualified name, else as a simple name. -/
def rank? (e : Entry) (handle : Text) : Option Nat :=
  if e.script = some handle then some 1
  else if e.type.qualified = handle then some 2
  else if e.type.name = handle then some 3
  else none

/-- The ways to match a handle, the best one first. -/
def tests (handle : Text) : List (Entry → Bool) :=
  [(·.script = some handle), (·.type.qualified = handle), (·.type.name = handle)]

/-- Where the editor of an entry goes: beside the script, if there is one. -/
def editorPath (e : Entry) : Text :=
  Path.join ((e.script.bind Path.parent?).getD []) (e.type.name ++ "Editor.cs".toList)

theorem editorPath_ne_nil (e : Entry) : e.editorPath ≠ [] :=
  Path.join_ne_nil (List.append_ne_nil_of_right_ne_nil _ (by decide)) _

theorem rank?_eq (e : Entry) (handle : Text) :
    e.rank? handle = ((tests handle).findIdx? (· e)).map (· + 1) := by
  unfold rank? tests
  simp only [List.findIdx?_cons, List.findIdx?_nil, decide_eq_true_iff]
  split_ifs <;> rfl

end Entry

namespace Catalogue

variable {c : Catalogue} {es : List Entry} {t : TypeName} {d e : Entry} {handle : Text} {i j : Nat}

/-! ### Matches -/

/-- **The match for a handle**: the entry has the least rank of all, and none before it has the same. -/
structure IsMatch (es : List Entry) (handle : Text) (i : Nat) (e : Entry) : Prop where
  listed : es[i]? = some e
  least : ∃ r, e.rank? handle = some r ∧
    ∀ j d q, es[j]? = some d → d.rank? handle = some q → r < q ∨ r = q ∧ i ≤ j

theorem IsMatch.mem (h : IsMatch es handle i e) : e ∈ es := List.mem_of_getElem? h.listed

/-- A handle has one match at most. -/
theorem IsMatch.unique (h : IsMatch es handle i e) (h' : IsMatch es handle j d) : e = d := by
  obtain ⟨r, hr, hleast⟩ := h.least
  obtain ⟨q, hq, hleast'⟩ := h'.least
  have hij : i = j := by
    have := hleast j d q h'.listed hq
    have := hleast' i e r h.listed hr
    omega
  have hlisted := h.listed
  rw [hij, h'.listed] at hlisted
  exact (Option.some.inj hlisted).symm

theorem find?_eq (c : Catalogue) (handle : Text) :
    c.find? handle = (Entry.tests handle).findSome? c.entries.find? := by
  unfold find? Entry.tests
  simp only [List.findSome?_cons]
  cases c.entries.find? (·.script = some handle) <;> cases c.entries.find? (·.type.qualified = handle) <;>
    cases c.entries.find? (·.type.name = handle) <;> rfl

theorem isMatch_of_find?_eq_some (h : c.find? handle = some e) : ∃ i, IsMatch c.entries handle i e := by
  rw [find?_eq] at h
  obtain ⟨i, r, hi, hr, hleast⟩ := least_of_findSome? h
  refine ⟨i, hi, r + 1, by rw [Entry.rank?_eq, hr]; rfl, fun j d q hd hq => ?_⟩
  rw [Entry.rank?_eq] at hq
  obtain ⟨q, hindex, rfl⟩ := Option.map_eq_some_iff.1 hq
  have := hleast j d q hd hindex
  omega

theorem find?_eq_none_iff : c.find? handle = none ↔ ∀ e ∈ c.entries, e.rank? handle = none := by
  rw [find?_eq, findSome?_find?_eq_none_iff]
  simp only [Entry.rank?_eq, Option.map_eq_none_iff]

/-- **A handle stands for its match.** -/
theorem find?_eq_some_iff : c.find? handle = some e ↔ ∃ i, IsMatch c.entries handle i e := by
  refine ⟨isMatch_of_find?_eq_some, ?_⟩
  rintro ⟨i, he⟩
  cases hfind : c.find? handle with
  | none =>
    obtain ⟨r, hr, -⟩ := he.least
    rw [find?_eq_none_iff.1 hfind e he.mem] at hr
    cases hr
  | some d =>
    obtain ⟨j, hd⟩ := isMatch_of_find?_eq_some hfind
    rw [hd.unique he]

/-- **A handle resolves to the type of its match**, if this compiles. -/
theorem resolve_eq_some_iff : c.resolve handle = some t ↔
    ∃ i e, IsMatch c.entries handle i e ∧ e.compiled = true ∧ e.type = t := by
  simp only [resolve, Option.map_eq_some_iff, Option.filter_eq_some_iff, find?_eq_some_iff]
  constructor
  · rintro ⟨e, ⟨⟨i, hmatch⟩, hcompiled⟩, htype⟩
    exact ⟨i, e, hmatch, hcompiled, htype⟩
  · rintro ⟨i, e, hmatch, hcompiled, htype⟩
    exact ⟨e, ⟨⟨i, hmatch⟩, hcompiled⟩, htype⟩

/-! ### Entries of types -/

/-- **A list of entries is accepted** as the catalogue that has just these entries. -/
theorem ofEntries_eq_ok_iff : ofEntries es = .ok c ↔ c.entries = es := by
  unfold ofEntries
  split
  · rw [Except.ok.injEq]
    constructor
    · rintro rfl
      rfl
    · rintro rfl
      rfl
  · next hrepeat =>
    refine iff_of_false nofun ?_
    rintro rfl
    rw [Entry.firstRepeat_eq_none_iff.2 ⟨c.nodup, fun t _ => List.not_mem_nil⟩] at hrepeat
    cases hrepeat

theorem eq_of_type_eq (hd : d ∈ c.entries) (he : e ∈ c.entries) (h : d.type = e.type) : d = e :=
  List.inj_on_of_nodup_map c.nodup hd he h

/-- A type has one entry at most. -/
theorem entry?_eq_some_iff : c.entry? t = some e ↔ e ∈ c.entries ∧ e.type = t := by
  constructor
  · intro h
    exact ⟨List.mem_of_find?_eq_some h, by simpa using List.find?_some h⟩
  · rintro ⟨he, rfl⟩
    have hsome : (c.entry? e.type).isSome := List.find?_isSome.2 ⟨e, he, by simp⟩
    obtain ⟨d, hd⟩ := Option.isSome_iff_exists.1 hsome
    have htype : d.type = e.type := by simpa using List.find?_some hd
    rw [hd, eq_of_type_eq (List.mem_of_find?_eq_some hd) he htype]

/-! ### Answers -/

/-- **A handle is declined**: it stands for no type, and there are no fields to bind. -/
structure Declines (c : Catalogue) (handle : Text) : Prop where
  resolve : c.source.resolve handle = none
  profiles : c.source.profilesOf handle = []

/-- **A handle is answered from an entry**, and so is all that is asked about its type. -/
structure AnswersFrom (c : Catalogue) (handle : Text) (e : Entry) : Prop where
  resolve : c.source.resolve handle = some e.type
  /-- The declared fields are those of the entry, without the static ones. -/
  fields : c.source.fields e.type = e.fields.filter (!·.isStatic)
  scriptPath : c.source.scriptPath e.type = e.script
  profiles : c.source.profilesOf handle = Field.serializable e.fields
  /-- Once the handle is chosen, the editor goes beside the script of the entry. -/
  defaultPath : ∀ s : Session, (s.setScript c.source handle).defaultPath? c.source = some e.editorPath

theorem editorFile_eq (t : TypeName) : t.editorFile = t.name ++ "Editor.cs".toList :=
  List.append_assoc t.name _ _

theorem fields_eq (he : e ∈ c.entries) : c.fields e.type = e.fields.filter (!·.isStatic) := by
  rw [fields, entry?_eq_some_iff.2 ⟨he, rfl⟩]

theorem scriptPath_eq (he : e ∈ c.entries) : c.scriptPath e.type = e.script := by
  rw [scriptPath, entry?_eq_some_iff.2 ⟨he, rfl⟩, Option.bind_some]

/-- That static fields are left out before makes no difference. -/
theorem profiles_eq (he : e ∈ c.entries) : c.source.profiles e.type = Field.serializable e.fields := by
  show Field.serializable (c.fields e.type) = _
  rw [fields_eq he]
  unfold Field.serializable
  rw [List.filter_filter]
  congr 2
  funext f
  cases f.isStatic <;> simp

theorem defaultPath?_eq {s : Session} (he : e ∈ c.entries) (h : s.type = some e.type) :
    s.defaultPath? c.source = some e.editorPath := by
  have hscript : c.source.scriptPath e.type = e.script := scriptPath_eq he
  rw [Session.defaultPath?, h, Option.map_some, hscript, editorFile_eq]
  rfl

theorem declines_of_resolve (h : c.resolve handle = none) : c.Declines handle := by
  refine ⟨h, ?_⟩
  have hsource : c.source.resolve handle = none := h
  rw [TypeSource.profilesOf, hsource]

theorem answersFrom_of_isMatch (h : IsMatch c.entries handle i e) (hcompiled : e.compiled = true) :
    c.AnswersFrom handle e := by
  have he := h.mem
  have hresolve : c.source.resolve handle = some e.type := resolve_eq_some_iff.2 ⟨i, e, h, hcompiled, rfl⟩
  refine ⟨hresolve, fields_eq he, scriptPath_eq he, ?_, fun s => defaultPath?_eq he hresolve⟩
  rw [TypeSource.profilesOf, hresolve]
  exact profiles_eq he

/-- **All that is asked is answered from the match.** A handle without a match is declined, and so is one whose match
does not compile, whatever else matches. -/
theorem answers_from_match (h : ofEntries es = .ok c) (handle : Text) :
    ((∀ e ∈ es, e.rank? handle = none) → c.Declines handle) ∧
    ((∃ e ∈ es, e.rank? handle ≠ none) → ∃ i e, IsMatch es handle i e) ∧
    ∀ i e, IsMatch es handle i e →
      (e.compiled = false → c.Declines handle) ∧ (e.compiled = true → c.AnswersFrom handle e) := by
  obtain rfl := ofEntries_eq_ok_iff.1 h
  refine ⟨fun hnone => ?_, fun ⟨e, he, hrank⟩ => ?_, fun i e hmatch => ?_⟩
  · refine declines_of_resolve ?_
    rw [resolve, find?_eq_none_iff.2 hnone]
    rfl
  · cases hfind : c.find? handle with
    | none => exact absurd (find?_eq_none_iff.1 hfind e he) hrank
    | some d =>
      obtain ⟨i, hmatch⟩ := isMatch_of_find?_eq_some hfind
      exact ⟨i, d, hmatch⟩
  · refine ⟨fun hbroken => declines_of_resolve ?_, answersFrom_of_isMatch hmatch⟩
    rw [resolve, find?_eq_some_iff.2 ⟨i, hmatch⟩, Option.filter_some, hbroken]
    rfl

/-- A door that lives in a namespace, and matches by its simple name. -/
def levelDoor : Entry := { type := ⟨"Door".toList, "Level".toList⟩ }

/-- A door that does not compile, and matches by its qualified name. -/
def brokenDoor : Entry := { type := ⟨"Door".toList, []⟩, compiled := false }

/-- A gate whose script is called like the doors. -/
def gate : Entry :=
  { type := ⟨"Gate".toList, "Level".toList⟩
    fields := [{ name := "isOpen".toList, type := .leaf .value "bool".toList }]
    script := some "Door".toList }

/-- The doors alone. -/
def doors : Catalogue := ⟨[levelDoor, brokenDoor], by decide⟩

/-- The doors and the gate. -/
def doorsAndGate : Catalogue := ⟨[levelDoor, brokenDoor, gate], by decide⟩

/-- The last entry answers, as its script is called so; without it the broken door hides the one that compiles. -/
theorem gate_answers :
    ofEntries [levelDoor, brokenDoor, gate] = .ok doorsAndGate ∧
      (∃ i, IsMatch [levelDoor, brokenDoor, gate] "Door".toList i gate) ∧ gate.compiled = true ∧
      doorsAndGate.AnswersFrom "Door".toList gate ∧
    ofEntries [levelDoor, brokenDoor] = .ok doors ∧
      (∃ i, IsMatch [levelDoor, brokenDoor] "Door".toList i brokenDoor) ∧ brokenDoor.compiled = false ∧
      doors.Declines "Door".toList ∧
    levelDoor.rank? "Gate".toList = none ∧ brokenDoor.rank? "Gate".toList = none ∧
      doors.Declines "Gate".toList := by
  have hall : ofEntries [levelDoor, brokenDoor, gate] = .ok doorsAndGate := ofEntries_eq_ok_iff.2 rfl
  have hdoors : ofEntries [levelDoor, brokenDoor] = .ok doors := ofEntries_eq_ok_iff.2 rfl
  obtain ⟨i, hgate⟩ := find?_eq_some_iff.1 (show doorsAndGate.find? "Door".toList = some gate from rfl)
  obtain ⟨j, hbroken⟩ := find?_eq_some_iff.1 (show doors.find? "Door".toList = some brokenDoor from rfl)
  have hlevel : levelDoor.rank? "Gate".toList = none := by decide
  have hglobal : brokenDoor.rank? "Gate".toList = none := by decide
  exact ⟨hall, ⟨i, hgate⟩, rfl, ((answers_from_match hall "Door".toList).2.2 i gate hgate).2 rfl, hdoors,
    ⟨j, hbroken⟩, rfl, ((answers_from_match hdoors "Door".toList).2.2 j brokenDoor hbroken).1 rfl, hlevel, hglobal,
    (answers_from_match hdoors "Gate".toList).1
      (List.forall_mem_cons.2 ⟨hlevel, List.forall_mem_singleton.2 hglobal⟩)⟩

end Catalogue

end EditorScaffold
