import EditorScaffold.Catalogue.Manifest
import EditorScaffold.Proofs.Catalogue.Lookup
import Mathlib.Data.List.Find

/-! # The order of a catalogue

A list of entries is accepted as it is if no type is listed twice, and refused with the first type that is listed again
(`Manifest.ofEntries_eq_error_iff`). In which order the entries are listed makes no difference to that, nor to what a
type is found to be, because it has one entry at most. It makes none to a handle either, unless more than one entry fits
the handle in one of the ways in which entries are looked up (`Unambiguous`, `order_matters_only_if_ambiguous`). -/

namespace EditorScaffold

/-! ### Repeated types -/

/-- What is before an element of a list with a first one: nothing, or the first one and what is before in the rest. -/
theorem exists_cons_eq_append_cons_iff {α : Type} {P : List α → Prop} {a b : α} {xs : List α} :
    (∃ before after, b :: xs = before ++ a :: after ∧ P before) ↔
      b = a ∧ P [] ∨ ∃ before after, xs = before ++ a :: after ∧ P (b :: before) := by
  constructor
  · rintro ⟨before, after, hxs, hP⟩
    cases before with
    | nil => exact Or.inl ⟨(List.cons.inj hxs).1, hP⟩
    | cons c before =>
      obtain ⟨rfl, rfl⟩ := List.cons.inj hxs
      exact Or.inr ⟨before, after, rfl, hP⟩
  · rintro (⟨rfl, hP⟩ | ⟨before, after, rfl, hP⟩)
    · exact ⟨[], xs, rfl, hP⟩
    · exact ⟨b :: before, after, rfl, hP⟩

namespace Entry

/-- **What the first repeated type is**: it is among those seen before or those listed before, and none of those listed
before is repeated. -/
theorem firstRepeat_eq_some_iff {seen ts : List TypeName} {t : TypeName} :
    firstRepeat seen ts = some t ↔ ∃ before after, ts = before ++ t :: after ∧ (t ∈ seen ∨ t ∈ before) ∧
      before.Nodup ∧ ∀ u ∈ before, u ∉ seen := by
  induction ts generalizing seen with
  | nil => simp [firstRepeat]
  | cons u us ih =>
    rw [firstRepeat, exists_cons_eq_append_cons_iff]
    split
    · next hu =>
      constructor
      · rintro ⟨⟩
        exact Or.inl ⟨rfl, Or.inl hu, List.nodup_nil, List.forall_mem_nil _⟩
      · rintro (⟨rfl, -⟩ | ⟨before, after, -, -, -, hseen⟩)
        · rfl
        · exact absurd hu (hseen u List.mem_cons_self)
    · next hu =>
      have hfirst : ¬ (u = t ∧ (t ∈ seen ∨ t ∈ []) ∧ ([] : List TypeName).Nodup ∧ ∀ v ∈ [], v ∉ seen) := by
        rintro ⟨rfl, ht, -⟩
        exact hu (ht.resolve_right List.not_mem_nil)
      rw [ih, or_iff_right hfirst]
      -- `u` counts as seen on the left and as listed before on the right
      refine exists_congr fun before => exists_congr fun after => and_congr_right fun _ => ?_
      grind

/-- **The first entry whose type is listed again**: an entry before it has the type, and no type is listed twice up to
there. -/
def IsFirstRepeat (es : List Entry) (e : Entry) : Prop :=
  ∃ before after, es = before ++ e :: after ∧ (∃ d ∈ before, d.type = e.type) ∧ (before.map Entry.type).Nodup

theorem firstRepeat_map_type_eq_some_iff {es : List Entry} {t : TypeName} :
    firstRepeat [] (es.map Entry.type) = some t ↔ ∃ e, IsFirstRepeat es e ∧ e.type = t := by
  rw [firstRepeat_eq_some_iff]
  constructor
  · rintro ⟨before, after, hts, ht, hnodup, -⟩
    obtain ⟨ds, fs, rfl, rfl, hfs⟩ := List.map_eq_append_iff.1 hts
    obtain ⟨e, fs, rfl, rfl, -⟩ := List.map_eq_cons_iff.1 hfs
    exact ⟨e, ⟨ds, fs, rfl, List.mem_map.1 (ht.resolve_left List.not_mem_nil), hnodup⟩, rfl⟩
  · rintro ⟨e, ⟨before, after, rfl, hd, hnodup⟩, rfl⟩
    refine ⟨before.map Entry.type, after.map Entry.type, ?_, Or.inr (List.mem_map.2 hd), hnodup,
      fun _ _ => List.not_mem_nil⟩
    rw [List.map_append, List.map_cons]

end Entry

theorem TypeName.eq_iff {s t : TypeName} : s = t ↔ s.name = t.name ∧ s.space = t.space := by
  cases s
  cases t
  rw [TypeName.mk.injEq]

namespace Manifest

variable {es : List Entry} {c : Catalogue} {error : Error}

theorem ofEntries_eq_ok_iff : ofEntries es = .ok c ↔ c.entries = es := by
  rw [← Catalogue.ofEntries_eq_ok_iff, ofEntries]
  split
  · next h => rw [h, Except.ok.injEq, Except.ok.injEq]
  · next h =>
    rw [h]
    exact iff_of_false nofun nofun

/-- **A list is accepted** exactly if no two entries have the same type. -/
theorem exists_ofEntries_eq_ok_iff : (∃ c, ofEntries es = .ok c) ↔ (es.map Entry.type).Nodup := by
  constructor
  · rintro ⟨c, hc⟩
    exact ofEntries_eq_ok_iff.1 hc ▸ c.nodup
  · exact fun h => ⟨⟨es, h⟩, ofEntries_eq_ok_iff.2 rfl⟩

/-- **A list is refused** with the type of the first entry whose type is listed again. -/
theorem ofEntries_eq_error_iff :
    ofEntries es = .error error ↔ ∃ e, Entry.IsFirstRepeat es e ∧ error = .repeated e.type := by
  have hrepeated : ofEntries es = .error error ↔
      ∃ t, Entry.firstRepeat [] (es.map Entry.type) = some t ∧ error = .repeated t := by
    unfold ofEntries Catalogue.ofEntries
    split
    · next c h =>
      split at h
      · next hnone => simp [hnone]
      · cases h
    · next t h =>
      split at h
      · cases h
      · next hsome =>
        obtain rfl := Except.error.inj h
        simp [hsome, eq_comm]
  rw [hrepeated]
  simp only [Entry.firstRepeat_map_type_eq_some_iff]
  constructor
  · rintro ⟨-, ⟨e, he, rfl⟩, herror⟩
    exact ⟨e, he, herror⟩
  · rintro ⟨e, he, herror⟩
    exact ⟨e.type, ⟨e, he, rfl⟩, herror⟩

end Manifest

/-! ### Handles -/

theorem subsingleton_of_countP_le_one {α : Type} {p : α → Bool} {xs : List α} (h : xs.countP p ≤ 1) :
    {x ∈ xs | p x}.Subsingleton := by
  rintro x ⟨hx, hpx⟩ y ⟨hy, hpy⟩
  have hx : x ∈ xs.filter p := List.mem_filter.2 ⟨hx, hpx⟩
  have hy : y ∈ xs.filter p := List.mem_filter.2 ⟨hy, hpy⟩
  rw [List.countP_eq_length_filter] at h
  cases hfilter : xs.filter p with
  | nil =>
    rw [hfilter] at hx
    cases hx
  | cons z zs =>
    rw [hfilter] at h hx hy
    obtain rfl : zs = [] := List.length_eq_zero_iff.1 (Nat.le_zero.1 (Nat.le_of_succ_le_succ h))
    rw [List.mem_singleton.1 hx, List.mem_singleton.1 hy]

namespace Catalogue

/-- **A handle is unambiguous**: it is the script of one entry at most, the qualified name of one, and the simple name
of one. -/
structure Unambiguous (es : List Entry) (handle : Text) : Prop where
  script : es.countP (·.script = some handle) ≤ 1
  qualified : es.countP (·.type.qualified = handle) ≤ 1
  name : es.countP (·.type.name = handle) ≤ 1

instance (es : List Entry) (handle : Text) : Decidable (Unambiguous es handle) :=
  decidable_of_iff (es.countP (·.script = some handle) ≤ 1 ∧ es.countP (·.type.qualified = handle) ≤ 1 ∧
    es.countP (·.type.name = handle) ≤ 1) ⟨fun h => ⟨h.1, h.2.1, h.2.2⟩, fun h => ⟨h.script, h.qualified, h.name⟩⟩

variable {c d : Catalogue}

section Perm

variable (hperm : c.entries.Perm d.entries)
include hperm

/-- **A type has the same entry in any order.** -/
theorem entry?_eq_of_perm (t : TypeName) : d.entry? t = c.entry? t := by
  refine Option.ext fun e => ?_
  rw [entry?_eq_some_iff, entry?_eq_some_iff, hperm.mem_iff]

/-- **An unambiguous handle has the same entry in any order.** -/
theorem find?_eq_of_perm {handle : Text} (h : Unambiguous c.entries handle) : d.find? handle = c.find? handle := by
  have hscript := List.find?_eq_find?_of_perm hperm (subsingleton_of_countP_le_one h.script)
  have hqualified := List.find?_eq_find?_of_perm hperm (subsingleton_of_countP_le_one h.qualified)
  have hname := List.find?_eq_find?_of_perm hperm (subsingleton_of_countP_le_one h.name)
  rw [find?, find?, hscript, hqualified, hname]

theorem fields_eq_of_perm (t : TypeName) : d.source.fields t = c.source.fields t := by
  show d.fields t = c.fields t
  rw [fields, fields, entry?_eq_of_perm hperm]

theorem scriptPath_eq_of_perm (t : TypeName) : d.source.scriptPath t = c.source.scriptPath t := by
  show d.scriptPath t = c.scriptPath t
  rw [scriptPath, scriptPath, entry?_eq_of_perm hperm]

theorem resolve_eq_of_perm {handle : Text} (h : Unambiguous c.entries handle) :
    d.source.resolve handle = c.source.resolve handle := by
  show d.resolve handle = c.resolve handle
  rw [resolve, resolve, find?_eq_of_perm hperm h]

theorem profilesOf_eq_of_perm {handle : Text} (h : Unambiguous c.entries handle) :
    d.source.profilesOf handle = c.source.profilesOf handle := by
  have hprofiles : d.source.profiles = c.source.profiles := by
    funext t
    exact congrArg Field.serializable (fields_eq_of_perm hperm t)
  rw [TypeSource.profilesOf, TypeSource.profilesOf, resolve_eq_of_perm hperm h, hprofiles]

end Perm

/-- **The order matters only for ambiguous handles.** Whether a list of entries is accepted depends on their types only,
and a list that is refused is refused for the first entry whose type is listed again. In any order an accepted list is
accepted, and what it answers about types and about unambiguous handles is the same. -/
theorem order_matters_only_if_ambiguous (es : List Entry) :
    ((∃ c, Manifest.ofEntries es = .ok c) ↔
      es.Pairwise fun d e => ¬ (d.type.name = e.type.name ∧ d.type.space = e.type.space)) ∧
    (∀ error, Manifest.ofEntries es = .error error ↔ ∃ e, Entry.IsFirstRepeat es e ∧ error = .repeated e.type ∧
      error.message = "type '".toList ++ e.type.qualified ++ "' is declared more than once".toList) ∧
    ∀ c, Manifest.ofEntries es = .ok c → c.entries = es ∧
      ∀ es', es.Perm es' → ∃ d, Manifest.ofEntries es' = .ok d ∧ d.entries = es' ∧
        (∀ t, d.source.fields t = c.source.fields t ∧ d.source.scriptPath t = c.source.scriptPath t) ∧
        ∀ handle, Unambiguous es handle → d.source.resolve handle = c.source.resolve handle ∧
          d.source.profilesOf handle = c.source.profilesOf handle := by
  refine ⟨?_, fun error => ?_, fun c hc => ?_⟩
  · rw [Manifest.exists_ofEntries_eq_ok_iff, List.Nodup, List.pairwise_map]
    simp only [ne_eq, TypeName.eq_iff]
  · rw [Manifest.ofEntries_eq_error_iff]
    refine exists_congr fun e => and_congr_right fun _ => ⟨?_, And.left⟩
    rintro rfl
    exact ⟨rfl, rfl⟩
  · obtain rfl := Manifest.ofEntries_eq_ok_iff.1 hc
    refine ⟨rfl, fun es' hperm => ⟨⟨es', (hperm.map Entry.type).nodup_iff.1 c.nodup⟩, ?_, rfl, fun t => ?_, ?_⟩⟩
    · exact Manifest.ofEntries_eq_ok_iff.2 rfl
    · exact ⟨fields_eq_of_perm hperm t, scriptPath_eq_of_perm hperm t⟩
    · exact fun handle h => ⟨resolve_eq_of_perm hperm h, profilesOf_eq_of_perm hperm h⟩

/-- A door of the same name in another namespace. -/
def cellarDoor : Entry := { type := ⟨"Door".toList, "Cellar".toList⟩, script := some "Cellar/Door.cs".toList }

/-- Two doors of the same name. -/
def twoDoors : Catalogue := ⟨[levelDoor, cellarDoor], by decide⟩

/-- The same doors in the other order. -/
def twoDoorsBack : Catalogue := ⟨[cellarDoor, levelDoor], by decide⟩

/-- Their qualified names stand for the same doors in both orders, and the simple name does not. -/
theorem twoDoors_back :
    Manifest.ofEntries [levelDoor, cellarDoor] = .ok twoDoors ∧ [levelDoor, cellarDoor].Perm [cellarDoor, levelDoor] ∧
    Unambiguous [levelDoor, cellarDoor] "Cellar.Door".toList ∧
    twoDoorsBack.source.resolve "Cellar.Door".toList = twoDoors.source.resolve "Cellar.Door".toList ∧
    twoDoors.source.resolve "Cellar.Door".toList = some cellarDoor.type ∧
    ¬ Unambiguous [levelDoor, cellarDoor] "Door".toList ∧
    twoDoorsBack.source.resolve "Door".toList ≠ twoDoors.source.resolve "Door".toList := by
  have haccepted : Manifest.ofEntries [levelDoor, cellarDoor] = .ok twoDoors := Manifest.ofEntries_eq_ok_iff.2 rfl
  have hperm : [levelDoor, cellarDoor].Perm [cellarDoor, levelDoor] := .swap _ _ _
  have hhandle : Unambiguous [levelDoor, cellarDoor] "Cellar.Door".toList := by decide
  obtain ⟨d, hd, -, -, hanswers⟩ :=
    ((order_matters_only_if_ambiguous [levelDoor, cellarDoor]).2.2 twoDoors haccepted).2 _ hperm
  obtain rfl : d = twoDoorsBack := by
    have hback : Manifest.ofEntries [cellarDoor, levelDoor] = .ok twoDoorsBack := Manifest.ofEntries_eq_ok_iff.2 rfl
    exact Except.ok.inj (hd.symm.trans hback)
  exact ⟨haccepted, hperm, hhandle, (hanswers _ hhandle).1, by decide, by decide, by decide⟩

end Catalogue

end EditorScaffold
