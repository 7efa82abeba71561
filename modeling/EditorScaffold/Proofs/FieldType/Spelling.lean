import EditorScaffold.FieldType.Json
import EditorScaffold.Proofs.Json.Rewriting

/-! # Field types are read from every spelling

A type is spelled by its kind and the parts that the kind asks for, as an object or as an array (`Kind.Node`), and so
are the types inside it (`Spells`). A tree is decoded to the type it spells (`ofTree_of_spells`), by induction on the
type. A text is first read to a tree that has the kind in front, and this is another spelling of the same type
(`readsTree_readTree`). -/

namespace EditorScaffold.FieldType

open Json (Spelling)

variable {k : Kind} {slot : Slot → Json → Prop} {full : Parts} {t : FieldType}

/-! ### Spellings -/

/-- How a kind and its parts are spelled, the parts as `slot` says. -/
def Kind.spelled (k : Kind) (slot : Slot → Json → Prop) : Spelling (Option Slot) where
  label
    | none => kindKey
    | some s => s.label
  Spells
    | none, v => v = .string k.spelling
    | some s, v => slot s v
  Default _ := False

/-- **A tree spells a kind with its parts**; the kind comes first in an array. -/
def Kind.Node (k : Kind) (slot : Slot → Json → Prop) (v : Json) : Prop :=
  (k.spelled slot).Node (none :: k.slots.map some) v

mutual

/-- **A tree spells a type.** -/
def Spells : FieldType → Json → Prop
  | .leaf k name => (Kind.leaf k).Node fun _ v => v = .string name
  | .text => Kind.text.Node fun _ _ => False
  | .container c e => (Kind.container c).Node fun _ => Spells e
  | .generic name args => Kind.generic.Node fun
    | .args, .array vs => SpellsAll args vs
    | .args, _ => False
    | _, v => v = .string name

/-- Trees spell types one by one. -/
def SpellsAll : List FieldType → List Json → Prop
  | [], [] => True
  | t :: ts, v :: vs => Spells t v ∧ SpellsAll ts vs
  | _, _ => False

end

/-! ### Changes to trees -/

/-- The labels of a kind and its parts. -/
theorem Kind.map_label (k : Kind) (slot : Slot → Json → Prop) :
    (none :: k.slots.map some).map (k.spelled slot).label = kindKey :: k.slots.map Slot.label := by
  rw [List.map_cons, List.map_map]
  rfl

theorem Kind.nodup_label (k : Kind) (slot : Slot → Json → Prop) :
    ((none :: k.slots.map some).map (k.spelled slot).label).Nodup := by
  rw [k.map_label slot]
  cases k with
  | leaf _ => exact of_decide_eq_true rfl
  | text => decide
  | container _ => exact of_decide_eq_true rfl
  | generic => decide

section Changes

variable {f : Json → Json}

/-- A changed tree spells a kind and its parts as well, if changed trees spell the parts. -/
theorem Kind.Node.changed (hf : Json.KeepsSpelling f) (hslot : ∀ {s : Slot} {v : Json}, slot s v → slot s (f v))
    {v : Json} (h : k.Node slot v) : k.Node slot (f v) := by
  refine hf.node (k.nodup_label slot) (fun {p v} hv => ?_) h
  cases p with
  | none =>
    obtain rfl : v = .string k.spelling := hv
    exact hf.string _
  | some s => exact hslot hv

mutual

/-- **A changed tree spells the type as well.** -/
theorem Spells.changed (hf : Json.KeepsSpelling f) : ∀ (t : FieldType) {v : Json}, Spells t v → Spells t (f v)
  | .leaf _ _, _, h => Kind.Node.changed hf (fun hv => hv ▸ hf.string _) h
  | .text, _, h => Kind.Node.changed hf False.elim h
  | .container _ e, _, h => Kind.Node.changed hf (fun hv => Spells.changed hf e hv) h
  | .generic name args, _, h => by
    refine Kind.Node.changed hf (fun {s v} hv => ?_) h
    cases s with
    | args =>
      cases v with
      | array vs => exact hf.array vs ▸ SpellsAll.changed hf args hv
      | _ => exact hv.elim
    | _ =>
      obtain rfl : v = .string name := hv
      exact hf.string name

theorem SpellsAll.changed (hf : Json.KeepsSpelling f) : ∀ (ts : List FieldType) {vs : List Json},
    SpellsAll ts vs → SpellsAll ts (vs.map f)
  | [], [], _ => True.intro
  | [], _ :: _, h => h.elim
  | _ :: _, [], h => h.elim
  | t :: ts, _ :: _, h => ⟨Spells.changed hf t h.1, SpellsAll.changed hf ts h.2⟩

end

end Changes

/-- **A type is spelled as well with each number written by its value.** -/
theorem Spells.rewritten (t : FieldType) {v : Json} (h : Spells t v) : Spells t v.rewritten :=
  Spells.changed Json.keepsSpelling_rewritten t h

/-! ### Parts -/

/-- The parts that belong to some keys. -/
def Parts.only (full : Parts) (slots : List Slot) : Parts where
  name := if .name ∈ slots then full.name else none
  element := if .element ∈ slots then full.element else none
  args := if .args ∈ slots then full.args else none

/-- A tree is decoded to the part that belongs to a key. -/
def Fills (full : Parts) : Slot → Json → Prop
  | .name, v => ∃ name, full.name = some name ∧ v = .string name
  | .element, v => ∃ e, full.element = some e ∧ ofTree v = .ok e
  | .args, v => ∃ vs ts, full.args = some ts ∧ v = .array vs ∧ ofList vs = .ok ts

theorem Parts.only_nil (full : Parts) : full.only [] = {} := rfl

theorem Parts.has_only {slots : List Slot} {s : Slot} (h : s ∉ slots) : (full.only slots).has s = false := by
  cases s <;> simp [only, has, h]

theorem Parts.only_name {name : Text} (h : full.name = some name) (done : List Slot) :
    { full.only done with name := some name } = full.only (done ++ [.name]) := by simp [only, h]

theorem Parts.only_element {e : FieldType} (h : full.element = some e) (done : List Slot) :
    { full.only done with element := some e } = full.only (done ++ [.element]) := by simp [only, h]

theorem Parts.only_args {ts : List FieldType} (h : full.args = some ts) (done : List Slot) :
    { full.only done with args := some ts } = full.only (done ++ [.args]) := by simp [only, h]

theorem Parts.build_only {slots : List Slot} (h : ∀ s ∈ k.slots, s ∈ slots) :
    (full.only slots).build k = full.build k := by
  cases k <;> simp [Kind.slots] at h <;> simp [build, only, h]

theorem Kind.slot?_label {s : Slot} (h : s ∈ k.slots) : k.slot? s.label = some s := by
  cases k <;> cases s <;> first | rfl | (simp [Kind.slots] at h)

theorem Kind.slot?_of_unknown {label : Text} (h : label ∉ k.slots.map Slot.label) : k.slot? label = none := by
  refine List.find?_eq_none.2 fun s hs heq => h ?_
  rw [← of_decide_eq_true heq]
  exact List.mem_map_of_mem hs

theorem Slot.label_ne_kindKey (s : Slot) : s.label ≠ kindKey := by cases s <;> decide

theorem Kind.ofJson_spelling (k : Kind) : Kind.ofJson (.string k.spelling) = .ok k := by
  cases k with
  | leaf l => cases l <;> rfl
  | text => rfl
  | container c => cases c <;> rfl
  | generic => rfl

/-! ### From trees -/

theorem Kind.label_none (k : Kind) (slot : Slot → Json → Prop) : (k.spelled slot).label none = kindKey := rfl

theorem Kind.label_some (k : Kind) (slot : Slot → Json → Prop) (s : Slot) :
    (k.spelled slot).label (some s) = s.label := rfl

theorem ne_kindKey {label : Text} (h : label ∉ kindKey :: k.slots.map Slot.label) : label ≠ kindKey :=
  fun heq => h (heq ▸ List.mem_cons_self)

section Members

variable {written : List (Option Slot)} {ms : List (Text × Json)}

theorem kindOf_some (h : (k.spelled slot).Members (kindKey :: k.slots.map Slot.label) written ms)
    (hkind : none ∉ written) : kindOf (some k) ms = .ok k := by
  induction h with
  | nil => rfl
  | @part p v ps ms hv _ ih =>
    rw [List.mem_cons, not_or] at hkind
    obtain ⟨s, rfl⟩ := Option.ne_none_iff_exists'.1 (Ne.symm hkind.1)
    rw [k.label_some, kindOf, if_neg s.label_ne_kindKey]
    exact ih hkind.2
  | @other m ps ms hm _ ih =>
    rw [kindOf, if_neg (ne_kindKey hm)]
    exact ih hkind

theorem kindOf_none (h : (k.spelled slot).Members (kindKey :: k.slots.map Slot.label) written ms)
    (hkind : none ∈ written) (hnodup : written.Nodup) : kindOf none ms = .ok k := by
  induction h with
  | nil => cases hkind
  | @part p v ps ms hv h ih =>
    rw [List.nodup_cons] at hnodup
    cases p with
    | none =>
      obtain rfl : v = .string k.spelling := hv
      rw [k.label_none, kindOf, if_pos rfl]
      show (do kindOf (some (← Kind.ofJson (.string k.spelling))) ms) = _
      rw [k.ofJson_spelling]
      exact kindOf_some h hnodup.1
    | some s =>
      rw [k.label_some, kindOf, if_neg s.label_ne_kindKey]
      exact ih (by simpa using hkind) hnodup.2
  | @other m ps ms hm _ ih =>
    rw [kindOf, if_neg (ne_kindKey hm)]
    exact ih hkind hnodup

/-- One more part is decoded. -/
theorem ofMembers_cons {s : Slot} {v : Json} {done : List Slot} (hs : s ∈ k.slots) (hdone : s ∉ done)
    (hv : Fills full s v) (ms : List (Text × Json)) :
    ofMembers k (full.only done) ((s.label, v) :: ms) = ofMembers k (full.only (done ++ [s])) ms := by
  rw [ofMembers, Kind.slot?_label hs]
  dsimp only
  rw [if_neg (by rw [Parts.has_only hdone]; exact Bool.false_ne_true)]
  cases s with
  | name =>
    obtain ⟨name, hfull, rfl⟩ := hv
    exact congrArg (ofMembers k · ms) (Parts.only_name hfull done)
  | element =>
    obtain ⟨e, hfull, he⟩ := hv
    show (do ofMembers k { full.only done with element := some (← ofTree v) } ms) = _
    rw [he]
    exact congrArg (ofMembers k · ms) (Parts.only_element hfull done)
  | args =>
    obtain ⟨vs, ts, hfull, rfl, hts⟩ := hv
    show (do ofMembers k { full.only done with args := some (← ofList vs) } ms) = _
    rw [hts]
    exact congrArg (ofMembers k · ms) (Parts.only_args hfull done)

/-- **The members of an object are decoded to the parts they spell.** -/
theorem ofMembers_eq (h : (k.spelled slot).Members (kindKey :: k.slots.map Slot.label) written ms)
    (hfill : ∀ s ∈ k.slots, ∀ v, slot s v → Fills full s v) (hslots : ∀ s, some s ∈ written → s ∈ k.slots)
    (done : List Slot) (hnodup : (done.map some ++ written).Nodup) :
    ofMembers k (full.only done) ms = .ok (full.only (done ++ written.filterMap id)) := by
  have hkind : k.slot? kindKey = none :=
    Kind.slot?_of_unknown fun h => by
      obtain ⟨s, -, hs⟩ := List.mem_map.1 h
      exact s.label_ne_kindKey hs
  induction h generalizing done with
  | nil => rw [ofMembers, List.filterMap_nil, List.append_nil]
  | @part p v ps ms hv h ih =>
    have hslots' (s : Slot) (hs : some s ∈ ps) := hslots s (List.mem_cons_of_mem p hs)
    cases p with
    | none =>
      rw [k.label_none, ofMembers, hkind]
      exact ih hslots' done (hnodup.sublist (List.Sublist.append_left (List.sublist_cons_self _ _) _))
    | some s =>
      have hs := hslots s List.mem_cons_self
      have hlist : done.map some ++ some s :: ps = (done ++ [s]).map some ++ ps := by simp
      have hdone : s ∉ done := fun hmem =>
        (List.nodup_append.1 hnodup).2.2 _ (List.mem_map_of_mem hmem) _ List.mem_cons_self rfl
      refine (ofMembers_cons hs hdone (hfill s hs v hv) ms).trans ?_
      rw [ih hslots' (done ++ [s]) (hlist ▸ hnodup), List.append_assoc]
      rfl
  | @other m ps ms hm _ ih =>
    rw [ofMembers, Kind.slot?_of_unknown fun h => hm (List.mem_cons_of_mem _ h)]
    exact ih hslots done hnodup

end Members

/-- **The items of an array are decoded to the parts they spell.** -/
theorem ofItems_eq {slots : List Slot} {vs : List Json}
    (h : List.Forall₂ (fun s v => Fills full s v) slots vs) (done : List Slot) (n : Nat) :
    ofItems k slots (full.only done) n vs = .ok (full.only (done ++ slots)) := by
  induction h generalizing done n with
  | nil => rw [ofItems, List.append_nil]
  | @cons s v slots vs hv _ ih =>
    have hlist : done ++ s :: slots = (done ++ [s]) ++ slots := by simp
    rw [hlist, ← ih (done ++ [s]) (n + 1)]
    cases s with
    | name =>
      obtain ⟨name, hfull, rfl⟩ := hv
      rw [ofItems]
      exact congrArg (ofItems k slots · (n + 1) vs) (Parts.only_name hfull done)
    | element =>
      obtain ⟨e, hfull, he⟩ := hv
      rw [ofItems, he]
      exact congrArg (ofItems k slots · (n + 1) vs) (Parts.only_element hfull done)
    | args =>
      obtain ⟨us, ts, hfull, rfl, hts⟩ := hv
      rw [ofItems, hts]
      exact congrArg (ofItems k slots · (n + 1) vs) (Parts.only_args hfull done)

/-- **What spells a kind with its parts**: an object with all of them, or an array of all of them. -/
theorem Kind.Node.cases {v : Json} (h : k.Node slot v) :
    (∃ written ms, v = .object ms ∧ written.Perm (none :: k.slots.map some) ∧
      (k.spelled slot).Members (kindKey :: k.slots.map Slot.label) written ms) ∨
    ∃ items, v = .array (.string k.spelling :: items) ∧ List.Forall₂ slot k.slots items := by
  cases h with
  | @object written ms hwritten hms =>
    obtain ⟨omitted, hperm, ho⟩ := hwritten
    obtain rfl : omitted = [] := List.eq_nil_iff_forall_not_mem.2 ho
    rw [List.append_nil] at hperm
    exact Or.inl ⟨written, ms, rfl, hperm, k.map_label slot ▸ hms⟩
  | @array written omitted vs happend ho hvs =>
    obtain rfl : omitted = [] := List.eq_nil_iff_forall_not_mem.2 ho
    rw [List.append_nil] at happend
    subst happend
    obtain ⟨w, items, hw, hitems, rfl⟩ := List.forall₂_cons_left_iff.1 hvs
    obtain rfl : w = .string k.spelling := hw
    rw [List.forall₂_map_left_iff] at hitems
    exact Or.inr ⟨items, rfl, hitems⟩

/-- No part is written twice. -/
theorem Kind.nodup_of_perm {written : List (Option Slot)} (h : written.Perm (none :: k.slots.map some)) :
    written.Nodup := by
  refine h.nodup_iff.2 ?_
  cases k <;> simp [Kind.slots]

/-- **A tree is decoded to the kind and the parts it spells.** -/
theorem ofTree_node {v : Json} (hfill : ∀ s ∈ k.slots, ∀ v, slot s v → Fills full s v) (hbuild : full.build k = .ok t)
    (h : k.Node slot v) : ofTree v = .ok t := by
  obtain ⟨written, ms, rfl, hperm, hms⟩ | ⟨items, rfl, hitems⟩ := h.cases
  · have hnodup := Kind.nodup_of_perm hperm
    have hslots (s : Slot) : some s ∈ written ↔ s ∈ k.slots := by simp [hperm.mem_iff]
    have hdone : ∀ s ∈ k.slots, s ∈ [] ++ written.filterMap id := fun s hs =>
      List.mem_filterMap.2 ⟨some s, (hslots s).2 hs, rfl⟩
    have hparts := ofMembers_eq hms hfill (fun s => (hslots s).1) [] hnodup
    rw [ofTree, kindOf_none hms (hperm.mem_iff.2 List.mem_cons_self) hnodup]
    show (do (← ofMembers k {} ms).build k) = _
    rw [← full.only_nil, hparts]
    exact (Parts.build_only hdone).trans hbuild
  · have hlength : items.length ≤ k.slots.length := hitems.length_eq.ge
    have hfills : List.Forall₂ (fun s v => Fills full s v) k.slots items :=
      List.forall₂_iff_zip.2 ⟨hitems.length_eq, fun {s v} hmem =>
        hfill s (List.of_mem_zip hmem).1 v ((List.forall₂_iff_zip.1 hitems).2 hmem)⟩
    rw [ofTree, k.ofJson_spelling]
    have hparts : ofItems k k.slots {} 0 items = .ok (full.only k.slots) := full.only_nil ▸ ofItems_eq hfills [] 0
    have hbuilt : (full.only k.slots).build k = .ok t := (Parts.build_only fun s hs => hs).trans hbuild
    show (ofItems k k.slots {} 0 items >>= fun parts => parts.build k >>= fun t =>
      if items.length ≤ k.slots.length then .ok t else .error (.wrongLength items.length k.wantedLength)) = _
    simp only [hparts, hbuilt, bind, Except.bind]
    exact if_pos hlength

mutual

/-- **A tree is decoded to the type it spells.** -/
theorem ofTree_of_spells : ∀ (t : FieldType) {v : Json}, Spells t v → ofTree v = .ok t
  | .leaf k name, v, h => by
    have hfill : ∀ s ∈ (Kind.leaf k).slots, ∀ v, v = .string name → Fills { name := some name } s v := by
      rintro s hs v rfl
      obtain rfl := List.mem_singleton.1 hs
      exact ⟨name, rfl, rfl⟩
    exact ofTree_node hfill rfl h
  | .text, v, h => by
    have hfill : ∀ s ∈ Kind.text.slots, ∀ v, False → Fills {} s v := nofun
    exact ofTree_node hfill rfl h
  | .container c e, v, h => by
    have hfill : ∀ s ∈ (Kind.container c).slots, ∀ v, Spells e v → Fills { element := some e } s v := by
      intro s hs v hv
      obtain rfl := List.mem_singleton.1 hs
      exact ⟨e, rfl, ofTree_of_spells e hv⟩
    exact ofTree_node hfill rfl h
  | .generic name args, v, h => by
    have hargs {vs : List Json} (hvs : SpellsAll args vs) : ofList vs = .ok args := ofList_of_spells args hvs
    refine @ofTree_node .generic _ { name := some name, args := some args } _ v (fun s hs v hv => ?_) rfl h
    cases s with
    | name => exact ⟨name, rfl, hv⟩
    | element => simp [Kind.slots] at hs
    | args =>
      cases v with
      | array vs => exact ⟨vs, args, rfl, rfl, hargs hv⟩
      | _ => exact hv.elim

/-- Trees are decoded to the types they spell. -/
theorem ofList_of_spells : ∀ (ts : List FieldType) {vs : List Json}, SpellsAll ts vs → ofList vs = .ok ts
  | [], [], _ => by rw [ofList]
  | [], _ :: _, h => h.elim
  | _ :: _, [], h => h.elim
  | t :: ts, v :: vs, h => by
    rw [ofList, ofTree_of_spells t h.1, ofList_of_spells ts h.2]
    rfl

end

end EditorScaffold.FieldType
