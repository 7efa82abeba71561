import EditorScaffold.Proofs.FieldType.Spelling
import EditorScaffold.Proofs.Json.Decoding

/-! # Field types come back from their trees

A type that stands by itself must have its kind spelled out, and whatever spells the type does (`checkKind_node`). The
tree that a type is written as spells it (`spells_toJson`), by induction on the type. -/

namespace EditorScaffold.FieldType

open Json (Spelling)

variable {k : Kind} {slot : Slot → Json → Prop} {ms : List (Text × Json)}

/-! ### Decoding -/

/-- The kind is found among the members. -/
theorem find?_kindKey {written : List (Option Slot)}
    (h : (k.spelled slot).Members (kindKey :: k.slots.map Slot.label) written ms) (hkind : none ∈ written) :
    ms.find? (·.1 = kindKey) = some k.member := by
  induction h with
  | nil => cases hkind
  | @part p v ps ms hv _ ih =>
    cases p with
    | none =>
      obtain rfl : v = .string k.spelling := hv
      exact List.find?_cons_of_pos (decide_eq_true (k.label_none slot))
    | some s =>
      rw [k.label_some, List.find?_cons_of_neg (by simpa using s.label_ne_kindKey)]
      exact ih (by simpa using hkind)
  | @other m ps ms hm _ ih =>
    rw [List.find?_cons_of_neg (by simpa using ne_kindKey hm)]
    exact ih hkind

theorem checkKind_node {v : Json} (h : k.Node slot v) : checkKind v = .ok () := by
  have hkind : discard (Kind.ofSpelling (.string k.spelling)) = .ok () :=
    congrArg discard (show Kind.ofSpelling (.string k.spelling) = .ok k from k.ofJson_spelling)
  obtain ⟨written, ms, rfl, hperm, hms⟩ | ⟨items, rfl, -⟩ := h.cases
  · rw [checkKind, find?_kindKey hms (hperm.mem_iff.2 List.mem_cons_self)]
    exact hkind
  · exact hkind

/-- **A type by itself is decoded from every tree that spells it.** -/
theorem ofJson_of_spells {t : FieldType} {v : Json} (h : Spells t v) : ofJson v = .ok t := by
  obtain ⟨k, slot, hnode⟩ : ∃ k slot, Spells t = Kind.Node k slot := by
    cases t <;> exact ⟨_, _, rfl⟩
  rw [ofJson, checkKind_node (hnode ▸ h)]
  exact ofTree_of_spells t h

/-! ### Encoding -/

/-- An object spells a kind with its parts if it starts with the kind and the parts follow in their order. -/
theorem Kind.node_member
    (h : (k.spelled slot).Members (kindKey :: k.slots.map Slot.label) (k.slots.map some) ms) :
    k.Node slot (.object (k.member :: ms)) := by
  refine .object ⟨[], List.Perm.of_eq (List.append_nil _), nofun⟩ ?_
  rw [k.map_label slot]
  exact .part (p := none) rfl h

mutual

/-- **The tree that a type is written as spells it.** -/
theorem spells_toJson : ∀ t : FieldType, Spells t t.toJson
  | .leaf k _ => Kind.node_member (k := .leaf k) (.part (p := some Slot.name) rfl .nil)
  | .text => Kind.node_member (k := .text) .nil
  | .container c e => Kind.node_member (k := .container c) (.part (p := some Slot.element) (spells_toJson e) .nil)
  | .generic _ args =>
    Kind.node_member (k := .generic) <|
      .part (p := some Slot.name) rfl <| .part (p := some Slot.args) (spellsAll_toJsons args) .nil

theorem spellsAll_toJsons : ∀ ts : List FieldType, SpellsAll ts (toJsons ts)
  | [] => True.intro
  | t :: ts => ⟨spells_toJson t, spellsAll_toJsons ts⟩

end

theorem roundTrips : Json.RoundTrips toJson ofJson :=
  Json.roundTrips_of_spells spells_toJson (fun hf => Spells.changed hf _) ofJson_of_spells

end EditorScaffold.FieldType
