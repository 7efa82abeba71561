import EditorScaffold.Proofs.Json.Doubles
import EditorScaffold.Proofs.Json.Records

/-! # Compact text

The compact text of a tree writes each number by its value. It is the text of another tree as it is spelled
(`compact_eq_spelled`), with the same brackets and with numbers that are in range if those of the first one are; and
the other tree spells the same parts (`Spelling.Node.rewritten`). -/

namespace EditorScaffold.Json

/-- The numeral that the value of a numeral is written as, or the numeral itself if it has no value. -/
noncomputable def Numeral.rewritten (n : Numeral) : Numeral :=
  if h : n.number?.isSome then (exists_rewritten h).choose else n

theorem Numeral.text_rewritten (n : Numeral) : n.rewritten.text = numberText n := by
  unfold rewritten
  split
  · next h => exact (exists_rewritten h).choose_spec.1
  · next h => rw [numberText, Option.not_isSome_iff_eq_none.1 h]

theorem Numeral.isSome_rewritten {n : Numeral} (h : n.number?.isSome) : n.rewritten.number?.isSome := by
  rw [rewritten, dif_pos h]
  exact (exists_rewritten h).choose_spec.2

mutual

/-- The tree with each number written by its value. -/
noncomputable def rewritten : Json → Json
  | number n => number n.rewritten
  | array items => array (rewrittenItems items)
  | object members => object (rewrittenMembers members)
  | v => v

/-- The items of an array with each number written by its value. -/
noncomputable def rewrittenItems : List Json → List Json
  | [] => []
  | v :: vs => rewritten v :: rewrittenItems vs

/-- The members of an object with each number written by its value. -/
noncomputable def rewrittenMembers : List (Text × Json) → List (Text × Json)
  | [] => []
  | (k, v) :: ms => (k, rewritten v) :: rewrittenMembers ms

end

theorem rewrittenItems_eq (vs : List Json) : rewrittenItems vs = vs.map rewritten := by
  induction vs with
  | nil => rw [rewrittenItems, List.map_nil]
  | cons v vs ih => rw [rewrittenItems, ih, List.map_cons]

theorem rewrittenMembers_eq (ms : List (Text × Json)) :
    rewrittenMembers ms = ms.map fun m => (m.1, m.2.rewritten) := by
  induction ms with
  | nil => rw [rewrittenMembers, List.map_nil]
  | cons m ms ih => rw [rewrittenMembers, ih, List.map_cons]

theorem rewritten_array (items : List Json) : (array items).rewritten = .array (items.map rewritten) := by
  rw [rewritten, rewrittenItems_eq]

theorem rewritten_object (members : List (Text × Json)) :
    (object members).rewritten = .object (members.map fun m => (m.1, m.2.rewritten)) := by
  rw [rewritten, rewrittenMembers_eq]

theorem rewritten_string (t : Text) : (string t).rewritten = .string t := rfl

/-! ### Text -/

theorem compactItems_eq {vs : List Json} (h : ∀ v ∈ vs, v.compact = v.rewritten.spelled) :
    compactItems vs = spelledItems (vs.map rewritten) := by
  induction vs with
  | nil => rfl
  | cons v vs ih =>
    obtain ⟨hv, hvs⟩ := List.forall_mem_cons.1 h
    cases vs with
    | nil => rw [compactItems, hv, List.map_cons, List.map_nil, spelledItems]
    | cons w vs =>
      rw [compactItems, hv, ih hvs]
      rfl

theorem compactMembers_eq {ms : List (Text × Json)} (h : ∀ m ∈ ms, m.2.compact = m.2.rewritten.spelled) :
    compactMembers ms = spelledMembers (ms.map fun m => (m.1, m.2.rewritten)) := by
  induction ms with
  | nil => rfl
  | cons m ms ih =>
    obtain ⟨hm, hms⟩ := List.forall_mem_cons.1 h
    cases ms with
    | nil => rw [compactMembers, hm, List.map_cons, List.map_nil, spelledMembers]
    | cons n ms =>
      rw [compactMembers, hm, ih hms]
      rfl

/-- **The compact text is that of a tree as it is spelled.** -/
theorem compact_eq_spelled (v : Json) : v.compact = v.rewritten.spelled := by
  induction v using Json.induction with
  | null => rfl
  | bool b => cases b <;> rfl
  | number n => rw [rewritten, compact, spelled, n.text_rewritten]
  | string t => rfl
  | array items ih => rw [rewritten_array, compact, spelled, compactItems_eq ih]
  | object members ih => rw [rewritten_object, compact, spelled, compactMembers_eq ih]

/-! ### Brackets and numbers -/

theorem nesting_rewritten_le {v : Json} {n : Nat} (h : v.nesting ≤ n) : v.rewritten.nesting ≤ n := by
  induction v using Json.induction generalizing n with
  | null => exact h
  | bool b => exact h
  | number m => exact h
  | string t => exact h
  | array items ih =>
    obtain ⟨n, rfl, hitem⟩ := nesting_array_le.1 h
    rw [rewritten_array, nesting_array_le]
    exact ⟨n, rfl, List.forall_mem_map.2 fun v hv => ih v hv (hitem v hv)⟩
  | object members ih =>
    obtain ⟨n, rfl, hmember⟩ := nesting_object_le.1 h
    rw [rewritten_object, nesting_object_le]
    exact ⟨n, rfl, List.forall_mem_map.2 fun m hm => ih m hm (hmember m hm)⟩

theorem inRange_rewritten {v : Json} (h : v.InRange) : v.rewritten.InRange := by
  induction v using Json.induction with
  | null => exact h
  | bool b => exact h
  | number n => exact inRange_number.2 (Numeral.isSome_rewritten (inRange_number.1 h))
  | string t => exact h
  | array items ih =>
    rw [rewritten_array, inRange_array, List.forall_mem_map]
    exact fun v hv => ih v hv (inRange_array.1 h v hv)
  | object members ih =>
    rw [rewritten_object, inRange_object, List.forall_mem_map]
    exact fun m hm => ih m hm (inRange_object.1 h m hm)

/-! ### Spellings -/

namespace Spelling

variable {π : Type} {S : Spelling π}

theorem Members.rewritten (hS : ∀ {p : π} {v : Json}, S.Spells p v → S.Spells p v.rewritten) {known : List Text}
    {ps : List π} {ms : List (Text × Json)} (h : S.Members known ps ms) :
    S.Members known ps (ms.map fun m => (m.1, m.2.rewritten)) := by
  induction h with
  | nil => exact .nil
  | part hv _ ih => exact .part (hS hv) ih
  | @other m ps ms hm _ ih => exact .other (m := (m.1, m.2.rewritten)) hm ih

/-- **A tree spells the same parts** with each number written by its value. -/
theorem Node.rewritten (hS : ∀ {p : π} {v : Json}, S.Spells p v → S.Spells p v.rewritten) {parts : List π} {v : Json}
    (h : S.Node parts v) : S.Node parts v.rewritten := by
  cases h with
  | object hwritten hms =>
    rw [rewritten_object]
    exact .object hwritten (hms.rewritten hS)
  | array happend ho hvs =>
    rw [rewritten_array]
    exact .array happend ho (List.forall₂_map_right_iff.2 (hvs.imp fun _ _ hv => hS hv))

end Spelling

theorem keepsSpelling_rewritten : KeepsSpelling rewritten where
  string := rewritten_string
  bool _ := rfl
  array := rewritten_array
  node _ hS h := h.rewritten hS

end EditorScaffold.Json
