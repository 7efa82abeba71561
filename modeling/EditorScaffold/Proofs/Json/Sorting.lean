import EditorScaffold.Proofs.Json.Records

/-! # Sorted members

A tree with the members of its objects sorted has of each key the last member only. As the parts of a record have keys
of their own, nothing is lost of them, and the sorted tree spells the same parts (`Spelling.Node.sorted`). -/

namespace EditorScaffold

theorem Text.eq_of_compare_eq {s t : Text} (h : Text.compare s t = .eq) : s = t := by
  induction s generalizing t with
  | nil =>
    cases t with
    | nil => rfl
    | cons b t => cases h
  | cons a s ih =>
    cases t with
    | nil => cases h
    | cons b t =>
      rw [compare, Ordering.then_eq_eq, Nat.compare_eq_eq] at h
      rw [Char.toNat_inj.1 h.1, ih h.2]

namespace Json

theorem sortedItems_eq (vs : List Json) : sortedItems vs = vs.map sorted := by
  induction vs with
  | nil => rw [sortedItems, List.map_nil]
  | cons v vs ih => rw [sortedItems, ih, List.map_cons]

theorem sorted_array (items : List Json) : (array items).sorted = .array (items.map sorted) := by
  rw [sorted, sortedItems_eq]

namespace Spelling

variable {π : Type} {S : Spelling π} {known : List Text} {ps qs : List π} {ms acc : List (Text × Json)}

/-! ### One member -/

/-- A member that spells a part of its own is put among the others. -/
theorem Members.insert_part {p : π} {v : Json} (h : S.Members known ps ms) (hv : S.Spells p v)
    (hknown : S.label p ∈ known) (hnew : S.label p ∉ ps.map S.label) :
    ∃ qs, qs.Perm (p :: ps) ∧ S.Members known qs (insertMember (S.label p) v ms) := by
  induction h with
  | nil => exact ⟨[p], .refl _, .part hv .nil⟩
  | @part q w ps ms hw hms ih =>
    rw [List.map_cons, List.mem_cons, not_or] at hnew
    rw [insertMember]
    cases hcompare : Text.compare (S.label p) (S.label q) with
    | lt => exact ⟨p :: q :: ps, .refl _, .part hv (.part hw hms)⟩
    | eq => exact absurd (Text.eq_of_compare_eq hcompare) hnew.1
    | gt =>
      obtain ⟨qs, hperm, hqs⟩ := ih hnew.2
      exact ⟨q :: qs, (hperm.cons q).trans (.swap p q ps), .part hw hqs⟩
  | @other m ps ms hm hms ih =>
    rw [insertMember]
    cases hcompare : Text.compare (S.label p) m.1 with
    | lt => exact ⟨p :: ps, .refl _, .part hv (.other hm hms)⟩
    | eq => exact absurd (Text.eq_of_compare_eq hcompare ▸ hknown) hm
    | gt =>
      obtain ⟨qs, hperm, hqs⟩ := ih hnew
      exact ⟨qs, hperm, .other hm hqs⟩

/-- A member under an unknown key is put among the others, or replaces one under the same key. -/
theorem Members.insert_other {k : Text} (h : S.Members known ps ms) (hk : k ∉ known)
    (hknown : ∀ p ∈ ps, S.label p ∈ known) (v : Json) : S.Members known ps (insertMember k v ms) := by
  induction h with
  | nil => exact .other (m := (k, v)) hk .nil
  | @part q w ps ms hw hms ih =>
    obtain ⟨hq, hps⟩ := List.forall_mem_cons.1 hknown
    rw [insertMember]
    cases hcompare : Text.compare k (S.label q) with
    | lt => exact .other (m := (k, v)) hk (.part hw hms)
    | eq => exact absurd (Text.eq_of_compare_eq hcompare ▸ hq) hk
    | gt => exact .part hw (ih hps)
  | @other m ps ms hm hms ih =>
    rw [insertMember]
    cases Text.compare k m.1 with
    | lt => exact .other (m := (k, v)) hk (.other hm hms)
    | eq => exact .other (m := (k, v)) hk hms
    | gt => exact .other hm (ih hknown)

/-! ### All members -/

/-- **Sorted members spell the same parts** in another order. -/
theorem Members.sorted (hS : ∀ {p : π} {v : Json}, S.Spells p v → S.Spells p v.sorted) (h : S.Members known ps ms)
    (hacc : S.Members known qs acc) (hknown : ∀ p ∈ ps ++ qs, S.label p ∈ known)
    (hnodup : ((ps ++ qs).map S.label).Nodup) :
    ∃ rs, rs.Perm (ps ++ qs) ∧ S.Members known rs (sortedMembers ms acc) := by
  induction h generalizing qs acc with
  | nil => exact ⟨qs, .refl _, hacc⟩
  | @part p v ps ms hv _ ih =>
    have hnew : S.label p ∉ qs.map S.label := fun hmem => by
      rw [List.cons_append, List.map_cons, List.map_append, List.nodup_cons] at hnodup
      exact hnodup.1 (List.mem_append_right _ hmem)
    obtain ⟨ts, hts, hmembers⟩ := hacc.insert_part (hS hv) (hknown p List.mem_cons_self) hnew
    have hperm : (ps ++ ts).Perm (p :: ps ++ qs) := (hts.append_left ps).trans List.perm_middle
    have hnodup : ((ps ++ ts).map S.label).Nodup := (hperm.map S.label).nodup_iff.2 hnodup
    obtain ⟨rs, hrs, hsorted⟩ := ih hmembers (fun q hq => hknown q (hperm.subset hq)) hnodup
    rw [sortedMembers]
    exact ⟨rs, hrs.trans hperm, hsorted⟩
  | @other m ps ms hm _ ih =>
    rw [sortedMembers]
    exact ih (hacc.insert_other hm (fun p hp => hknown p (List.mem_append_right _ hp)) _) hknown hnodup

/-- **A tree spells the same parts** with the members of its objects sorted. -/
theorem Node.sorted (hS : ∀ {p : π} {v : Json}, S.Spells p v → S.Spells p v.sorted) {parts : List π} {v : Json}
    (hnodup : (parts.map S.label).Nodup) (h : S.Node parts v) : S.Node parts v.sorted := by
  cases h with
  | @object written ms hwritten hms =>
    have hlabels : ((written ++ []).map S.label).Nodup := by
      rw [List.append_nil]
      exact hwritten.nodup hnodup
    have hknown : ∀ p ∈ written ++ [], S.label p ∈ parts.map S.label := by
      rw [List.append_nil]
      exact fun p hp => List.mem_map_of_mem (hwritten.mem hp)
    obtain ⟨rs, hrs, hsorted⟩ := hms.sorted hS .nil hknown hlabels
    rw [List.append_nil] at hrs
    obtain ⟨omitted, hperm, ho⟩ := hwritten
    rw [Json.sorted]
    exact .object ⟨omitted, (hrs.append_right omitted).trans hperm, ho⟩ hsorted
  | array happend ho hvs =>
    rw [sorted_array]
    exact .array happend ho (List.forall₂_map_right_iff.2 (hvs.imp fun _ _ hv => hS hv))

end Spelling

theorem keepsSpelling_sorted : KeepsSpelling sorted where
  string _ := rfl
  bool _ := rfl
  array := sorted_array
  node hnodup hS h := h.sorted hS hnodup

end Json

end EditorScaffold
