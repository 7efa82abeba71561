import EditorScaffold.Proofs.Merge.ImportLine

/-! # Successive insertions into the same elements

An import that is inserted becomes the beginning of an element. Given to the next insertion as it is, such an element
is neither an import nor a declaration, so the import goes before the next declaration, if there is one
(`insertImport_withImports`). Insertions one after the other therefore serve the declarations in their order, each once
(`insertAll_serves_in_order`), while of merges only one inserts: they cut the text into lines again in between. -/

namespace EditorScaffold.Merge

/-- The results of insertions one after the other, each into the elements that the one before has left. -/
def insertAll (ls : List Text) : List Text → List (List Text × Bool)
  | [] => []
  | guardSymbol :: guards => insertImport guardSymbol ls :: insertAll (insertImport guardSymbol ls).1 guards

/-- The elements with an import before each of the first declarations, as many as there are guard symbols. -/
def withImports : List Text → List Text → List Text
  | _, [] => []
  | guards, l :: ls =>
    if isDeclaration l then (guards.head?.elim [] guardedImport ++ l) :: withImports guards.tail ls
    else l :: withImports guards ls

variable {ls : List Text}

/-! ### Elements that begin with an import -/

theorem isDeclaration_eq_decide (l : Text) : isDeclaration l = decide (Declares l) := by
  rw [Bool.eq_iff_iff, isDeclaration_iff, decide_eq_true_iff]
  rfl

theorem isImport_of_isDeclaration {l : Text} (h : isDeclaration l = true) : isImport l = false := by
  obtain ⟨p, hp, hpl⟩ := isDeclaration_iff.1 h
  have hapart : ∀ p ∈ ["namespace".toList, "public".toList, "internal".toList],
      ¬ p <+: Editor.importStart ∧ ¬ Editor.importStart <+: p := by decide
  rw [← Bool.not_eq_true, isImport_iff]
  exact fun hl => (List.prefix_or_prefix_of_prefix hpl hl).elim (hapart p hp).1 (hapart p hp).2

theorem isImport_guardedImport_append (guardSymbol l : Text) : isImport (guardedImport guardSymbol ++ l) = false := rfl

theorem isDeclaration_guardedImport_append (guardSymbol l : Text) :
    isDeclaration (guardedImport guardSymbol ++ l) = false := rfl

/-- Imports that are inserted are not seen as imports. -/
theorem hasImport_withImports (guards ls : List Text) : hasImport (withImports guards ls) = hasImport ls := by
  induction ls generalizing guards with
  | nil => rfl
  | cons l ls ih =>
    unfold withImports
    split
    · next hl =>
      have hhead : isImport (guards.head?.elim [] guardedImport ++ l) = isImport l := by
        cases guards with
        | nil => rfl
        | cons guardSymbol _ =>
          rw [isImport_of_isDeclaration hl]
          exact isImport_guardedImport_append guardSymbol l
      have htail := ih guards.tail
      simp only [hasImport, List.any_cons] at htail ⊢
      rw [hhead, htail]
    · have htail := ih guards
      simp only [hasImport, List.any_cons] at htail ⊢
      rw [htail]

theorem withImports_nil (ls : List Text) : withImports [] ls = ls := by
  induction ls with
  | nil => rfl
  | cons l ls ih =>
    unfold withImports
    split <;> exact congrArg (l :: ·) ih

/-- More guard symbols than declarations change nothing. -/
theorem withImports_append_of_le {guards : List Text} (h : ls.countP isDeclaration ≤ guards.length)
    (more : List Text) : withImports (guards ++ more) ls = withImports guards ls := by
  induction ls generalizing guards with
  | nil => rfl
  | cons l ls ih =>
    unfold withImports
    split
    · next hl =>
      rw [List.countP_cons_of_pos hl] at h
      cases guards with
      | nil => exact absurd h (by simp)
      | cons guardSymbol guards => exact congrArg _ (ih (Nat.le_of_succ_le_succ h))
    · next hl =>
      rw [List.countP_cons_of_neg hl] at h
      rw [ih h]

/-! ### One insertion -/

/-- **A block goes before the next declaration**, if there is one without an import. -/
theorem insertBlock?_withImports (guards ls : List Text) (guardSymbol : Text) :
    insertBlock? (guardedImport guardSymbol) (withImports guards ls) =
      if guards.length < ls.countP isDeclaration then some (withImports (guards ++ [guardSymbol]) ls) else none := by
  induction ls generalizing guards with
  | nil => rfl
  | cons l ls ih =>
    by_cases hl : isDeclaration l = true
    · rw [List.countP_cons_of_pos hl]
      cases guards with
      | nil =>
        rw [withImports_nil, insertBlock?_cons, if_pos hl, List.length_nil, if_pos (Nat.succ_pos _),
          List.nil_append, withImports, if_pos hl, List.tail_cons, withImports_nil]
        rfl
      | cons g guards =>
        have hserved : ¬ isDeclaration (guardedImport g ++ l) = true := by
          rw [isDeclaration_guardedImport_append]
          exact Bool.false_ne_true
        rw [withImports, if_pos hl, List.head?_cons, Option.elim_some, List.tail_cons, insertBlock?_cons,
          if_neg hserved, ih, List.cons_append, withImports, if_pos hl, List.length_cons]
        simp only [Nat.succ_lt_succ_iff]
        split <;> rfl
    · rw [List.countP_cons_of_neg hl, withImports, if_neg hl, insertBlock?_cons, if_neg hl, ih, withImports, if_neg hl]
      split <;> rfl

/-- **One insertion serves one more declaration**, if there is one left. -/
theorem insertImport_withImports (h : hasImport ls = false) (guards : List Text) (guardSymbol : Text) :
    insertImport guardSymbol (withImports guards ls) =
      (withImports (guards ++ [guardSymbol]) ls, decide (guards.length < ls.countP isDeclaration)) := by
  unfold insertImport
  rw [hasImport_withImports, h, insertBlock?_withImports]
  by_cases hlt : guards.length < ls.countP isDeclaration
  · simp [hlt]
  · simp [hlt, withImports_append_of_le (Nat.le_of_not_lt hlt)]

/-! ### A run of insertions -/

theorem length_insertAll (ls guards : List Text) : (insertAll ls guards).length = guards.length := by
  induction guards generalizing ls with
  | nil => rfl
  | cons guardSymbol guards ih => rw [insertAll, List.length_cons, ih, List.length_cons]

/-- **A run into elements with an import** inserts nothing. -/
theorem insertAll_of_hasImport (h : hasImport ls = true) (guards : List Text) :
    ∀ r ∈ insertAll ls guards, r = (ls, false) := by
  have hcall (guardSymbol : Text) : insertImport guardSymbol ls = (ls, false) := if_pos h
  induction guards with
  | nil => exact nofun
  | cons guardSymbol guards ih =>
    rw [insertAll, hcall]
    exact List.forall_mem_cons.2 ⟨rfl, ih⟩

/-- **A run goes on where another has stopped**: the call number `j` serves one declaration more than those before. -/
theorem getElem?_insertAll (h : hasImport ls = false) {done guards : List Text} {j : ℕ} {r : List Text × Bool}
    (hr : (insertAll (withImports done ls) guards)[j]? = some r) :
    r = (withImports (done ++ guards.take (j + 1)) ls, decide (done.length + j < ls.countP isDeclaration)) := by
  induction guards generalizing done j with
  | nil => cases hr
  | cons guardSymbol guards ih =>
    rw [insertAll, insertImport_withImports h] at hr
    cases j with
    | zero => exact (Option.some.inj hr).symm
    | succ j =>
      rw [List.getElem?_cons_succ] at hr
      rw [ih hr, List.append_assoc, List.singleton_append, List.take_succ_cons, List.length_append,
        List.length_singleton, Nat.add_assoc, Nat.add_comm 1 j]

/-! ### Which elements are served -/

/-- **The declaration number `k`**, counted from 0, is the element `l` at the index `i`. -/
structure NthDeclaration (ls : List Text) (k i : ℕ) (l : Text) : Prop where
  listed : ls[i]? = some l
  declares : Declares l
  number : (ls.take i).countP (Declares ·) = k

/-- **The declarations are served** in their order, each with the import of its guard symbol, as many as there are guard
symbols. The number of elements and all other elements are as before. -/
structure Served (guards ls ms : List Text) : Prop where
  length_eq : ms.length = ls.length
  served {k i : ℕ} {l guardSymbol : Text} : NthDeclaration ls k i l → guards[k]? = some guardSymbol →
    ms[i]? = some (guardedImport guardSymbol ++ l)
  unchanged {i : ℕ} {l : Text} : ls[i]? = some l → (∀ k, NthDeclaration ls k i l → guards.length ≤ k) → ms[i]? = some l

theorem getElem?_withImports (guards ls : List Text) (i : ℕ) :
    (withImports guards ls)[i]? = ls[i]?.map fun l =>
      if isDeclaration l then (guards[(ls.take i).countP isDeclaration]?).elim [] guardedImport ++ l else l := by
  induction ls generalizing guards i with
  | nil => rfl
  | cons l ls ih =>
    by_cases hl : isDeclaration l = true
    · rw [withImports, if_pos hl]
      cases i with
      | zero => simp [hl, List.head?_eq_getElem?]
      | succ i =>
        rw [List.getElem?_cons_succ, ih, List.take_succ_cons, List.countP_cons_of_pos hl, List.getElem?_cons_succ,
          List.getElem?_tail]
    · rw [withImports, if_neg hl]
      cases i with
      | zero => simp [hl]
      | succ i =>
        rw [List.getElem?_cons_succ, ih, List.take_succ_cons, List.countP_cons_of_neg hl, List.getElem?_cons_succ]

theorem countP_isDeclaration (ls : List Text) : ls.countP isDeclaration = ls.countP (Declares ·) := by
  rw [funext isDeclaration_eq_decide]

theorem length_withImports (guards ls : List Text) : (withImports guards ls).length = ls.length := by
  induction ls generalizing guards with
  | nil => rfl
  | cons l ls ih =>
    unfold withImports
    split <;> exact congrArg (· + 1) (ih _)

theorem served_withImports (guards ls : List Text) : Served guards ls (withImports guards ls) where
  length_eq := length_withImports guards ls
  served {k i l guardSymbol} h hk := by
    rw [getElem?_withImports, h.listed, Option.map_some, if_pos (isDeclaration_iff.2 h.declares), countP_isDeclaration,
      h.number, hk]
    rfl
  unchanged {i l} hi h := by
    rw [getElem?_withImports, hi, Option.map_some]
    split
    · next hl =>
      have hle := h _ ⟨hi, isDeclaration_iff.1 hl, rfl⟩
      rw [countP_isDeclaration, List.getElem?_eq_none hle]
      rfl
    · rfl

/-- **Insertions one after the other serve the declarations in their order.** If an element starts like the import,
every call tells that it has inserted nothing, and nothing changes. Otherwise the calls insert as long as there are
declarations left, each before the next one, and those after that change nothing. -/
theorem insertAll_serves_in_order (ls guards : List Text) :
    (insertAll ls guards).length = guards.length ∧
    ((∃ l ∈ ls, "using UnityEditor".toList <+: l) → ∀ r ∈ insertAll ls guards, r = (ls, false)) ∧
    ((∀ l ∈ ls, ¬ "using UnityEditor".toList <+: l) →
      ∀ (j : ℕ) (ms : List Text) (inserted : Bool), (insertAll ls guards)[j]? = some (ms, inserted) →
        inserted = decide (j < ls.countP (Declares ·)) ∧ Served (guards.take (j + 1)) ls ms) := by
  refine ⟨length_insertAll ls guards, fun h => insertAll_of_hasImport (hasImport_iff.2 h) guards, ?_⟩
  intro himports j ms inserted hr
  have hno : hasImport ls = false := by
    rw [← Bool.not_eq_true, hasImport_iff]
    rintro ⟨l, hl, hstart⟩
    exact himports l hl hstart
  rw [← withImports_nil ls] at hr
  have hcall := getElem?_insertAll hno hr
  rw [List.nil_append, List.length_nil, Nat.zero_add, countP_isDeclaration, Prod.mk.injEq] at hcall
  obtain ⟨rfl, rfl⟩ := hcall
  exact ⟨rfl, served_withImports _ ls⟩

example : (insertAll ["namespace Game".toList, "public class Door".toList] ["A".toList, "B".toList, "C".toList]).map
    Prod.snd = [true, true, false] := by decide

end EditorScaffold.Merge
