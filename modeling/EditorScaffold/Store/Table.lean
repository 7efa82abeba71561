/-! # Tables

A table has at most one value under each key: `put` replaces the value under its key and keeps all
others. -/

namespace EditorScaffold

/-- Values under keys; the first entry of a key counts. -/
abbrev Table (κ α : Type) := List (κ × α)

namespace Table

variable {κ α : Type} [DecidableEq κ]

/-- The value under a key. -/
def get? : Table κ α → κ → Option α
  | [], _ => none
  | (l, a) :: t, k => if l = k then some a else get? t k

/-- The table without a key. -/
def erase : Table κ α → κ → Table κ α
  | [], _ => []
  | (l, a) :: t, k => if l = k then erase t k else (l, a) :: erase t k

/-- The table with a value under a key. -/
def put (t : Table κ α) (k : κ) (a : α) : Table κ α := (k, a) :: erase t k

theorem erase_eq_filter (t : Table κ α) (k : κ) : erase t k = t.filter fun e => ¬ e.1 = k := by
  fun_induction erase t k <;> simp_all

@[simp] theorem get?_erase_self (t : Table κ α) (k : κ) : get? (erase t k) k = none := by
  fun_induction erase t k <;> simp_all [get?]

theorem get?_erase_of_ne {k l : κ} (h : l ≠ k) (t : Table κ α) : get? (erase t k) l = get? t l := by
  fun_induction erase t k <;> simp_all [get?, Ne.symm h]

@[simp] theorem get?_put_self (t : Table κ α) (k : κ) (a : α) : get? (put t k a) k = some a := by
  simp [put, get?]

theorem get?_put_of_ne {k l : κ} (h : l ≠ k) (t : Table κ α) (a : α) :
    get? (put t k a) l = get? t l := by
  simp [put, get?, Ne.symm h, get?_erase_of_ne h]

end Table

end EditorScaffold
