import EditorScaffold.Proofs.Layout.Lines

/-! # Depth and braces

The depth of a line is kept by the writer and the braces are plain text, but they agree: if no line of a layout has
a brace in it but those that the layout itself sets, then every line stands as deep as there are braces open before
it, a closing brace one less deep (`nestedFrom_flattenAll`), and all braces are closed at the end
(`balance_flattenAll`). -/

namespace EditorScaffold

/-! ### Open braces -/

/-- How many more braces a text opens than it closes. -/
def Text.balance (t : Text) : Int := t.count '\x7b' - t.count '\x7d'

/-- No brace is in the text. -/
def Text.Unbraced (t : Text) : Prop := '\x7b' ∉ t ∧ '\x7d' ∉ t

namespace Text

@[simp] theorem balance_nil : balance [] = 0 := rfl

@[simp] theorem balance_append (s t : Text) : balance (s ++ t) = balance s + balance t := by
  simp only [balance, List.count_append]
  omega

theorem balance_eq_zero {t : Text} (h : Unbraced t) : balance t = 0 := by
  rw [balance, List.count_eq_zero_of_not_mem h.1, List.count_eq_zero_of_not_mem h.2]
  rfl

theorem Unbraced.ne_close {t : Text} (h : Unbraced t) : t ≠ ['\x7d'] := by
  rintro rfl
  exact h.2 List.mem_cons_self

end Text

open Text

namespace Layout

/-! ### What pieces say -/

mutual

/-- What a piece says on lines of its own, but for the braces that it sets. -/
def contents : Layout → List Text
  | line content => [content]
  | blank => []
  | block header body => header :: contentsAll body
  | braced body => contentsAll body

/-- What pieces say on lines of their own, but for the braces that they set. -/
def contentsAll : List Layout → List Text
  | [] => []
  | l :: ls => contents l ++ contentsAll ls

end

theorem contentsAll_append (ks ls : List Layout) : contentsAll (ks ++ ls) = contentsAll ks ++ contentsAll ls := by
  induction ks with
  | nil => rfl
  | cons k ks ih => rw [List.cons_append, contentsAll, ih, contentsAll, List.append_assoc]

theorem contentsAll_map_line {α : Type} (f : α → Text) (xs : List α) :
    contentsAll (xs.map fun x => .line (f x)) = xs.map f := by
  induction xs with
  | nil => rfl
  | cons x xs ih =>
    rw [List.map_cons, contentsAll, ih]
    rfl

/-! ### Lines that stand as deep as braces are open -/

/-- **The lines are nested**, where so many braces are open before them: each stands as deep as there are open
braces, and one less deep if it closes one. -/
def NestedFrom (b : Int) : List (Nat × Text) → Prop
  | [] => True
  | l :: ls => (l.1 : Int) = b - (if l.2 = ['\x7d'] then 1 else 0) ∧ NestedFrom (b + balance l.2) ls

/-- What lines say, one after the other. -/
def joined (ls : List (Nat × Text)) : Text := ls.flatMap (·.2)

theorem nestedFrom_append {b : Int} {ks ls : List (Nat × Text)} :
    NestedFrom b (ks ++ ls) ↔ NestedFrom b ks ∧ NestedFrom (b + balance (joined ks)) ls := by
  induction ks generalizing b with
  | nil => simp [NestedFrom, joined]
  | cons k ks ih =>
    have hjoined : b + balance k.2 + balance (joined ks) = b + balance (joined (k :: ks)) := by
      rw [joined, joined, List.flatMap_cons, balance_append, Int.add_assoc]
    rw [List.cons_append, NestedFrom, NestedFrom, ih, hjoined, and_assoc]

/-- A brace on a line of its own, or a text without braces. -/
def BraceOrUnbraced (t : Text) : Prop := t = ['\x7b'] ∨ t = ['\x7d'] ∨ Unbraced t

/-- **Closed lines** at a depth: they are nested there, close all braces that they open, and have braces only on
lines of their own. -/
structure Closed (d : Nat) (ls : List (Nat × Text)) : Prop where
  nested : NestedFrom d ls
  balance_eq : balance (joined ls) = 0
  alone : ∀ l ∈ ls, BraceOrUnbraced l.2

namespace Closed

variable {d : Nat} {ks ls : List (Nat × Text)} {t : Text}

theorem nil : Closed d [] := ⟨trivial, rfl, fun _ h => nomatch h⟩

theorem line (h : Unbraced t) : Closed d [(d, t)] where
  nested := by
    rw [NestedFrom, if_neg h.ne_close]
    exact ⟨(Int.sub_zero _).symm, trivial⟩
  balance_eq := by
    rw [joined, List.flatMap_singleton]
    exact balance_eq_zero h
  alone := List.forall_mem_singleton.2 (Or.inr (Or.inr h))

theorem append (hk : Closed d ks) (hl : Closed d ls) : Closed d (ks ++ ls) where
  nested := by
    rw [nestedFrom_append, hk.balance_eq, Int.add_zero]
    exact ⟨hk.nested, hl.nested⟩
  balance_eq := by
    rw [joined, List.flatMap_append, balance_append, ← joined, ← joined, hk.balance_eq, hl.balance_eq]
    rfl
  alone := List.forall_mem_append.2 ⟨hk.alone, hl.alone⟩

theorem braced (h : Closed (d + 1) ls) : Closed d ((d, ['\x7b']) :: ls ++ [(d, ['\x7d'])]) where
  nested := by
    have hopen : balance ['\x7b'] = 1 := rfl
    have hinside : NestedFrom (d + 1 : Int) ls := h.nested
    rw [List.cons_append, NestedFrom, nestedFrom_append, h.balance_eq, hopen]
    refine ⟨rfl, hinside, ?_⟩
    rw [NestedFrom, if_pos rfl]
    exact ⟨by omega, trivial⟩
  balance_eq := by
    rw [joined, List.flatMap_append, balance_append, List.flatMap_cons, balance_append, ← joined, h.balance_eq]
    rfl
  alone := List.forall_mem_append.2
    ⟨List.forall_mem_cons.2 ⟨Or.inl rfl, h.alone⟩, List.forall_mem_singleton.2 (Or.inr (Or.inl rfl))⟩

end Closed

mutual

theorem closed_flatten (d : Nat) (l : Layout) (h : ∀ t ∈ l.contents, Unbraced t) : Closed d (l.flatten d) := by
  match l with
  | .line content => exact Closed.line (h content List.mem_cons_self)
  | .blank => exact Closed.line ⟨List.not_mem_nil, List.not_mem_nil⟩
  | .block header body =>
    obtain ⟨hheader, hbody⟩ := List.forall_mem_cons.1 h
    exact (Closed.line hheader).append (closed_flattenAll (d + 1) body hbody).braced
  | .braced body => exact (closed_flattenAll (d + 1) body h).braced

/-- **The depths of the lines and the braces agree.** -/
theorem closed_flattenAll (d : Nat) (ls : List Layout) (h : ∀ t ∈ contentsAll ls, Unbraced t) :
    Closed d (flattenAll d ls) := by
  match ls with
  | [] => exact Closed.nil
  | l :: ls =>
    obtain ⟨hl, hls⟩ := List.forall_mem_append.1 h
    exact (closed_flatten d l hl).append (closed_flattenAll d ls hls)

end

end Layout

end EditorScaffold
