import EditorScaffold.Layout
import EditorScaffold.Text.Lines
import Mathlib.Tactic.Ring

/-! # The lines of laid out text

A style whose line ending is a newline, after a return or not, and whose indentation has no newline in it
(`Style.Regular`) keeps the lines of a layout apart: the lines of the text are those of the layout, each after
its indentation (`Style.lines_text`), and at one depth two lines are alike only if they have the same content
(`Style.bare_inj`). -/

namespace EditorScaffold

open Text

namespace Style

variable {s : Style}

/-- **A regular style** ends lines with a newline, after a return or not, and has none in its indentation. -/
structure Regular (s : Style) : Prop where
  ending : s.lineEnding = ['\n'] ∨ s.lineEnding = ['\r', '\n']
  unit : '\n' ∉ s.indentUnit

/-- The indentation at a depth. -/
def indentation (s : Style) (depth : Nat) : Text := (List.replicate depth s.indentUnit).flatten

theorem forall_mem_indentation {p : Char → Prop} (h : ∀ c ∈ s.indentUnit, p c) (depth : Nat) :
    ∀ c ∈ s.indentation depth, p c := by
  intro c hc
  obtain ⟨unit, hunit, hc⟩ := List.mem_flatten.1 hc
  rw [List.eq_of_mem_replicate hunit] at hc
  exact h c hc

theorem byteSize_indentation (s : Style) (depth : Nat) :
    (s.indentation depth).byteSize = depth * s.indentUnit.byteSize := by
  induction depth with
  | zero => exact (Nat.zero_mul _).symm
  | succ depth ih =>
    rw [indentation, List.replicate_succ, List.flatten_cons, byteSize_append, ← indentation, ih]
    ring

/-- A text is at least as long as the indentation of each of its lines. -/
theorem mul_byteSize_le_text {ls : List (Nat × Text)} {l : Nat × Text} (h : l ∈ ls) :
    l.1 * s.indentUnit.byteSize ≤ (s.text ls).byteSize := by
  obtain ⟨ks, ms, rfl⟩ := List.append_of_mem h
  have hline : (s.line l.1 l.2).byteSize =
      (s.indentation l.1).byteSize + l.2.byteSize + s.lineEnding.byteSize := by
    rw [← byteSize_append, ← byteSize_append]
    rfl
  rw [text_append, text_cons, byteSize_append, byteSize_append, hline, byteSize_indentation]
  omega

/-- A line at its depth, without the newline that ends it. -/
def bare (s : Style) (l : Nat × Text) : Text := s.indentation l.1 ++ l.2 ++ s.lineEnding.dropLast

theorem bare_inj {depth : Nat} {k l : Text} : s.bare (depth, k) = s.bare (depth, l) ↔ k = l := by
  simp [bare]

theorem Regular.mem_dropLast {c : Char} (h : s.Regular) (hc : c ∈ s.lineEnding.dropLast) : c = '\r' := by
  rcases h.ending with he | he
  · simp [he] at hc
  · simpa [he] using hc

theorem Regular.line_eq (h : s.Regular) (depth : Nat) (content : Text) :
    s.line depth content = s.bare (depth, content) ++ ['\n'] := by
  rcases h.ending with he | he <;> simp [Style.line, bare, indentation, he]

theorem Regular.newline_notMem_indentation (h : s.Regular) (depth : Nat) : '\n' ∉ s.indentation depth := by
  intro hc
  have hne : ∀ c ∈ s.indentation depth, c ≠ '\n' :=
    forall_mem_indentation (fun c hc => ne_of_mem_of_not_mem hc h.unit) depth
  exact hne '\n' hc rfl

theorem Regular.newline_notMem_bare (h : s.Regular) {l : Nat × Text} (hl : '\n' ∉ l.2) : '\n' ∉ s.bare l := by
  simp only [bare, List.mem_append, not_or]
  exact ⟨⟨h.newline_notMem_indentation l.1, hl⟩, fun hc => absurd (h.mem_dropLast hc) (by decide)⟩

/-- **The lines of a text are the lines that were laid out**, each after its indentation, and an empty one
after the last newline. -/
theorem Regular.lines_text (h : s.Regular) {ls : List (Nat × Text)} (hls : ∀ l ∈ ls, '\n' ∉ l.2) :
    lines (s.text ls) = ls.map s.bare ++ [[]] := by
  induction ls with
  | nil => rfl
  | cons l ls ih =>
    obtain ⟨hl, hls⟩ := List.forall_mem_cons.1 hls
    rw [text_cons, h.line_eq, List.append_assoc, List.singleton_append, lines_append_newline,
      lines_of_notMem (h.newline_notMem_bare hl), ih hls]
    rfl

end Style

/-! ### Lines of several pieces -/

namespace Layout

/-- The text of pieces is their lines in the style. -/
theorem text_eq (style : Style) (ls : List Layout) : text style ls = style.text (flattenAll 0 ls) := by
  unfold text
  rw [Writer.run_eq]
  rfl

theorem flattenAll_append (depth : Nat) (ks ls : List Layout) :
    flattenAll depth (ks ++ ls) = flattenAll depth ks ++ flattenAll depth ls := by
  induction ks with
  | nil => rfl
  | cons k ks ih => rw [List.cons_append, flattenAll, ih, flattenAll, List.append_assoc]

theorem flattenAll_cons_line (depth : Nat) (content : Text) (ls : List Layout) :
    flattenAll depth (.line content :: ls) = (depth, content) :: flattenAll depth ls := rfl

theorem flattenAll_map_line {α : Type} (depth : Nat) (f : α → Text) (xs : List α) :
    flattenAll depth (xs.map fun x => .line (f x)) = xs.map fun x => (depth, f x) := by
  induction xs with
  | nil => rfl
  | cons x xs ih => rw [List.map_cons, flattenAll_cons_line, ih, List.map_cons]

end Layout

end EditorScaffold
