import EditorScaffold.Text.Basic

/-! # Lines

A text is cut into lines at each newline, and lines are put together again with a newline between
neighbours. Cutting loses nothing (`unlines_lines`). -/

namespace EditorScaffold.Text

/-- The lines of a text; a text that ends in a newline has an empty last line. -/
def lines (t : Text) : List Text := splitAt '\n' t

/-- The lines put together again. -/
def unlines (ls : List Text) : Text := joinWith '\n' ls

theorem lines_ne_nil (t : Text) : lines t ≠ [] := splitAt_ne_nil '\n' t

@[simp] theorem unlines_lines (t : Text) : unlines (lines t) = t := joinWith_splitAt '\n' t

theorem lines_of_notMem {l : Text} (h : '\n' ∉ l) : lines l = [l] := splitAt_of_notMem h

/-- The lines before a newline and those after it do not depend on each other. -/
theorem lines_append_newline (s t : Text) : lines (s ++ '\n' :: t) = lines s ++ lines t :=
  splitAt_append_cons '\n' s t

theorem unlines_cons {ls : List Text} (l : Text) (hne : ls ≠ []) :
    unlines (l :: ls) = l ++ '\n' :: unlines ls := joinWith_cons l hne

theorem newline_notMem_of_mem_lines {t l : Text} (h : l ∈ lines t) : '\n' ∉ l :=
  notMem_of_mem_splitAt h

/-- The first line, without the newline that ends it or a return right before that newline. -/
def firstLine : Text → Text
  | [] => []
  | '\n' :: _ => []
  | '\r' :: '\n' :: _ => []
  | c :: cs => c :: firstLine cs

end EditorScaffold.Text
