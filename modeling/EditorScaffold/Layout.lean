import EditorScaffold.Text.Basic

/-! # Layouts of source text

Source text is laid out as a tree of lines and braced blocks. A `Writer` walks the tree with a depth and a
buffer; `Layout.flatten` lists the lines of the tree with their depths, whatever the style. The two agree
(`run_eq`): a writer appends the lines of the list, each after its indentation and before a line ending,
and ends at the depth where it began. Texts are as long here as their lines make them; whether there is a
text of that length is asked where a width of indentation comes from outside, of the unit alone and, by the
command, of the whole text. -/

namespace EditorScaffold

/-- How source text is written: the unit of indentation, the line ending, and the symbol that guards an
inserted import. -/
structure Style where
  indentUnit : Text := ['\t']
  lineEnding : Text := ['\n']
  guardSymbol : Text := "UNITY_EDITOR".toList
deriving DecidableEq, Repr

namespace Style

/-- The style with so many spaces as unit of indentation, if there is a text of so many. -/
def withSpaces? (s : Style) (width : Nat) : Option Style :=
  if width ≤ Text.maxByteSize then some { s with indentUnit := List.replicate width ' ' } else none

/-- A line at a depth. -/
def line (s : Style) (depth : Nat) (content : Text) : Text :=
  (List.replicate depth s.indentUnit).flatten ++ content ++ s.lineEnding

/-- Lines at their depths. -/
def text (s : Style) (ls : List (Nat × Text)) : Text := ls.flatMap fun l => s.line l.1 l.2

@[simp] theorem text_nil (s : Style) : s.text [] = [] := rfl

@[simp] theorem text_cons (s : Style) (l : Nat × Text) (ls : List (Nat × Text)) :
    s.text (l :: ls) = s.line l.1 l.2 ++ s.text ls := rfl

@[simp] theorem text_append (s : Style) (ks ls : List (Nat × Text)) :
    s.text (ks ++ ls) = s.text ks ++ s.text ls := by simp [text]

end Style

/-- A piece of source text. -/
inductive Layout where
  | line (content : Text)
  | blank
  | block (header : Text) (body : List Layout)
  | braced (body : List Layout)

namespace Layout

/-! ### Lines and depths -/

mutual

/-- The lines of a piece at a depth. -/
def flatten (depth : Nat) : Layout → List (Nat × Text)
  | line content => [(depth, content)]
  | blank => [(depth, [])]
  | block header body =>
    (depth, header) :: (depth, ['\x7b']) :: flattenAll (depth + 1) body ++ [(depth, ['\x7d'])]
  | braced body => (depth, ['\x7b']) :: flattenAll (depth + 1) body ++ [(depth, ['\x7d'])]

/-- The lines of pieces at a depth. -/
def flattenAll (depth : Nat) : List Layout → List (Nat × Text)
  | [] => []
  | l :: ls => flatten depth l ++ flattenAll depth ls

end

end Layout

/-! ### Writers -/

/-- A writer of source text: its style, the depth it is at, and what it has written. -/
structure Writer where
  style : Style
  depth : Nat := 0
  output : Text := []

namespace Writer

/-- Writes a line. -/
def line (w : Writer) (content : Text) : Writer :=
  { w with output := w.output ++ w.style.line w.depth content }

/-- Writes an opening brace and goes one deeper. -/
def enter (w : Writer) : Writer :=
  let w := w.line ['\x7b']
  { w with depth := w.depth + 1 }

/-- Goes one less deep and writes a closing brace. -/
def leave (w : Writer) : Writer :=
  let w := { w with depth := w.depth - 1 }
  w.line ['\x7d']

mutual

/-- Writes a piece; tells the depths after each piece inside and after the piece itself. -/
def piece (w : Writer) : Layout → Writer × List Nat
  | .line content => let w := w.line content; (w, [w.depth])
  | .blank => let w := w.line []; (w, [w.depth])
  | .block header body =>
    let inside := pieces (w.line header).enter body
    let w := inside.1.leave
    (w, inside.2 ++ [w.depth])
  | .braced body =>
    let inside := pieces w.enter body
    let w := inside.1.leave
    (w, inside.2 ++ [w.depth])

/-- Writes pieces one after the other; tells the depths after each. -/
def pieces (w : Writer) : List Layout → Writer × List Nat
  | [] => (w, [])
  | l :: ls =>
    let first := piece w l
    let rest := pieces first.1 ls
    (rest.1, first.2 ++ rest.2)

end

/-- The writer after it has written the pieces. -/
def run (w : Writer) (ls : List Layout) : Writer := (pieces w ls).1

/-- The writer after it has written lines at their depths, its own depth unchanged. -/
def append (w : Writer) (ls : List (Nat × Text)) : Writer :=
  { w with output := w.output ++ w.style.text ls }

theorem append_append (w : Writer) (ks ls : List (Nat × Text)) :
    (w.append ks).append ls = w.append (ks ++ ls) := by simp [append]

theorem line_eq (w : Writer) (content : Text) : w.line content = w.append [(w.depth, content)] := by
  simp [line, append]

/-- A body between an opening and a closing brace. -/
theorem leave_append_enter (w : Writer) (ls : List (Nat × Text)) :
    (w.enter.append ls).leave = w.append ((w.depth, ['\x7b']) :: ls ++ [(w.depth, ['\x7d'])]) := by
  simp [enter, leave, line, append]

mutual

theorem piece_fst (w : Writer) (l : Layout) : (w.piece l).1 = w.append (l.flatten w.depth) := by
  match l with
  | .line content => exact line_eq w content
  | .blank => exact line_eq w []
  | .block header body =>
    have inside := pieces_fst (w.line header).enter body
    rw [piece, inside, leave_append_enter, line_eq, append_append]
    rfl
  | .braced body =>
    have inside := pieces_fst w.enter body
    rw [piece, inside, leave_append_enter]
    rfl

theorem pieces_fst (w : Writer) (ls : List Layout) :
    (w.pieces ls).1 = w.append (Layout.flattenAll w.depth ls) := by
  match ls with
  | [] => simp [pieces, append, Layout.flattenAll]
  | l :: ls =>
    have rest := pieces_fst (w.piece l).1 ls
    rw [pieces, rest, piece_fst w l, append_append]
    rfl

end

/-- **A writer appends the lines of the pieces**, at the depths that the pieces have below its own, and
ends at the depth where it began. -/
theorem run_eq (w : Writer) (ls : List Layout) :
    w.run ls = w.append (Layout.flattenAll w.depth ls) := pieces_fst w ls

end Writer

/-- The source text of pieces. -/
def Layout.text (style : Style) (ls : List Layout) : Text := (({ style } : Writer).run ls).output

end EditorScaffold
