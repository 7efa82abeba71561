import EditorScaffold.Text.Basic

/-! # Positions

A reader stops after a number of bytes. People are told a line, counted from one, and a column, the number
of bytes read since the last newline; a label in the text is a byte offset again. `Position.after` goes the
one way and `Position.label?` the other: the label marks the last byte read, and never lies outside the
text (`le_of_label?`). -/

namespace EditorScaffold

/-- A place in a text, as people are told it. -/
structure Position where
  line : Nat
  column : Nat
deriving DecidableEq, Repr

namespace Position

/-- The byte that ends a line. -/
def newline : UInt8 := 10

/-- The place of a reader that has read the first `i` bytes. -/
def after (bytes : List UInt8) (i : Nat) : Position where
  line := 1 + (bytes.take i).count newline
  column := ((bytes.take i).reverse.takeWhile (· ≠ newline)).length

/-- The lines of the bytes, each with its newline; there is no empty last line. -/
def pieces : List UInt8 → List (List UInt8)
  | [] => []
  | b :: bs =>
    if b = newline then [b] :: pieces bs
    else match pieces bs with
      | [] => [[b]]
      | p :: ps => (b :: p) :: ps

/-- The byte offset of the label for a place: the byte before the column, or the start of a line where the
column is zero. No line is numbered zero, so that number marks the start of the text. The offset is made
before it is cut to the text, so there is no label where it is not a word. -/
def label? (bytes : List UInt8) (p : Position) : Option Nat :=
  if p.line = 0 then some 0
  else
    let offset := ((pieces bytes).take (p.line - 1)).flatten.length + (p.column - 1)
    if offset < Text.wordBound then some (min offset bytes.length) else none

theorem le_of_label? {bytes : List UInt8} {p : Position} {n : Nat} (h : p.label? bytes = some n) :
    n ≤ bytes.length := by
  unfold label? at h
  split at h
  · cases h
    exact Nat.zero_le _
  · dsimp only at h
    split at h
    · cases h
      exact Nat.min_le_right _ _
    · cases h

end Position

end EditorScaffold
