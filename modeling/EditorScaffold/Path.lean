import EditorScaffold.Text.Basic

/-! # Paths

A path is a text whose parts stand between slashes. Repeated slashes and inner dots add nothing, so that
texts which differ in these are the same path (`Same`). The parent of a path keeps the text of the path up to
the part before the last. -/

namespace EditorScaffold.Path

/-- Whether a path starts at the root. -/
def isAbsolute (p : Text) : Bool := p.head? = some '/'

/-- The parts between the slashes, empty ones included. -/
def pieces (p : Text) : List Text := Text.splitAt '/' p

/-- Whether a part adds nothing to a path. -/
def isVoid (piece : Text) : Bool := piece = [] || piece = ['.']

/-- The parts without those at the end that add nothing. -/
def trimEnd (ps : List Text) : List Text := (ps.reverse.dropWhile isVoid).reverse

/-- What a path starts with that counts as a part of its own: the root, or a dot. -/
def lead (p : Text) : Text :=
  match p with
  | '/' :: _ => ['/']
  | ['.'] | '.' :: '/' :: _ => ['.']
  | _ => []

/-- The path without its last part; the root and the empty path have no parent. -/
def parent? (p : Text) : Option Text :=
  let lead := lead p
  match trimEnd (pieces (p.drop lead.length)) with
  | [] => if lead = ['.'] then some [] else none
  | ps => some (lead ++ Text.joinWith '/' (trimEnd ps.dropLast))

/-- The parts that count, `..` among them. -/
def names (p : Text) : List Text := (pieces p).filter (!isVoid ·)

/-- What a path is told by: what it starts with, and the parts that count. -/
def key (p : Text) : Text × List Text := (lead p, names p)

/-- Two texts are the same path: they start in the same way, and the same parts count. -/
def Same (p q : Text) : Prop := key p = key q

instance (p q : Text) : Decidable (Same p q) := inferInstanceAs (Decidable (key p = key q))

/-- A path below a directory; an absolute path stays as it is. -/
def join (dir p : Text) : Text :=
  if isAbsolute p || dir = [] then p
  else if dir.getLast? = some '/' then dir ++ p
  else dir ++ '/' :: p

end EditorScaffold.Path
