import EditorScaffold.Json.Reader.Scalar
import EditorScaffold.Json.Tree

/-! # Reading trees

A tree is read with at most so many brackets inside each other; `Json.parse` allows 127 of them. -/

namespace EditorScaffold.Json

/-- How many brackets may be open inside each other. -/
def maxNesting : Nat := 127

namespace Reader

variable {α σ : Type}

/-- Reads a value: one that is not in brackets as a tree, and one in brackets by `inside`, which starts
before the bracket. -/
def valueOr (ofTree : Json → Reader α) (inside : Bracket → Reader α) : Reader α := do
  match ← next? with
  | none => stopPeeked .endOfValue
  | some 'n' => skip 1 *> literal "ull".toList *> ofTree .null
  | some 't' => skip 1 *> literal "rue".toList *> ofTree (.bool true)
  | some 'f' => skip 1 *> literal "alse".toList *> ofTree (.bool false)
  | some '-' => do
    skip 1
    ofTree (.number (← number true))
  | some '"' => do
    skip 1
    ofTree (.string (← string))
  | some '[' => inside .list
  | some '\x7b' => inside .object
  | some c =>
    match digit? c with
    | some _ => do ofTree (.number (← number false))
    | none => stopPeeked .expectedValue

/-- Opens a bracket and reads its inside and its end. `levels` says how many brackets may still be
opened. -/
def bracketed (b : Bracket) (levels : Nat) (inside : Nat → Reader α) : Reader α :=
  match levels with
  | 0 => stopPeeked .tooDeep
  | levels + 1 => skip 1 *> closing b (inside levels)

/-- The items of a list, each by `item`. -/
def items (item : Reader α) : Reader (List α) :=
  loop (fun (read : List α) => do
    if ← nextItem read.isEmpty then return .inl ((← item) :: read)
    else return .inr read.reverse) []

/-- The members of an object: `member` reads the value of a key, from the colon on, into the state. -/
def members (member : σ → Text → Reader σ) (s : σ) : Reader σ :=
  loop (fun (s, first) => do
    if ← nextMember first then
      let key ← string
      return .inl ((← member s key), false)
    else return .inr s) (s, true)

/-- Reads a tree with at most `levels` brackets inside each other. -/
def tree : Nat → Reader Json
  | 0 => valueOr pure fun _ => stopPeeked .tooDeep
  | levels + 1 => valueOr pure fun
    | .list => skip 1 *> closing .list (.array <$> items (tree levels))
    | .object => skip 1 *> closing .object (do
        let ms ← members (fun (ms : List (Text × Json)) key => do
          colon
          return (key, ← tree levels) :: ms) []
        pure (.object ms.reverse))

end Reader

/-- The tree that a text spells. -/
def parse (t : Text) : Except Error Json := (Reader.tree maxNesting).readAll t

end EditorScaffold.Json
