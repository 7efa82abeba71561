import EditorScaffold.Text.Visible

/-! # Quoted texts in messages

A text is shown in a message between double quotes, with quotes and backslashes escaped, so that each
character of it can be seen: those that do not show by themselves are written as their code point. -/

namespace EditorScaffold.Text

/-- The hexadecimal digits of a number, in lower case. -/
def ofNatHex (n : Nat) : Text := Nat.toDigits 16 n

/-- One character as it is shown between quotes. -/
def shownChar (c : Char) : Text :=
  if c = '\x00' then "\\0".toList
  else if c = '\t' then "\\t".toList
  else if c = '\r' then "\\r".toList
  else if c = '\n' then "\\n".toList
  else if c = '\\' ∨ c = '"' then ['\\', c]
  else if isVisible c then [c]
  else "\\u\x7b".toList ++ ofNatHex c.toNat ++ "\x7d".toList

/-- A text as it is shown in a message. -/
def quoted (t : Text) : Text := '"' :: t.flatMap shownChar ++ ['"']

end EditorScaffold.Text
