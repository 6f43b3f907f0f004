import FieldBuffers.Text.Unseen

/-!
Texts in quotes for inspection: characters that cannot be seen, or that join the one before them,
are given by number.
-/

namespace FieldBuffers.Text

def inspectChar (c : Char) : List Char :=
  if c == '\x00' then ['\\', '0']
  else if c == '\t' then ['\\', 't']
  else if c == '\r' then ['\\', 'r']
  else if c == '\n' then ['\\', 'n']
  else if c == '"' then ['\\', '"']
  else if c == '\\' then ['\\', '\\']
  else if isUnseen c then ['\\', 'u', '\x7b'] ++ Nat.toDigits 16 c.toNat ++ ['\x7d']
  else [c]

def inspected (s : String) : String := String.ofList ('"' :: s.toList.flatMap inspectChar ++ ['"'])

end FieldBuffers.Text
