/-!
# Writing JSON

Records are written without blanks and with as few escapes as possible: a quote, a backslash and
the control characters below the space are escaped, everything else stands for itself.  The
control characters that have a letter of their own are written with it, the others by code in
lower-case hexadecimal digits.
-/

namespace LockService.Json

/-- The last two digits of a control character's code. -/
def controlCode (c : Char) : List Char :=
  [Nat.digitChar (c.toNat / 16), Nat.digitChar (c.toNat % 16)]

/-- One character of a quoted text. -/
def writeChar (c : Char) : List Char :=
  if c = '"' then ['\\', '"']
  else if c = '\\' then ['\\', '\\']
  else if c = '\x08' then ['\\', 'b']
  else if c = '\x0c' then ['\\', 'f']
  else if c = '\n' then ['\\', 'n']
  else if c = '\r' then ['\\', 'r']
  else if c = '\t' then ['\\', 't']
  else if c.toNat < 0x20 then '\\' :: 'u' :: '0' :: '0' :: controlCode c
  else [c]

/-- A quoted text. -/
def writeText (text : String) : List Char :=
  '"' :: (text.toList.flatMap writeChar ++ ['"'])

/-- The members of an object whose values are texts, with commas between them. -/
def writeMembers : List (String × String) → List Char
  | [] => []
  | [(name, value)] => writeText name ++ ':' :: writeText value
  | (name, value) :: members =>
    writeText name ++ ':' :: (writeText value ++ ',' :: writeMembers members)

/-- An object whose values are texts. -/
def writeObject (members : List (String × String)) : List Char :=
  '{' :: (writeMembers members ++ ['}'])

end LockService.Json
