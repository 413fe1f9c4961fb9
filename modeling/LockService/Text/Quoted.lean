import LockService.Text.Combining
import LockService.Text.Unprintable

/-!
# Texts in diagnostics

A text that is shown to whoever runs the service stands between quotes, and every character in it
that could be overlooked or mistaken is written as an escape: quote and backslash, the control
characters, what is not printable, and marks that would be shown on the character before them.
-/

namespace LockService.Text

/-- The escape of a character by its code. -/
def escapedByCode (c : Char) : List Char :=
  '\\' :: 'u' :: '{' :: (Nat.toDigits 16 c.toNat ++ ['}'])

/-- One character of a text between quotes. -/
def quotedChar (c : Char) : List Char :=
  if c = '\x00' then ['\\', '0']
  else if c = '\t' then ['\\', 't']
  else if c = '\r' then ['\\', 'r']
  else if c = '\n' then ['\\', 'n']
  else if c = '\\' then ['\\', '\\']
  else if c = '"' then ['\\', '"']
  else if isCombining c ∨ isUnprintable c then escapedByCode c
  else [c]

/-- A text between quotes. -/
def quoted (text : String) : String :=
  String.ofList ('"' :: (text.toList.flatMap quotedChar ++ ['"']))

end LockService.Text
