import SqlWright.Text.Unprintable

/-!
# Escaped text for diagnostics

Strings as they are shown inside error messages: between double quotes, with the characters that
would disturb a message written as escapes. A character without a form of its own is written by its
code point.
-/

namespace SqlWright.Text

/-- The digits of a number in base sixteen, in lower case. -/
def lowerHex (n : Nat) : List Char :=
  Nat.toDigits 16 n

/-- One character of an escaped text. -/
def escapedChar (c : Char) : List Char :=
  if c = '"' then ['\\', '"']
  else if c = '\\' then ['\\', '\\']
  else if c = '\n' then ['\\', 'n']
  else if c = '\t' then ['\\', 't']
  else if c = '\r' then ['\\', 'r']
  else if c.toNat = 0 then ['\\', '0']
  else if isUnprintable c then ['\\', 'u', '\x7b'] ++ lowerHex c.toNat ++ ['\x7d']
  else [c]

/-- A string as a diagnostic shows it, double quotes included. -/
def escaped (s : String) : String :=
  String.ofList ('"' :: (s.toList.flatMap escapedChar ++ ['"']))

end SqlWright.Text
