import SqlWright.Text.Hex

/-!
# Globally unique identifiers

A sequence of thirty-two hexadecimal digits, written in five groups. The meaning of the digits,
such as a version field, is not looked at.
-/

namespace SqlWright

/-- A globally unique identifier as its thirty-two digits. -/
structure Guid where
  digits : List (Fin 16)
  length_digits : digits.length = 32
deriving DecidableEq

namespace Guid

/-- The lengths of the written groups. -/
def groups : List Nat := [8, 4, 4, 4, 12]

/-- The digits of the groups, with hyphens between the groups. -/
def grouped : List Nat → List Char → List Char
  | [], cs => cs
  | [_], cs => cs
  | n :: ns, cs => cs.take n ++ '-' :: grouped ns (cs.drop n)

/-- The written form, in lower case. -/
def text (g : Guid) : String :=
  String.ofList (grouped groups (g.digits.map fun d => Text.lowerHexDigit d.val))

/-- A hexadecimal digit in either case. -/
def digit? (c : Char) : Option (Fin 16) := do
  let n ← Text.hexValue? c
  if h : n < 16 then some ⟨n, h⟩ else none

/-- The digits of a written form; `none` if a hyphen is missing or a character is no digit. -/
def ungrouped? : List Nat → List Char → Option (List (Fin 16))
  | [], [] => some []
  | [], _ => none
  | [n], cs => if cs.length = n then cs.mapM digit? else none
  | n :: ns, cs => do
    let first ← (cs.take n).mapM digit?
    match cs.drop n with
    | '-' :: rest => return first ++ (← ungrouped? ns rest)
    | _ => none

/-- Reads a written form in either case. -/
def ofText? (s : String) : Option Guid := do
  let digits ← ungrouped? groups s.toList
  if h : digits.length = 32 then some ⟨digits, h⟩ else none

end Guid

end SqlWright
