import SqlWright.Json.Value
import SqlWright.Text.Escaped
import SqlWright.Decimal.Style

/-!
# JSON text

The compact form without blanks, and the form shown in diagnostics. Only quotes, backslashes and
control characters below the blank are escaped; all other characters are written as they are.
-/

namespace SqlWright.Json

open Decimal

/-- Numbers are written positionally for leading exponents from -5 to 15 and end in `.0` when whole;
outside that range the exponent carries its sign. A tie goes to the even digit. -/
def numberStyle : Style :=
  { tie := .toEven, plainFrom := some (-5), plainUpTo := some 15, pointZero := true,
    exponentPlus := true }

/-- One character inside a string. -/
def stringChar (c : Char) : List Char :=
  if c = '"' then ['\\', '"']
  else if c = '\\' then ['\\', '\\']
  else if c = '\n' then ['\\', 'n']
  else if c = '\r' then ['\\', 'r']
  else if c = '\t' then ['\\', 't']
  else if c.toNat = 8 then ['\\', 'b']
  else if c.toNat = 12 then ['\\', 'f']
  else if c.toNat < 0x20 then
    ['\\', 'u', '0', '0'] ++ (if c.toNat < 16 then ['0'] else []) ++ Text.lowerHex c.toNat
  else [c]

/-- A string with its quotes. -/
def stringText (s : String) : String :=
  String.ofList ('"' :: (s.toList.flatMap stringChar ++ ['"']))

mutual
/-- The compact text of a value. -/
def text : Json → String
  | .null => "null"
  | .bool b => if b then "true" else "false"
  | .int n => toString n
  | .float x => numberStyle.finite x
  | .string s => stringText s
  | .array items => "[" ++ String.intercalate "," (itemTexts items) ++ "]"
  | .object members => "\x7b" ++ String.intercalate "," (memberTexts members) ++ "\x7d"

/-- The compact texts of the items of an array. -/
def itemTexts : List Json → List String
  | [] => []
  | j :: rest => text j :: itemTexts rest

/-- The compact texts of the members of an object. -/
def memberTexts : List (String × Json) → List String
  | [] => []
  | (name, j) :: rest => (stringText name ++ ":" ++ text j) :: memberTexts rest
end

mutual
/-- The text of a value in a diagnostic, which names the kind of every node. -/
def describe : Json → String
  | .null => "Null"
  | .bool b => if b then "Bool(true)" else "Bool(false)"
  | .int n => "Number(" ++ toString n ++ ")"
  | .float x => "Number(" ++ numberStyle.finite x ++ ")"
  | .string s => "String(" ++ Text.escaped s ++ ")"
  | .array items => "Array [" ++ String.intercalate ", " (describeItems items) ++ "]"
  | .object members =>
    "Object \x7b" ++ String.intercalate ", " (describeMembers members) ++ "\x7d"

/-- The diagnostic texts of the items of an array. -/
def describeItems : List Json → List String
  | [] => []
  | j :: rest => describe j :: describeItems rest

/-- The diagnostic texts of the members of an object. -/
def describeMembers : List (String × Json) → List String
  | [] => []
  | (name, j) :: rest => (Text.escaped name ++ ": " ++ describe j) :: describeMembers rest
end

end SqlWright.Json
