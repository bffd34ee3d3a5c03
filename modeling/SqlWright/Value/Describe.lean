import SqlWright.Value
import SqlWright.Json.Printer

/-!
# Values in diagnostics

The text by which an error message shows a value: the kind of the value with its content in
parentheses. This text is for people and is never part of a statement.
-/

namespace SqlWright

open Decimal

/-- Numbers in diagnostics are positional for leading exponents from -4 to 15 and then end in `.0`
when whole. -/
def diagnosticStyle : Style :=
  { tie := .away, plainFrom := some (-4), plainUpTo := some 15, pointZero := true,
    exponentPlus := false }

/-- A double in a diagnostic. -/
def describeFloat (x : Float) : String :=
  if isNaN x then "NaN"
  else if isFinite x then diagnosticStyle.finite x
  else if signBit x then "-inf" else "inf"

/-- An enumeration with all its variants. -/
def EnumType.describe (t : EnumType) : String :=
  let variants := t.variants.map fun v => "(" ++ Text.escaped v.1 ++ ", " ++ toString v.2 ++ ")"
  "EnumMeta \x7b name: " ++ Text.escaped t.name ++ ", variants: [" ++
    String.intercalate ", " variants ++ "] \x7d"

/-- An enumeration value with its enumeration. -/
def EnumValue.describe (v : EnumValue) : String :=
  "EnumValue \x7b meta: " ++ v.type.describe ++ ", value: " ++ toString v.value ++ " \x7d"

namespace Value

mutual
/-- The text of a value in a diagnostic. -/
def describe : Value → String
  | .null => "Null"
  | .bool b => if b then "Bool(true)" else "Bool(false)"
  | .int n => "Int(" ++ toString n ++ ")"
  | .float x => "Float(" ++ describeFloat x ++ ")"
  | .decimal d => "Decimal(" ++ d.text ++ ")"
  | .string s => "String(" ++ Text.escaped s ++ ")"
  | .guid g => "Guid(" ++ g.text ++ ")"
  | .dateTime t => "DateTime(" ++ t.text ++ ")"
  | .offsetDateTime t => "DateTimeOffset(" ++ t.text ++ ")"
  | .date d => "Date(" ++ d.text ++ ")"
  | .time t => "Time(" ++ t.text ++ ")"
  | .binary bytes =>
    "Binary([" ++ String.intercalate ", " (bytes.map fun b => toString b.toNat) ++ "])"
  | .json j => "Json(" ++ j.describe ++ ")"
  | .enumerated e => "Enum(" ++ e.describe ++ ")"
  | .list items => "List([" ++ String.intercalate ", " (describeItems items) ++ "])"

/-- The diagnostic texts of the items of a list. -/
def describeItems : List Value → List String
  | [] => []
  | v :: rest => describe v :: describeItems rest
end

end Value

end SqlWright
