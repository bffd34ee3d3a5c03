import SqlWright.Value
import SqlWright.Json.Printer
import SqlWright.Text.Enclosed

/-!
# Literals

The text of a value inside a statement, and the same after coercion to the enumeration of a column.
Every character string is quoted. Times of day and times with an offset have no usable literal: the
server format for them is not available, and a lone apostrophe is written in its place.
-/

namespace SqlWright

open Decimal

/-- Numbers in literals are always positional, without decimals when whole. -/
def literalStyle : Style :=
  { tie := .away, plainFrom := none, plainUpTo := none, pointZero := false, exponentPlus := false }

/-- The literal of a double; a value that is not finite becomes `NULL`. -/
def floatLiteral (x : Float) : String :=
  if isFinite x then literalStyle.finite x else "NULL"

/-- The literal of an enumeration value. A value without a named variant is written as its integer
in either mode. -/
def EnumValue.literal (mode : EnumMode) (v : EnumValue) : String :=
  match mode, v.name? with
  | .asString, some name => Text.quoted name
  | _, _ => toString v.value

namespace Value

mutual
/-- The literal of a value, with enumeration values in the given mode. The literal of a list is
that of its items with commas between them. -/
def literal (mode : EnumMode) : Value → String
  | .null => "NULL"
  | .bool b => if b then "1" else "0"
  | .int n => toString n
  | .float x => floatLiteral x
  | .decimal d => d.text
  | .string s => Text.quoted s
  | .guid g => "'" ++ g.text ++ "'"
  | .dateTime t => "'" ++ t.literalText ++ "'"
  | .offsetDateTime _ => "'"
  | .date d => "'" ++ d.text ++ "'"
  | .time _ => "'"
  | .binary bytes => "0x" ++ String.ofList (Text.upperHexBytes bytes)
  | .json j => Text.quoted j.text
  | .enumerated e => e.literal mode
  | .list items => String.intercalate "," (literals mode items)

/-- The literals of the items of a list. -/
def literals (mode : EnumMode) : List Value → List String
  | [] => []
  | v :: rest => literal mode v :: literals mode rest
end

mutual
/-- The literal of a value that stands in an enumerated column. Integers and the names of variants
become values of that enumeration; values of an enumeration keep their own and take the mode; lists
are coerced item by item; all else is written as it is. -/
def literalAs (column : EnumColumn) : Value → String
  | .int n => EnumValue.literal column.mode ⟨column.type, n⟩
  | .string s =>
    match column.type.valueOf? s with
    | some n => EnumValue.literal column.mode ⟨column.type, n⟩
    | none => literal column.mode (.string s)
  | .list items => String.intercalate "," (literalsAs column items)
  | v => literal column.mode v

/-- The coerced literals of the items of a list. -/
def literalsAs (column : EnumColumn) : List Value → List String
  | [] => []
  | v :: rest => literalAs column v :: literalsAs column rest
end

/-- The literal of a value, coerced if it meets an enumerated column. -/
def literalFor (column : Option EnumColumn) (mode : EnumMode) (v : Value) : String :=
  match column with
  | some c => v.literalAs c
  | none => v.literal mode

end Value

end SqlWright
