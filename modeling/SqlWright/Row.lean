import SqlWright.Table
import SqlWright.Record

/-!
# Rows

The values of a record as they stand in a statement: pairs of a column and a literal, in the order
of the columns of the table. A row also makes the condition that finds it again.
-/

namespace SqlWright

/-- A literal for a column. -/
structure ColumnValue where
  column : String
  literal : String
  searchKey : Bool
deriving DecidableEq, Repr, Inhabited

/-- The literals of one row. -/
abbrev Row := List ColumnValue

/-- The literal of one column, taken from the record that belongs to its type. -/
def MappedType.columnValue (t : MappedType) (mode : EnumMode) (item : Record Field) (c : Column) :
    Outcome ColumnValue :=
  match item.get? c.member with
  | some (.value v) => (c.literal mode v).map fun literal => ⟨c.name, literal, c.searchKey⟩
  | some (.record _) => .error (.unsupported (.nestedRecord c.name))
  | none => .error (.missing (.member c.member t.name))

/-- The literals of the chosen columns, in the order of the table. The first column that has none
decides the error. -/
def MappedType.row (t : MappedType) (mode : EnumMode) (chosen : Column → Bool)
    (item : Record Field) : Outcome Row :=
  (t.table.columns.filter chosen).mapM (t.columnValue mode item)

namespace Row

/-- The literal of a column in a row. -/
def literal? (row : Row) (column : String) : Option String :=
  (row.find? fun v => v.column == column).map (·.literal)

/-- Sets a column of a row. Earlier values of the column are dropped and the new one stands last. -/
def set (row : Row) (v : ColumnValue) : Row :=
  row.filter (fun w => w.column != v.column) ++ [v]

/-- The columns of a row with their literals. -/
def pairs (row : Row) : List (String × String) :=
  row.map fun v => (v.column, v.literal)

end Row

/-- The test that a column has a value; `NULL` is tested by `IS NULL`. -/
def keyTest (column literal : String) : String :=
  if literal = "NULL" then Text.bracketed column ++ " IS NULL"
  else Text.bracketed column ++ "=" ++ literal

/-- The condition that all key columns have their values, in one pair of parentheses. -/
def keyCondition (keys : List (String × String)) : String :=
  Text.parenthesized (String.intercalate " AND " (keys.map fun (column, literal) =>
    keyTest column literal))

end SqlWright
