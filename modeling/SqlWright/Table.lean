import SqlWright.Error
import SqlWright.Text.Enclosed
import SqlWright.Value.Literal
import SqlWright.Value.Describe

/-!
# Tables

What a statement knows about a table: its name, its schema and its columns, each with the member of
a record type that it belongs to and with a policy for the values that it takes. Data types, sizes
and constraints of columns are not described. Names need not be distinct: a look-up takes the first
column that fits.
-/

namespace SqlWright

/-- The policy of a column for the values that it takes. -/
inductive ColumnKind where
  | plain
  | enumerated (column : EnumColumn)
  | json
deriving DecidableEq, Repr, Inhabited

/-- The kinds of statement in which a column takes part. -/
structure Inclusion where
  insert : Bool
  update : Bool
  delete : Bool
deriving DecidableEq, Repr, Inhabited

/-- Takes part in every statement. -/
def Inclusion.all : Inclusion := ⟨true, true, true⟩

/-- A column of a table and the member of a record type that it belongs to. -/
structure Column where
  member : String
  name : String
  /-- Whether the column is one of those by which a row is found again. -/
  searchKey : Bool
  inclusion : Inclusion
  kind : ColumnKind
deriving DecidableEq, Repr, Inhabited

namespace Column

/-- A column for plain values that takes part in every statement and is no search key. -/
def plain (member name : String) : Column :=
  { member, name, searchKey := false, inclusion := .all, kind := .plain }

/-- The column as a search key. -/
def asKey (c : Column) : Column :=
  { c with searchKey := true }

/-- The column left out of inserts. -/
def skipInsert (c : Column) : Column :=
  { c with inclusion := { c.inclusion with insert := false } }

/-- The column left out of updates. -/
def skipUpdate (c : Column) : Column :=
  { c with inclusion := { c.inclusion with update := false } }

/-- The column left out of deletes. -/
def skipDelete (c : Column) : Column :=
  { c with inclusion := { c.inclusion with delete := false } }

/-- The column for values of an enumeration. -/
def enumerated (c : Column) (type : EnumType) (mode : EnumMode) : Column :=
  { c with kind := .enumerated ⟨type, mode⟩ }

/-- The column for documents. -/
def document (c : Column) : Column :=
  { c with kind := .json }

/-- The name of a column in brackets. -/
def quoted (c : Column) : String :=
  Text.bracketed c.name

/-- The literal of a value in a column. Enumerated columns coerce it; documents and columns for
documents go together, save that texts and the null value may also stand in such a column. -/
def literal (c : Column) (mode : EnumMode) (v : Value) : Outcome String :=
  match c.kind, v with
  | .enumerated e, v => .ok (v.literalAs e)
  | .json, .json _ | .json, .string _ | .json, .null => .ok (v.literal mode)
  | .json, v => .error (.misuse (.jsonColumn c.name v.describe))
  | .plain, .json _ => .error (.misuse (.unmarkedJson c.member))
  | .plain, v => .ok (v.literal mode)

/-- The enumeration of a column, if it has one. -/
def enumColumn? (c : Column) : Option EnumColumn :=
  match c.kind with
  | .enumerated e => some e
  | _ => none

end Column

/-- A table. Without a schema of its own it belongs to the default schema of a statement; the empty
schema stands for none. -/
structure Table where
  name : String
  schema : Option String
  columns : List Column
deriving DecidableEq, Repr, Inhabited

namespace Table

/-- The column that belongs to a member. -/
def ofMember? (t : Table) (member : String) : Option Column :=
  t.columns.find? fun c => c.member == member

/-- The column with a name. -/
def ofName? (t : Table) (name : String) : Option Column :=
  t.columns.find? fun c => c.name == name

/-- The columns by which a row is found again. -/
def searchKeys (t : Table) : List Column :=
  t.columns.filter fun c => c.searchKey

/-- The schema of a table under a default; the empty text stands for no schema. -/
def effectiveSchema (t : Table) (defaultSchema : String) : String :=
  t.schema.getD defaultSchema

/-- The name of a table in brackets, after that of its schema if it has one. -/
def qualifiedName (t : Table) (defaultSchema : String) : String :=
  let schema := t.effectiveSchema defaultSchema
  if schema = "" then Text.bracketed t.name
  else Text.bracketed schema ++ "." ++ Text.bracketed t.name

/-- Whether two descriptions are of one table: their names and their own schemas agree. -/
def sameTable (t other : Table) : Bool :=
  t.name == other.name && t.schema == other.schema

end Table

/-- A record type whose values are rows of a table. Several types may be mapped to one table; they
are told apart by their names. -/
structure MappedType where
  name : String
  table : Table
deriving DecidableEq, Repr, Inhabited

namespace MappedType

/-- The column of a member. -/
def column (t : MappedType) (member : String) : Outcome Column :=
  match t.table.ofMember? member with
  | some c => .ok c
  | none => .error (.unknownMember t.name member)

/-- The text of a type in a diagnostic. -/
def describe (t : MappedType) : String :=
  "TableType(" ++ Text.escaped t.name ++ ")"

end MappedType

end SqlWright
