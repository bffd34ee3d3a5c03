import SqlWright.Statement.Select

/-!
# INSERT

Statements that put rows into a table: rows of literals, the rows of a query, or one row of defaults.
These three do not mix. Rows are matched with the destination columns by name when the statement is
finished. Columns that a row leaves out are not filled in.
-/

namespace SqlWright

/-- What the inserted rows are made of. -/
inductive InsertSource where
  /-- Rows as pairs of a column and its literal. -/
  | rows (rows : List (List (String × String)))
  | query (sql : String)
  | defaults
deriving DecidableEq, Repr

/-- An INSERT statement in the making. -/
structure Insert where
  draft : Draft
  destination : Option String
  columns : List String
  hints : Hints
  source : Option InsertSource

namespace Insert

/-- A statement before the first call. -/
def new (settings : Settings) : Insert :=
  { draft := .new .insert settings
    destination := none
    columns := []
    hints := .empty
    source := none }

/-- Records an error. -/
def reject (s : Insert) (e : Error) : Insert :=
  { s with draft := s.draft.reject e }

/-- Makes the table of a type the destination. -/
def intoType (s : Insert) (t : MappedType) : Insert :=
  { s with
    draft := s.draft.mention t true
    destination := some (s.draft.registry.entry t true).qualifiedName }

/-- A statement for the table of a type. -/
def ofType (settings : Settings) (t : MappedType) : Insert :=
  (new settings).intoType t

/-- Makes a named table the destination. -/
def intoTable (s : Insert) (name : TableName) : Insert :=
  let (draft, destination) := s.draft.accept (name.text.map some) s.destination
  { s with draft, destination }

/-- Names the destination columns, in place of those named before. -/
def setColumns (s : Insert) (columns : List String) : Insert :=
  { s with columns }

/-- Adds hints for the destination. -/
def addHints (s : Insert) (hints : List Hint) : Insert :=
  { s with hints := s.hints.insertAll hints }

/-! ## What is inserted -/

/-- Adds a row. The first one names the destination columns if nothing else did. -/
def addRow (s : Insert) (row : List (String × String)) : Insert :=
  match s.source with
  | none =>
    { s with
      columns := if s.columns.isEmpty then row.map (·.1) else s.columns
      source := some (.rows [row]) }
  | some (.rows rows) => { s with source := some (.rows (rows ++ [row])) }
  | some _ => s.reject (.misuse .valuesBesideOthers)

/-- Adds a row if there is one, else records the error. -/
def addRowOutcome (s : Insert) : Outcome (List (String × String)) → Insert
  | .ok row => s.addRow row
  | .error e => s.reject e

/-- Adds the row of an item: the columns of its type that take part in inserts. -/
def addItem (s : Insert) (t : MappedType) (item : Record Field) : Insert :=
  s.addRowOutcome
    ((t.row s.draft.settings.enumMode (fun c => c.inclusion.insert) item).map Row.pairs)

/-- Adds the rows of several items. -/
def addItems (s : Insert) (t : MappedType) (items : List (Record Field)) : Insert :=
  items.foldl (fun s item => s.addItem t item) s

/-- Adds a row of values. A column of the primary table applies its policy to its value; the first
value that is refused keeps the whole row out. -/
def addValues (s : Insert) (values : List (String × Value)) : Insert :=
  s.addRowOutcome ((values.mapM fun (name, v) => s.draft.columnValue name v).map Row.pairs)

/-- Inserts one row of defaults. -/
def setDefaults (s : Insert) : Insert :=
  match s.source with
  | none | some .defaults => { s with source := some .defaults }
  | some _ => s.reject (.misuse .defaultsBesideValues)

/-- Inserts the rows of a query given as text. -/
def setQuery (s : Insert) (sql : String) : Insert :=
  match s.source with
  | none => { s with source := some (.query sql) }
  | some _ => s.reject (.misuse .queryBesideValues)

/-- Inserts the rows of a query. An error of the query becomes one of this statement. -/
def fromQuery (s : Insert) (q : Select) : Insert :=
  match q.subquery with
  | .ok sql => s.setQuery sql
  | .error e => s.reject e

/-! ## The finished statement -/

/-- Names in brackets, as a list in parentheses. -/
def columnsText (columns : List String) : String :=
  Text.parenthesized (String.intercalate "," (columns.map Text.bracketed))

/-- The literals of a row in the order of the destination columns. The row must have as many entries
as there are columns, and one for each of them. -/
def rowText (columns : List String) (index : Nat) (row : List (String × String)) :
    Outcome String :=
  if row.length ≠ columns.length then
    .error (.columnMismatch index columns.length row.length)
  else do
    let literals ← columns.mapM fun column =>
      match row.lookup column with
      | some literal => (.ok literal : Outcome String)
      | none => .error (.misuse (.absentColumn index column))
    return Text.parenthesized (String.intercalate "," literals)

/-- The text of rows, counted from zero. -/
def rowsText (columns : List String) (rows : List (List (String × String))) : Outcome String := do
  let texts ← rows.zipIdx.mapM fun (row, index) => rowText columns index row
  return String.intercalate "," texts

/-- What follows the destination and its hints. -/
def sourceText (columns : List String) : Option InsertSource → Outcome String
  | none => .error (.misuse .noInsertSource)
  | some .defaults => .ok " DEFAULT VALUES"
  | some (.query sql) =>
    if columns.isEmpty then .error (.misuse .noInsertColumns)
    else .ok (" " ++ columnsText columns ++ " " ++ sql)
  | some (.rows rows) =>
    if columns.isEmpty then .error (.misuse .noInsertColumns)
    else (rowsText columns rows).map fun text => " " ++ columnsText columns ++ " VALUES " ++ text

/-- The text of a statement on its destination. -/
def text (s : Insert) (destination : String) : Outcome String :=
  (sourceText s.columns s.source).map fun source =>
    "INSERT INTO " ++ destination ++ s.hints.suffixed ++ source ++ ";"

/-- The finished statement. -/
def build (s : Insert) : Outcome String :=
  s.draft.finish
    (match s.destination with
      | none => .error .noPrimaryTable
      | some destination => s.text destination)

/-! ## Calls as data -/

/-- A call on an INSERT statement. -/
inductive Step where
  | intoType (t : MappedType)
  | intoTable (name : TableName)
  | setColumns (columns : List String)
  | addHints (hints : List Hint)
  | addItem (t : MappedType) (item : Record Field)
  | addItems (t : MappedType) (items : List (Record Field))
  | addValues (values : List (String × Value))
  | setDefaults
  | fromQuery (q : Select)
  | setQuery (sql : String)

/-- The statement after a call. -/
def step (s : Insert) : Step → Insert
  | .intoType t => s.intoType t
  | .intoTable name => s.intoTable name
  | .setColumns columns => s.setColumns columns
  | .addHints hints => s.addHints hints
  | .addItem t item => s.addItem t item
  | .addItems t items => s.addItems t items
  | .addValues values => s.addValues values
  | .setDefaults => s.setDefaults
  | .fromQuery q => s.fromQuery q
  | .setQuery sql => s.setQuery sql

/-- The statement after a chain of calls. -/
def run (s : Insert) (steps : List Step) : Insert :=
  steps.foldl step s

end Insert

end SqlWright
