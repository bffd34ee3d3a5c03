import SqlWright.Clause.Conditions
import SqlWright.Identifier
import SqlWright.Statement.Draft

/-!
# UPDATE

Statements that change rows: one for each row of new values. Without conditions of its own a
statement finds its row by the search keys, so no statement is made that changes all rows. Search
keys of the primary table are not assigned.
-/

namespace SqlWright

/-- An UPDATE statement in the making. -/
structure Update where
  draft : Draft
  table : Option String
  rows : List Row
  conditions : Conditions
  top : Option Top
  hints : Hints

namespace Update

/-- A statement before the first call. -/
def new (settings : Settings) : Update :=
  { draft := .new .update settings
    table := none
    rows := []
    conditions := []
    top := none
    hints := .empty }

/-- Makes the table of a type the one that is changed. -/
def target (s : Update) (t : MappedType) : Update :=
  { s with draft := s.draft.mention t true }

/-- A statement on the table of a type. -/
def ofType (settings : Settings) (t : MappedType) : Update :=
  (new settings).target t

/-- A statement on a named table. -/
def ofTable (settings : Settings) (name : TableName) : Update :=
  let s := new settings
  let (draft, table) := s.draft.accept (name.text.map some) s.table
  { s with draft, table }

/-- Limits the number or the share of rows. -/
def limit (s : Update) (top : Top) : Update :=
  { s with top := some top }

/-- Adds hints for the changed table. -/
def addHints (s : Update) (hints : List Hint) : Update :=
  { s with hints := s.hints.insertAll hints }

/-! ## New values -/

/-- Adds the row of an item: its search keys and the columns that take part in updates. -/
def addItem (s : Update) (t : MappedType) (item : Record Field) : Update :=
  let row := t.row s.draft.settings.enumMode (fun c => c.inclusion.update || c.searchKey) item
  let (draft, rows) := s.draft.accept (row.map fun row => s.rows ++ [row]) s.rows
  { s with draft, rows }

/-- Adds the rows of several items. -/
def addItems (s : Update) (t : MappedType) (items : List (Record Field)) : Update :=
  items.foldl (fun s item => s.addItem t item) s

/-- Adds a row of values; the first value that is refused keeps the whole row out. -/
def addValues (s : Update) (values : List (String × Value)) : Update :=
  let row := values.mapM fun (name, v) => s.draft.columnValue name v
  let (draft, rows) := s.draft.accept (row.map fun row => s.rows ++ [row]) s.rows
  { s with draft, rows }

/-- Sets a column in the last row, or in a first row if there is none yet. -/
def setLast (v : ColumnValue) : List Row → List Row
  | [] => [[v]]
  | [row] => [row.set v]
  | row :: more => row :: setLast v more

/-- Sets a column to a value. -/
def setValue (s : Update) (column : String) (value : Value) : Update :=
  let rows := (s.draft.columnValue column value).map fun v => setLast v s.rows
  let (draft, rows) := s.draft.accept rows s.rows
  { s with draft, rows }

/-! ## Conditions -/

/-- Adds a condition on a type. -/
def addCondition (s : Update) (t : MappedType) (condition : Expr) (op : Connective) : Update :=
  let (draft, conditions) := s.draft.acceptWith
    (s.conditions.add s.draft.settings s.draft.registry t condition op) s.conditions
  { s with draft, conditions }

/-- Adds a condition given as text. -/
def addConditionRaw (s : Update) (condition : String) (op : Connective) : Update :=
  { s with conditions := s.conditions.addRaw condition op }

/-! ## The finished statements -/

/-- The text of the limit on rows. -/
def topText (s : Update) : String :=
  match s.top with
  | none => ""
  | some top => top.groupedText

/-- What stands before and after the assignments of every statement. A table of a type is changed
under its alias, which a `FROM` clause introduces. -/
def frame (s : Update) : Outcome (String × String) :=
  match s.draft.registry.primary?, s.table with
  | some primary, _ =>
    .ok ("UPDATE " ++ s.topText ++ Text.bracketed primary.aliasName,
      " FROM " ++ primary.tableWithAlias ++ s.hints.suffixed)
  | none, some table =>
    if s.draft.registry.isEmpty then .ok ("UPDATE " ++ s.topText ++ table ++ s.hints.suffixed, "")
    else .error (.misuse .typedUpdateFilter)
  | none, none => .error .noPrimaryTable

/-- The columns by which a row is found, with their literals: the search keys of the primary table,
or else the values that were taken from search keys. -/
def keys (s : Update) (index : Nat) (row : Row) : Outcome (List (String × String)) :=
  match s.draft.registry.primary? with
  | some primary =>
    primary.type.table.searchKeys.mapM fun key =>
      match row.literal? key.name with
      | some literal => (.ok (key.name, literal) : Outcome (String × String))
      | none => .error (.missing (.searchKey key.name index))
  | none => .ok (Row.pairs (row.filter fun v => v.searchKey))

/-- The condition of the statement for one row. -/
def conditionText (s : Update) (index : Nat) (row : Row) : Outcome String :=
  if s.conditions.isEmpty then do
    let keys ← s.keys index row
    if keys.isEmpty then .error (.misuse .unfilteredUpdate) else .ok (keyCondition keys)
  else .ok s.conditions.text

/-- The assignments of one row: all its values that were not taken from search keys. -/
def assignments (row : Row) : List String :=
  (row.filter fun v => !v.searchKey).map fun v => Text.bracketed v.column ++ "=" ++ v.literal

/-- The statement for one row. -/
def rowText (s : Update) (head tail : String) (index : Nat) (row : Row) : Outcome String :=
  if (assignments row).isEmpty then .error (.misuse (.emptyUpdateRow index))
  else
    (s.conditionText index row).map fun condition =>
      head ++ " SET " ++ String.intercalate "," (assignments row) ++ tail ++ " WHERE " ++
        condition ++ ";"

/-- The statements for all rows, one a line. -/
def text (s : Update) : Outcome String := do
  let (head, tail) ← s.frame
  if s.rows.isEmpty then .error (.misuse .noUpdateValues)
  else
    let texts ← s.rows.zipIdx.mapM fun (row, index) => s.rowText head tail index row
    return String.intercalate "\n" texts

/-- The finished statements. -/
def build (s : Update) : Outcome String :=
  s.draft.finish s.text

/-! ## Calls as data -/

/-- A call on an UPDATE statement. -/
inductive Step where
  | target (t : MappedType)
  | limit (top : Top)
  | addHints (hints : List Hint)
  | addItem (t : MappedType) (item : Record Field)
  | addItems (t : MappedType) (items : List (Record Field))
  | addValues (values : List (String × Value))
  | setValue (column : String) (value : Value)
  | addCondition (t : MappedType) (condition : Expr) (op : Connective)
  | addConditionRaw (condition : String) (op : Connective)

/-- The statement after a call. -/
def step (s : Update) : Step → Update
  | .target t => s.target t
  | .limit top => s.limit top
  | .addHints hints => s.addHints hints
  | .addItem t item => s.addItem t item
  | .addItems t items => s.addItems t items
  | .addValues values => s.addValues values
  | .setValue column value => s.setValue column value
  | .addCondition t condition op => s.addCondition t condition op
  | .addConditionRaw condition op => s.addConditionRaw condition op

/-- The statement after a chain of calls. -/
def run (s : Update) (steps : List Step) : Update :=
  steps.foldl step s

end Update

end SqlWright
