import SqlWright.Statement.Select

/-!
# MERGE

Statements that bring a table in line with a source: for each row of the source one of several
actions, chosen by whether the row has a match. Actions are made beforehand; an action that is made
from an item can fail, and then there is no action to add. The settings of a statement do not reach
into its actions.
-/

namespace SqlWright

/-- What is done with a row. -/
inductive MergeAction where
  /-- Assigns columns, each with the text of its new value. -/
  | update (assignments : List (String × String))
  | insert (columns values : List String)
  | delete
  | raw (sql : String)
deriving DecidableEq, Repr

namespace MergeAction

/-- The mode of enumeration values in actions. -/
def enumMode : EnumMode := .asInt

/-- Assigns values to columns. -/
def ofValues (values : List (String × Value)) : MergeAction :=
  .update (values.map fun (name, v) => (name, v.literal enumMode))

/-- The columns that an updating action assigns. -/
def assigns (c : Column) : Bool :=
  c.inclusion.update && !c.searchKey

/-- Assigns the values of an item. -/
def updateItem (t : MappedType) (item : Record Field) : Outcome MergeAction :=
  (t.row enumMode assigns item).map fun row => .update row.pairs

/-- Inserts the values of an item. -/
def insertItem (t : MappedType) (item : Record Field) : Outcome MergeAction :=
  (t.row enumMode (fun c => c.inclusion.insert) item).map fun row =>
    .insert (row.map (·.column)) (row.map (·.literal))

/-- A column of the source, which is known by an alias. -/
def sourceColumn (source : String) (c : Column) : String :=
  Text.bracketed source ++ "." ++ c.quoted

/-- Assigns the columns of the source that belong to a type. -/
def updateSource (t : MappedType) (source : String) : MergeAction :=
  .update ((t.table.columns.filter assigns).map fun c => (c.name, sourceColumn source c))

/-- Inserts the columns of the source that belong to a type. -/
def insertSource (t : MappedType) (source : String) : MergeAction :=
  let columns := t.table.columns.filter fun c => c.inclusion.insert
  .insert (columns.map (·.name)) (columns.map (sourceColumn source))

/-- The text of an action. Without columns or without any text there is nothing to do, which is
refused. -/
def text : MergeAction → Outcome String
  | .update assignments =>
    if assignments.isEmpty then .error (.misuse .emptyMergeAction)
    else
      .ok ("UPDATE SET " ++ String.intercalate "," (assignments.map fun (name, value) =>
        Text.bracketed name ++ "=" ++ value))
  | .insert columns values =>
    if columns.isEmpty then .error (.misuse .emptyMergeAction)
    else if columns.length ≠ values.length then
      .error (.columnMismatch 0 columns.length values.length)
    else
      .ok ("INSERT (" ++ String.intercalate "," (columns.map Text.bracketed) ++ ") VALUES (" ++
        String.intercalate "," values ++ ")")
  | .delete => .ok "DELETE"
  | .raw sql =>
    let trimmed := Text.trim sql
    if trimmed = "" then .error (.misuse .emptyMergeAction) else .ok trimmed

end MergeAction

/-- An action with the rows that it is for. -/
structure MergeClause where
  matched : Bool
  condition : Option String
  action : MergeAction
deriving DecidableEq, Repr

namespace MergeClause

/-- What a condition adds to `MATCHED`. Two conditions are keywords that name the side on which the
match is missing; all others are put in parentheses. -/
def conditionText : Option String → String
  | none => ""
  | some condition =>
    if condition = "BY TARGET" ∨ condition = "BY SOURCE" then " " ++ condition
    else " AND (" ++ condition ++ ")"

/-- The text of a clause. -/
def text (c : MergeClause) : Outcome String :=
  c.action.text.map fun action =>
    "WHEN " ++ (if c.matched then "MATCHED" else "NOT MATCHED") ++ conditionText c.condition ++
      " THEN " ++ action

end MergeClause

/-- A MERGE statement in the making. -/
structure Merge where
  draft : Draft
  /-- A target that is named together with its alias. -/
  table : Option (String × String)
  top : Option Top
  hints : Hints
  source : Option String
  clauses : List MergeClause

namespace Merge

/-- A statement before the first call. -/
def new (settings : Settings) : Merge :=
  { draft := .new .merge settings
    table := none
    top := none
    hints := .empty
    source := none
    clauses := [] }

/-- Makes the table of a type the one that is brought in line. -/
def target (s : Merge) (t : MappedType) : Merge :=
  { s with draft := s.draft.mention t true }

/-- A statement on the table of a type. -/
def ofType (settings : Settings) (t : MappedType) : Merge :=
  (new settings).target t

/-- A statement on a named table under an alias. -/
def ofTable (settings : Settings) (name : TableName) (aliasName : String) : Merge :=
  let s := new settings
  let (draft, table) := s.draft.accept (name.text.map fun text => some (text, aliasName)) s.table
  { s with draft, table }

/-- Limits the number of rows. -/
def limit (s : Merge) (top : Top) : Merge :=
  { s with top := some top }

/-- Adds hints for the table. -/
def addHints (s : Merge) (hints : List Hint) : Merge :=
  { s with hints := s.hints.insertAll hints }

/-- The clause that introduces a source under an alias, and the condition of a match. -/
def sourceText (sql aliasName : String) (condition : Option String) : String :=
  "USING (" ++ Text.trim sql ++ ") AS " ++ Text.bracketed aliasName ++
    (match condition with
      | none => ""
      | some c => " ON " ++ Text.grouped c)

/-- Takes a source given as text. -/
def setSource (s : Merge) (sql aliasName : String) (condition : Option String) : Merge :=
  { s with source := some (sourceText sql aliasName condition) }

/-- Takes a query as source. An error of the query becomes one of this statement. -/
def setSourceQuery (s : Merge) (q : Select) (aliasName : String) (condition : Option String) :
    Merge :=
  let (draft, source) := s.draft.accept
    (q.subquery.map fun sql => some (sourceText sql aliasName condition)) s.source
  { s with draft, source }

/-- Adds a clause. -/
def addClause (s : Merge) (c : MergeClause) : Merge :=
  { s with clauses := s.clauses ++ [c] }

/-! ## The finished statement -/

/-- The table that is brought in line, and its alias. -/
def targetNames (s : Merge) : Outcome (String × String) :=
  match s.draft.registry.primary?, s.table with
  | some primary, _ => .ok (primary.qualifiedName, primary.aliasName)
  | none, some named => .ok named
  | none, none => .error .noPrimaryTable

/-- The text of a statement. -/
def text (s : Merge) : Outcome String := do
  let (table, aliasName) ← s.targetNames
  match s.source with
  | none => .error (.misuse .noMergeSource)
  | some source =>
    if s.clauses.isEmpty then .error (.misuse .noMergeClause)
    else
      let clauses ← s.clauses.mapM MergeClause.text
      return "MERGE " ++
        (match s.top with
          | none => ""
          | some top => top.groupedText) ++
        table ++ s.hints.suffixed ++ " AS " ++ Text.bracketed aliasName ++ " " ++
        String.intercalate " " (source :: clauses) ++ ";"

/-- The finished statement. -/
def build (s : Merge) : Outcome String :=
  s.draft.finish s.text

/-! ## Calls as data -/

/-- A call on a MERGE statement. -/
inductive Step where
  | target (t : MappedType)
  | limit (top : Top)
  | addHints (hints : List Hint)
  | setSource (sql aliasName : String) (condition : Option String)
  | setSourceQuery (q : Select) (aliasName : String) (condition : Option String)
  | addClause (c : MergeClause)

/-- The statement after a call. -/
def step (s : Merge) : Step → Merge
  | .target t => s.target t
  | .limit top => s.limit top
  | .addHints hints => s.addHints hints
  | .setSource sql aliasName condition => s.setSource sql aliasName condition
  | .setSourceQuery q aliasName condition => s.setSourceQuery q aliasName condition
  | .addClause c => s.addClause c

/-- The statement after a chain of calls. -/
def run (s : Merge) (steps : List Step) : Merge :=
  steps.foldl step s

end Merge

end SqlWright
