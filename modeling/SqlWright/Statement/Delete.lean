import SqlWright.Clause.Conditions
import SqlWright.Identifier
import SqlWright.Statement.Draft

/-!
# DELETE

Statements that take rows out of a table. Without a condition a statement is refused unless the
deletion of all rows was allowed before.
-/

namespace SqlWright

/-- A DELETE statement in the making. -/
structure Delete where
  draft : Draft
  table : Option String
  conditions : Conditions
  top : Option Top
  hints : Hints
  allowsAll : Bool

namespace Delete

/-- A statement before the first call. -/
def new (settings : Settings) : Delete :=
  { draft := .new .delete settings
    table := none
    conditions := []
    top := none
    hints := .empty
    allowsAll := false }

/-- Makes the table of a type the one that rows are taken from. -/
def target (s : Delete) (t : MappedType) : Delete :=
  { s with draft := s.draft.mention t true }

/-- A statement on the table of a type. -/
def ofType (settings : Settings) (t : MappedType) : Delete :=
  (new settings).target t

/-- A statement on a named table. -/
def ofTable (settings : Settings) (name : TableName) : Delete :=
  let s := new settings
  let (draft, table) := s.draft.accept (name.text.map some) s.table
  { s with draft, table }

/-- Limits the number or the share of rows. -/
def limit (s : Delete) (top : Top) : Delete :=
  { s with top := some top }

/-- Adds hints for the table. -/
def addHints (s : Delete) (hints : List Hint) : Delete :=
  { s with hints := s.hints.insertAll hints }

/-- Allows the statement to have no condition. -/
def allowAll (s : Delete) : Delete :=
  { s with allowsAll := true }

/-- Adds a condition on a type. -/
def addCondition (s : Delete) (t : MappedType) (condition : Expr) (op : Connective) : Delete :=
  let (draft, conditions) := s.draft.acceptWith
    (s.conditions.add s.draft.settings s.draft.registry t condition op) s.conditions
  { s with draft, conditions }

/-- Adds a condition given as text. -/
def addConditionRaw (s : Delete) (condition : String) (op : Connective) : Delete :=
  { s with conditions := s.conditions.addRaw condition op }

/-- The condition that finds the row of an item: its search keys that take part in deletes. -/
def itemCondition (settings : Settings) (t : MappedType) (item : Record Field) :
    Outcome String := do
  let row ← t.row settings.enumMode (fun c => c.searchKey && c.inclusion.delete) item
  if row.isEmpty then .error (.misuse (.noSearchKey t.name)) else .ok (keyCondition row.pairs)

/-- Adds the condition that finds the row of an item. The type is not mentioned by that. -/
def addItem (s : Delete) (t : MappedType) (item : Record Field) (op : Connective) : Delete :=
  let (draft, conditions) := s.draft.accept
    ((itemCondition s.draft.settings t item).map fun text => s.conditions.addRaw text op)
    s.conditions
  { s with draft, conditions }

/-! ## The finished statement -/

/-- The table that rows are taken from. -/
def targetText (s : Delete) : Outcome String :=
  match s.draft.registry.primary?, s.table with
  | some primary, _ => .ok primary.tableWithAlias
  | none, some table =>
    if s.draft.registry.isEmpty then .ok table else .error (.misuse .typedDeleteFilter)
  | none, none => .error .noPrimaryTable

/-- The text of a statement. -/
def text (s : Delete) : Outcome String := do
  let target ← s.targetText
  if s.conditions.isEmpty && !s.allowsAll then .error (.misuse .unfilteredDelete)
  else
    return "DELETE " ++
      (match s.top with
        | none => ""
        | some top => top.groupedText) ++
      "FROM " ++ target ++ s.hints.suffixed ++
      (if s.conditions.isEmpty then "" else " WHERE " ++ s.conditions.text) ++ ";"

/-- The finished statement. -/
def build (s : Delete) : Outcome String :=
  s.draft.finish s.text

/-! ## Calls as data -/

/-- A call on a DELETE statement. -/
inductive Step where
  | target (t : MappedType)
  | limit (top : Top)
  | addHints (hints : List Hint)
  | allowAll
  | addCondition (t : MappedType) (condition : Expr) (op : Connective)
  | addConditionRaw (condition : String) (op : Connective)
  | addItem (t : MappedType) (item : Record Field) (op : Connective)

/-- The statement after a call. -/
def step (s : Delete) : Step → Delete
  | .target t => s.target t
  | .limit top => s.limit top
  | .addHints hints => s.addHints hints
  | .allowAll => s.allowAll
  | .addCondition t condition op => s.addCondition t condition op
  | .addConditionRaw condition op => s.addConditionRaw condition op
  | .addItem t item op => s.addItem t item op

/-- The statement after a chain of calls. -/
def run (s : Delete) (steps : List Step) : Delete :=
  steps.foldl step s

end Delete

end SqlWright
