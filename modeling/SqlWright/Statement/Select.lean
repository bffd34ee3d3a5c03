import SqlWright.Clause.Joins
import SqlWright.Clause.Conditions
import SqlWright.Statement.Draft

/-!
# SELECT

Queries. The selected columns are a list without repetition; without any the query selects all. A
query is finished with a semicolon, or without one so that another statement can hold it. Set
operations and common table expressions are not provided for.
-/

namespace SqlWright

/-- The direction of a sort key. -/
inductive Direction where
  | ascending
  | descending
deriving DecidableEq, Repr, Inhabited

/-- The keyword of a direction. -/
def Direction.keyword : Direction → String
  | .ascending => "ASC"
  | .descending => "DESC"

/-- How the rows of a query are grouped. -/
inductive Grouping where
  | keys (keys : List Expr)
  | rollup (keys : List Expr)
  | cube (keys : List Expr)
  | sets (sets : List (List Expr))
  /-- All rows make one group. -/
  | total

/-- The texts of some keys with commas between them. A key without any text is refused. -/
def Draft.keysText (d : Draft) (t : MappedType) (keys : List Expr) : Outcome String := do
  let texts ← keys.mapM fun key => do
    let text ← d.compile t false key
    if text = "" then .error (.misuse .emptyGroupingKey) else .ok text
  return String.intercalate "," texts

/-- The text of a grouping. Plain keys must not be missing altogether. -/
def Draft.groupingText (d : Draft) (t : MappedType) : Grouping → Outcome String
  | .keys keys => if keys.isEmpty then .error (.misuse .noGroupingKey) else d.keysText t keys
  | .rollup keys => (d.keysText t keys).map fun text => "ROLLUP (" ++ text ++ ")"
  | .cube keys => (d.keysText t keys).map fun text => "CUBE (" ++ text ++ ")"
  | .sets sets => do
    let texts ← sets.mapM fun keys => (d.keysText t keys).map Text.parenthesized
    return "GROUPING SETS (" ++ String.intercalate "," texts ++ ")"
  | .total => .ok "()"

/-- A grouping with the condition that groups have to meet. -/
structure GroupClause where
  keys : String
  having : Option String
deriving DecidableEq, Repr

/-- The texts of a grouping and of the condition on its groups. -/
def Draft.groupClause (d : Draft) (t : MappedType) (g : Grouping) (having : Option Expr) :
    Outcome GroupClause := do
  let keys ← d.groupingText t g
  match having with
  | none => return ⟨keys, none⟩
  | some condition => return ⟨keys, some (← d.compile t false condition)⟩

/-- A query in the making. -/
structure Select where
  draft : Draft
  columns : List String
  distinct : Bool
  top : Option Top
  hints : Hints
  destination : Option String
  joins : Joins
  conditions : Conditions
  group : Option GroupClause
  order : List String

namespace Select

/-- A query before the first call. -/
def new (settings : Settings) : Select :=
  { draft := .new .select settings
    columns := []
    distinct := false
    top := none
    hints := .empty
    destination := none
    joins := []
    conditions := []
    group := none
    order := [] }

/-- Makes a type the one that is queried. -/
def fromType (q : Select) (t : MappedType) : Select :=
  { q with draft := q.draft.mention t true }

/-- A query of a type. -/
def ofType (settings : Settings) (t : MappedType) : Select :=
  (new settings).fromType t

/-- Mentions a type that a clause speaks of. -/
def mention (q : Select) (t : MappedType) : Select :=
  { q with draft := q.draft.mention t false }

/-- Records an error. -/
def reject (q : Select) (e : Error) : Select :=
  { q with draft := q.draft.reject e }

/-! ## Selected columns -/

/-- Adds a selected column unless it is there already. -/
def addColumn (q : Select) (text : String) : Select :=
  if q.columns.contains text then q else { q with columns := q.columns ++ [text] }

/-- Adds several selected columns. -/
def addColumns (q : Select) (texts : List String) : Select :=
  texts.foldl addColumn q

/-- Selects all columns of a type. -/
def selectAll (q : Select) (t : MappedType) : Select :=
  (q.mention t).addColumns (q.draft.registry.entry t false).qualifiedColumns

/-- Selects one expression on a type that is mentioned already; one without any text is left out. -/
def selectItem (q : Select) (t : MappedType) (e : Expr) : Select :=
  match q.draft.compile t true e with
  | .ok text => if text = "" then q else q.addColumn text
  | .error fault => q.reject fault

/-- Selects expressions on a type. One that fails does not keep the others out. -/
def selectItems (q : Select) (t : MappedType) (items : List Expr) : Select :=
  items.foldl (fun q e => q.selectItem t e) (q.mention t)

/-- Selects all columns of all types that are mentioned so far. -/
def selectEvery (q : Select) : Select :=
  q.addColumns q.draft.registry.qualifiedColumns

/-- Leaves out repeated rows. -/
def selectDistinct (q : Select) : Select :=
  { q with distinct := true }

/-- Limits the number or the share of rows. -/
def limit (q : Select) (top : Top) : Select :=
  { q with top := some top }

/-- Adds hints for the queried table. -/
def addHints (q : Select) (hints : List Hint) : Select :=
  { q with hints := q.hints.insertAll hints }

/-- Puts the rows into a new table with the name of a mapped one, which is not mentioned by that. -/
def intoType (q : Select) (t : MappedType) : Select :=
  { q with destination := some (t.table.qualifiedName q.draft.settings.defaultSchema) }

/-- Puts the rows into a new named table. -/
def intoTable (q : Select) (name : TableName) : Select :=
  let (draft, destination) := q.draft.accept (name.text.map some) q.destination
  { q with draft, destination }

/-! ## Other clauses -/

/-- Joins a type on a condition. -/
def join (q : Select) (left right : MappedType) (condition : Expr) (kind : JoinKind) : Select :=
  let (draft, joins) := q.draft.acceptWith
    (q.joins.add q.draft.settings q.draft.registry left right condition kind) q.joins
  { q with draft, joins }

/-- Joins a type without a condition. -/
def crossJoin (q : Select) (left right : MappedType) : Select :=
  let (draft, joins) := q.draft.acceptWith
    (q.joins.addCross q.draft.settings q.draft.registry left right) q.joins
  { q with draft, joins }

/-- Joins a named table on a condition given as text. -/
def joinRaw (q : Select) (table : TableName) (condition : String) (kind : JoinKind) : Select :=
  let (draft, joins) := q.draft.accept
    (q.joins.addRaw q.draft.settings table condition kind) q.joins
  { q with draft, joins }

/-- Adds a condition on a type. -/
def addCondition (q : Select) (t : MappedType) (condition : Expr) (op : Connective) : Select :=
  let (draft, conditions) := q.draft.acceptWith
    (q.conditions.add q.draft.settings q.draft.registry t condition op) q.conditions
  { q with draft, conditions }

/-- Adds a condition given as text. -/
def addConditionRaw (q : Select) (condition : String) (op : Connective) : Select :=
  { q with conditions := q.conditions.addRaw condition op }

/-- Groups the rows by expressions on a type. A query has at most one grouping; a second one is
refused before its type is mentioned. -/
def groupBy (q : Select) (t : MappedType) (g : Grouping) (having : Option Expr) : Select :=
  if q.group.isSome then q.reject (.misuse .repeatedGrouping)
  else
    let q := q.mention t
    let (draft, group) := q.draft.accept ((q.draft.groupClause t g having).map some) q.group
    { q with draft, group }

/-- Adds a sort key on a type; one without any text is refused. -/
def orderBy (q : Select) (t : MappedType) (key : Expr) (direction : Direction) : Select :=
  let q := q.mention t
  let text : Outcome String := do
    let text ← q.draft.compile t false key
    if text = "" then .error (.misuse .emptySortKey) else .ok (text ++ " " ++ direction.keyword)
  let (draft, order) := q.draft.accept (text.map fun key => q.order ++ [key]) q.order
  { q with draft, order }

/-! ## The finished query -/

/-- The text of the selected columns. -/
def columnsText (q : Select) : String :=
  if q.columns.isEmpty then "*" else String.intercalate "," q.columns

/-- The clauses after the queried table. -/
def clausesText (q : Select) : String :=
  (if q.joins.isEmpty then "" else " " ++ q.joins.text) ++
    (if q.conditions.isEmpty then "" else " WHERE " ++ q.conditions.text) ++
    (match q.group with
      | none => ""
      | some g =>
        " GROUP BY " ++ g.keys ++
          (match g.having with
            | none => ""
            | some condition => " HAVING " ++ condition)) ++
    (if q.order.isEmpty then "" else " ORDER BY " ++ String.intercalate "," q.order)

/-- The text of a query on its primary table. -/
def text (q : Select) (primary : Entry) : String :=
  "SELECT " ++ (if q.distinct then "DISTINCT " else "") ++
    (match q.top with
      | none => ""
      | some top => top.bareText) ++
    q.columnsText ++
    (match q.destination with
      | none => ""
      | some name => " INTO " ++ name) ++
    " FROM " ++ primary.tableWithAlias ++ q.hints.suffixed ++ q.clausesText

/-- The query without a semicolon, as another statement holds it. -/
def subquery (q : Select) : Outcome String :=
  q.draft.finish
    (match q.draft.registry.primary? with
      | none => .error .noPrimaryTable
      | some primary => .ok (q.text primary))

/-- The finished query. -/
def build (q : Select) : Outcome String :=
  q.subquery.map fun text => text ++ ";"

/-! ## Calls as data -/

/-- A call on a query. -/
inductive Step where
  | fromType (t : MappedType)
  | selectAll (t : MappedType)
  | selectItems (t : MappedType) (items : List Expr)
  | selectEvery
  | selectDistinct
  | limit (top : Top)
  | addHints (hints : List Hint)
  | intoType (t : MappedType)
  | intoTable (name : TableName)
  | join (left right : MappedType) (condition : Expr) (kind : JoinKind)
  | crossJoin (left right : MappedType)
  | joinRaw (table : TableName) (condition : String) (kind : JoinKind)
  | addCondition (t : MappedType) (condition : Expr) (op : Connective)
  | addConditionRaw (condition : String) (op : Connective)
  | groupBy (t : MappedType) (g : Grouping) (having : Option Expr)
  | orderBy (t : MappedType) (key : Expr) (direction : Direction)

/-- The query after a call. -/
def step (q : Select) : Step → Select
  | .fromType t => q.fromType t
  | .selectAll t => q.selectAll t
  | .selectItems t items => q.selectItems t items
  | .selectEvery => q.selectEvery
  | .selectDistinct => q.selectDistinct
  | .limit top => q.limit top
  | .addHints hints => q.addHints hints
  | .intoType t => q.intoType t
  | .intoTable name => q.intoTable name
  | .join left right condition kind => q.join left right condition kind
  | .crossJoin left right => q.crossJoin left right
  | .joinRaw table condition kind => q.joinRaw table condition kind
  | .addCondition t condition op => q.addCondition t condition op
  | .addConditionRaw condition op => q.addConditionRaw condition op
  | .groupBy t g having => q.groupBy t g having
  | .orderBy t key direction => q.orderBy t key direction

/-- The query after a chain of calls. -/
def run (q : Select) (steps : List Step) : Select :=
  steps.foldl step q

end Select

end SqlWright
