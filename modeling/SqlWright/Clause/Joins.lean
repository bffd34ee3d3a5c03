import SqlWright.Expr.Compile
import SqlWright.Identifier
import SqlWright.Settings

/-!
# Joins

The joined tables of a statement in the order of the calls that added them. A call that fails leaves
the joins as they were; the registry may then still have the entry of the joined type. Conditions
given as texts are taken as they are.
-/

namespace SqlWright

/-- The kind of a join. -/
inductive JoinKind where
  | inner
  | left
  | right
  | full
  | cross
deriving DecidableEq, Repr, Inhabited

/-- The keywords of a join. -/
def JoinKind.keyword : JoinKind → String
  | .inner => "INNER JOIN"
  | .left => "LEFT JOIN"
  | .right => "RIGHT JOIN"
  | .full => "FULL JOIN"
  | .cross => "CROSS JOIN"

/-- One joined table. -/
structure Join where
  kind : JoinKind
  table : String
  hint : Option Hint
  condition : Option String
deriving DecidableEq, Repr

/-- The text of a join. -/
def Join.text (j : Join) : String :=
  j.kind.keyword ++ " " ++ j.table ++
    (match j.hint with
      | some h => " WITH (" ++ h.keyword ++ ")"
      | none => "") ++
    (match j.condition with
      | some c => " ON " ++ c
      | none => "")

/-- The joins of a statement. -/
abbrev Joins := List Join

namespace Joins

/-- The text of all joins. -/
def text (js : Joins) : String :=
  String.intercalate " " (js.map Join.text)

/-- Joins a mapped type to one that is mentioned already. The condition is compiled with both types
as parameters, the left one first. -/
def add (js : Joins) (settings : Settings) (r : Registry) (left right : MappedType)
    (condition : Expr) (kind : JoinKind) : Registry × Outcome Joins :=
  if kind = .cross then (r, .error (.misuse .crossJoinCondition))
  else
    match r.get? left with
    | none => (r, .error (.unregistered (.type left.name)))
    | some _ =>
      let extended := r.add right false
      let table := (r.entry right false).tableWithAlias
      let compiled := condition.compile ⟨extended, [left, right], settings.enumMode⟩ false
      (extended, compiled.map fun c => js ++ [⟨kind, table, settings.joinHint, some c⟩])

/-- Joins a named table on a condition given as text; a cross join drops the condition. -/
def addRaw (js : Joins) (settings : Settings) (table : TableName) (condition : String)
    (kind : JoinKind) : Outcome Joins :=
  table.text.map fun name =>
    js ++ [⟨kind, name, settings.joinHint, if kind = .cross then none else some condition⟩]

/-- Joins a mapped type without a condition to one that is mentioned already. -/
def addCross (js : Joins) (settings : Settings) (r : Registry) (left right : MappedType) :
    Registry × Outcome Joins :=
  match r.get? left with
  | none => (r, .error (.unregistered (.type left.name)))
  | some _ =>
    let table := (r.entry right false).tableWithAlias
    (r.add right false, .ok (js ++ [⟨.cross, table, settings.joinHint, none⟩]))

end Joins

end SqlWright
