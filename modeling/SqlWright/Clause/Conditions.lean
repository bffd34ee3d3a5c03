import SqlWright.Expr.Compile
import SqlWright.Settings

/-!
# Conditions

The conditions of a `WHERE` clause in the order of the calls that added them, each with the
connective that links it to those before. Every condition starts with a parenthesis. A call that
fails leaves the conditions as they were.
-/

namespace SqlWright

/-- How a condition is linked to the conditions before it. -/
inductive Connective where
  | and
  | or
deriving DecidableEq, Repr, Inhabited

/-- The keyword of a connective. -/
def Connective.keyword : Connective → String
  | .and => "AND"
  | .or => "OR"

/-- The conditions of a statement. -/
abbrev Conditions := List (Connective × String)

namespace Conditions

/-- The text of the conditions after the first. -/
def tailText : Conditions → String
  | [] => ""
  | (op, c) :: rest => " " ++ op.keyword ++ " " ++ c ++ tailText rest

/-- The text of all conditions; the connective of the first is not shown. -/
def text : Conditions → String
  | [] => ""
  | (_, c) :: rest => c ++ tailText rest

/-- Adds a condition given as text, in parentheses unless it starts with one. -/
def addRaw (cs : Conditions) (condition : String) (op : Connective) : Conditions :=
  cs ++ [(op, Text.grouped condition)]

/-- Adds a condition on a mapped type, which is mentioned by that. -/
def add (cs : Conditions) (settings : Settings) (r : Registry) (t : MappedType) (condition : Expr)
    (op : Connective) : Registry × Outcome Conditions :=
  let extended := r.add t false
  (extended, do
    let text ← condition.compile ⟨extended, [t], settings.enumMode⟩ false
    if text = "" then .error (.misuse .emptyCondition) else .ok (cs.addRaw text op))

end Conditions

end SqlWright
