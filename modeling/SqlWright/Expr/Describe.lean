import SqlWright.Expr
import SqlWright.Value.Describe

/-!
# Expressions in diagnostics

The text by which an error message shows an expression: the kind of every node with its parts.
Captured records show their label only. This text is never part of a statement.
-/

namespace SqlWright.Expr

mutual
/-- The text of an expression in a diagnostic. -/
def describe : Expr → String
  | .parameter t => "Parameter(" ++ t.describe ++ ")"
  | .member owner name =>
    "Member \x7b owner: " ++ describe owner ++ ", member: " ++ Text.escaped name ++ " \x7d"
  | .captured object => "Captured(" ++ object.label ++ ")"
  | .fixed owner name value =>
    "Static \x7b owner: " ++ Text.escaped owner ++ ", member: " ++ Text.escaped name ++
      ", value: " ++ value.describe ++ " \x7d"
  | .constant value => "Constant(" ++ value.describe ++ ")"
  | .binary op left right =>
    "Binary \x7b op: " ++ op.name ++ ", left: " ++ describe left ++ ", right: " ++
      describe right ++ " \x7d"
  | .unary op operand =>
    "Unary \x7b op: " ++ op.name ++ ", operand: " ++ describe operand ++ " \x7d"
  | .conditional test ifTrue ifFalse =>
    "Conditional \x7b test: " ++ describe test ++ ", if_true: " ++ describe ifTrue ++
      ", if_false: " ++ describe ifFalse ++ " \x7d"
  | .projection members => "New([" ++ String.intercalate ", " (describeMembers members) ++ "])"
  | .call method target args =>
    "Call \x7b method: " ++ Text.escaped method ++ ", target: " ++ describeTarget target ++
      ", args: [" ++ String.intercalate ", " (describeAll args) ++ "] \x7d"

/-- The text of the target of a call. -/
def describeTarget : Option Expr → String
  | none => "None"
  | some e => "Some(" ++ describe e ++ ")"

/-- The texts of several expressions. -/
def describeAll : List Expr → List String
  | [] => []
  | e :: rest => describe e :: describeAll rest

/-- The texts of the members of a projection. -/
def describeMembers : List (String × Expr) → List String
  | [] => []
  | (name, e) :: rest =>
    ("(" ++ Text.escaped name ++ ", " ++ describe e ++ ")") :: describeMembers rest
end

end SqlWright.Expr
