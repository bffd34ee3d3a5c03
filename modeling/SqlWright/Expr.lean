import SqlWright.Operator
import SqlWright.Record
import SqlWright.Table

/-!
# Expressions

Trees that stand for conditions, keys and selected values: columns are members of a parameter whose
type is mapped to a table, values are constants or members of captured records. A tree may hold
constructs that have no SQL form; they are refused when it is compiled.
-/

namespace SqlWright

/-- An expression. -/
inductive Expr where
  /-- A row of a mapped type. -/
  | parameter (t : MappedType)
  /-- A member of what another expression denotes. -/
  | member (owner : Expr) (name : String)
  /-- A record that is known when the statement is made. -/
  | captured (object : Record Field)
  /-- A named value that belongs to no record. -/
  | fixed (owner name : String) (value : Value)
  | constant (value : Value)
  | binary (op : BinaryOp) (left right : Expr)
  | unary (op : UnaryOp) (operand : Expr)
  | conditional (test ifTrue ifFalse : Expr)
  /-- Several named expressions. -/
  | projection (members : List (String × Expr))
  | call (method : String) (target : Option Expr) (args : List Expr)

namespace Expr

instance : Inhabited Expr := ⟨.constant .null⟩

/-- The column of a member of a mapped type. -/
def column (t : MappedType) (name : String) : Expr :=
  .member (.parameter t) name

/-- The null value. -/
def null : Expr := .constant .null

/-- The test that an expression is null. -/
def isNull (e : Expr) : Expr :=
  .binary .equal e null

/-- The test that an expression is not null. -/
def isNotNull (e : Expr) : Expr :=
  .binary .notEqual e null

/-- The test that an expression is among the items of a collection. -/
def isIn (e collection : Expr) : Expr :=
  .call "Contains" (some collection) [e]

/-- The same test with both as arguments. -/
def contains (collection e : Expr) : Expr :=
  .call "Contains" none [collection, e]

/-- Columns of a mapped type, each under the name of its member. -/
def columns (t : MappedType) (names : List String) : Expr :=
  .projection (names.map fun name => (name, column t name))

/-- A method that is applied to an expression and nothing else. -/
def applied (method : String) (e : Expr) : Expr :=
  .call method (some e) []

/-- The count of all rows. -/
def countAll : Expr :=
  .call "Count" none []

end Expr

/-- The functions that make one value of many rows. -/
inductive Aggregate where
  | count
  | sum
  | min
  | max
  | avg
deriving DecidableEq, Repr, Inhabited

namespace Aggregate

/-- The method name of an aggregate in an expression. -/
def name : Aggregate → String
  | .count => "Count"
  | .sum => "Sum"
  | .min => "Min"
  | .max => "Max"
  | .avg => "Avg"

/-- The aggregate that a method name stands for. -/
def ofName? (s : String) : Option Aggregate :=
  [Aggregate.count, .sum, .min, .max, .avg].find? fun a => a.name == s

/-- The keyword of an aggregate in a statement. -/
def keyword : Aggregate → String
  | .count => "COUNT"
  | .sum => "SUM"
  | .min => "MIN"
  | .max => "MAX"
  | .avg => "AVG"

end Aggregate

end SqlWright
