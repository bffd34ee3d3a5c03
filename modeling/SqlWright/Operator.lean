/-!
# Operators

The binary and unary operators of expression trees. Five binary operators may be built into a tree
but have no SQL keyword here.
-/

namespace SqlWright

/-- A binary operator of an expression tree. -/
inductive BinaryOp where
  | and
  | or
  | equal
  | notEqual
  | greaterThan
  | greaterThanOrEqual
  | lessThan
  | lessThanOrEqual
  | add
  | subtract
  | multiply
  | divide
  | modulo
  | coalesce
  | power
  | exclusiveOr
  | leftShift
  | rightShift
deriving DecidableEq, Repr, Inhabited

namespace BinaryOp

/-- All binary operators, in the order of their declaration. -/
def all : List BinaryOp :=
  [.and, .or, .equal, .notEqual, .greaterThan, .greaterThanOrEqual, .lessThan, .lessThanOrEqual,
    .add, .subtract, .multiply, .divide, .modulo, .coalesce, .power, .exclusiveOr, .leftShift,
    .rightShift]

/-- The name of an operator in diagnostics. -/
def name : BinaryOp → String
  | .and => "And"
  | .or => "Or"
  | .equal => "Equal"
  | .notEqual => "NotEqual"
  | .greaterThan => "GreaterThan"
  | .greaterThanOrEqual => "GreaterThanOrEqual"
  | .lessThan => "LessThan"
  | .lessThanOrEqual => "LessThanOrEqual"
  | .add => "Add"
  | .subtract => "Subtract"
  | .multiply => "Multiply"
  | .divide => "Divide"
  | .modulo => "Modulo"
  | .coalesce => "Coalesce"
  | .power => "Power"
  | .exclusiveOr => "ExclusiveOr"
  | .leftShift => "LeftShift"
  | .rightShift => "RightShift"

/-- The operator with a given name. -/
def ofName? (s : String) : Option BinaryOp :=
  all.find? fun op => op.name == s

/-- Whether an operator compares its operands. -/
def isComparison : BinaryOp → Bool
  | .equal | .notEqual | .greaterThan | .greaterThanOrEqual | .lessThan | .lessThanOrEqual => true
  | _ => false

/-- The SQL keyword of an operator, if it has one. -/
def keyword? : BinaryOp → Option String
  | .and => some "AND"
  | .or => some "OR"
  | .equal => some "="
  | .notEqual => some "<>"
  | .greaterThan => some ">"
  | .greaterThanOrEqual => some ">="
  | .lessThan => some "<"
  | .lessThanOrEqual => some "<="
  | .add => some "+"
  | .subtract => some "-"
  | .multiply => some "*"
  | .divide => some "/"
  | .modulo => some "%"
  | .coalesce | .power | .exclusiveOr | .leftShift | .rightShift => none

end BinaryOp

/-- A unary operator of an expression tree. A conversion leaves its operand as it is. -/
inductive UnaryOp where
  | negate
  | not
  | convert
deriving DecidableEq, Repr, Inhabited

/-- The name of an operator in diagnostics. -/
def UnaryOp.name : UnaryOp → String
  | .negate => "Negate"
  | .not => "Not"
  | .convert => "Convert"

end SqlWright
