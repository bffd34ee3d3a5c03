import SqlWright.Expr.Describe
import SqlWright.Registry
import SqlWright.Text.Blank

/-!
# Expressions as SQL

An expression is compiled by recursion on its structure. The only thing that a node passes down is
the enumeration of a column for a value that is compared with that column. Operands are grouped by
parentheses as they are written and no precedence is worked out; types are not checked.
-/

namespace SqlWright

/-- What the names in an expression refer to. -/
structure Scope where
  registry : Registry
  /-- The types whose rows the expression speaks of. -/
  parameters : List MappedType
  enumMode : EnumMode

namespace Scope

/-- The alias for a type: its own, or that of the first parameter of the same table that has one. -/
def aliasOf (s : Scope) (t : MappedType) : Outcome String :=
  match s.registry.aliasOf? t with
  | some name => .ok name
  | none =>
    match (s.parameters.filter fun p => p.table.sameTable t.table).findSome?
        s.registry.aliasOf? with
    | some name => .ok name
    | none => .error (.unregistered (.type t.name))

/-- A column of a type under its alias. -/
def column (s : Scope) (t : MappedType) (member : String) : Outcome String := do
  let name ← s.aliasOf t
  let c ← t.column member
  return name ++ "." ++ c.quoted

end Scope

namespace Expr

/-! ## Parts that are known when the statement is made -/

/-- A member of a field; only records have members. -/
def fieldOf (f : Field) (name : String) : Outcome Field :=
  match f with
  | .record object =>
    match object.get? name with
    | some g => .ok g
    | none => .error (.unknownMember object.label name)
  | .value _ => .error (.unsupported (.memberOfScalar name))

/-- What a captured record, or a chain of members that starts at one, denotes; `none` for all other
expressions. -/
def captured? : Expr → Option (Outcome Field)
  | .captured object => some (.ok (.record object))
  | .member owner name => (captured? owner).map fun o => o.bind fun f => fieldOf f name
  | _ => none

/-- Whether an expression is a captured record or a chain of members that starts at one. -/
def isCaptured : Expr → Bool
  | .captured _ => true
  | .member owner _ => isCaptured owner
  | _ => false

/-- Whether an expression is a value, so that it may take the enumeration of a column. -/
def isValue : Expr → Bool
  | .constant _ | .fixed _ _ _ => true
  | .member owner _ => isCaptured owner
  | .unary .convert operand => isValue operand
  | _ => false

/-- The enumeration of an expression that is an enumerated column. -/
def enumColumn? : Expr → Option EnumColumn
  | .member (.parameter t) name => (t.table.ofMember? name).bind Column.enumColumn?
  | .unary .convert operand => enumColumn? operand
  | _ => none

/-- The enumeration that an operand takes: only values take one. -/
def hintFor (hint : Option EnumColumn) (operand : Expr) : Option EnumColumn :=
  if operand.isValue then hint else none

/-- The enumeration that the values in a comparison take from a column on either side. -/
def comparisonHint (op : BinaryOp) (left right : Expr) : Option EnumColumn :=
  if op.isComparison then left.enumColumn?.or right.enumColumn? else none

/-! ## Texts of compound expressions -/

/-- Two operands around an operator. Whatever stands before the null literal becomes a null test. -/
def binaryText (op : BinaryOp) (keyword left right : String) : String :=
  let keyword := if right = "NULL" then (if op = .equal then "IS" else "IS NOT") else keyword
  Text.parenthesized (left ++ " " ++ keyword ++ " " ++ right)

/-- An operand under a unary operator. -/
def unaryText (op : UnaryOp) (operand : String) : String :=
  match op with
  | .negate => Text.parenthesized ("-" ++ operand)
  | .not => "NOT " ++ operand
  | .convert => operand

/-- A choice between two texts. -/
def conditionalText (test ifTrue ifFalse : String) : String :=
  "CASE WHEN " ++ Text.grouped test ++ " THEN " ++ ifTrue ++ " ELSE " ++ ifFalse ++ " END"

/-- The test that a value is in a list; no value is in the empty list. -/
def membershipText (value items : String) : String :=
  if items = "" then "(1=0)" else value ++ " IN (" ++ items ++ ")"

/-- One member of a projection, under its name where names are shown. -/
def memberText (named : Bool) (name text : String) : String :=
  if named then text ++ " AS " ++ Text.bracketed name else text

/-- A member of an expression that is no table column: its value if the owner is captured. -/
def memberValue (enumMode : EnumMode) (hint : Option EnumColumn) (owner : Expr) (name : String) :
    Outcome String :=
  match captured? (.member owner name) with
  | some (.ok (.value v)) => .ok (v.literalFor hint enumMode)
  | some (.ok (.record _)) => .error (.unsupported (.capturedMember name))
  | some (.error e) => .error e
  | none =>
    match owner with
    | .member _ _ => .error (.unsupported (.memberOfColumn name))
    | _ => .error (.unregistered (.ownerOf name owner.describe))

/-- The only text of a list; a method that is not known stands for its one operand. -/
def onlyText (method : String) : List String → Outcome String
  | [text] => .ok text
  | _ => .error (.unsupported (.method method))

/-! ## Compilation -/

mutual
/-- The SQL of an expression. A value takes the enumeration `hint`; `named` shows the names of
projected members. -/
def render (s : Scope) (named : Bool) (hint : Option EnumColumn) : Expr → Outcome String
  | .parameter _ => .ok ""
  | .member (.parameter t) name => s.column t name
  | .member owner name => memberValue s.enumMode hint owner name
  | .captured object => .error (.unsupported (.capturedObject object.label))
  | .fixed _ _ value => .ok (value.literalFor hint s.enumMode)
  | .constant value => .ok (value.literalFor hint s.enumMode)
  | .binary op left right =>
    match op.keyword? with
    | none => .error (.unsupported (.binaryOperator op))
    | some keyword => do
      let h := comparisonHint op left right
      let l ← render s named (hintFor h left) left
      let r ← render s named (hintFor h right) right
      return binaryText op keyword l r
  | .unary op operand => do
    let h := if op = .convert then hint else none
    let text ← render s named h operand
    return unaryText op text
  | .conditional test ifTrue ifFalse => do
    let c ← render s named none test
    let a ← render s named none ifTrue
    let b ← render s named none ifFalse
    return conditionalText c a b
  | .projection members => (renderMembers s named members).map (String.intercalate ",")
  | .call method target args =>
    if method = "Contains" then
      match target, args with
      | some collection, [value] => do
        let v ← render s named none value
        let items ← render s named (hintFor value.enumColumn? collection) collection
        return membershipText v items
      | none, [collection, value] => do
        let v ← render s named none value
        let items ← render s named (hintFor value.enumColumn? collection) collection
        return membershipText v items
      | _, _ => .error (.unsupported .containsOperands)
    else
      match Aggregate.ofName? method with
      | some a =>
        match target, args with
        | some operand, _ | none, operand :: _ => do
          let text ← render s named none operand
          return a.keyword ++ Text.parenthesized text
        | none, [] =>
          if a = .count then .ok "COUNT(*)"
          else .error (.unsupported (.aggregateOperand a.name))
      | none =>
        match target with
        | some operand => do
          let first ← render s named none operand
          let rest ← renderAll s named args
          onlyText method (first :: rest)
        | none => do
          let texts ← renderAll s named args
          onlyText method texts

/-- The SQL of several expressions. -/
def renderAll (s : Scope) (named : Bool) : List Expr → Outcome (List String)
  | [] => .ok []
  | e :: rest => do
    let text ← render s named none e
    let texts ← renderAll s named rest
    return text :: texts

/-- The SQL of the members of a projection; members without any text are left out. -/
def renderMembers (s : Scope) (named : Bool) : List (String × Expr) → Outcome (List String)
  | [] => .ok []
  | (name, e) :: rest => do
    let text ← render s named none e
    let texts ← renderMembers s named rest
    return if text = "" then texts else memberText named name text :: texts
end

/-- Compiles an expression; blanks at its ends are cut off. -/
def compile (s : Scope) (named : Bool) (e : Expr) : Outcome String :=
  (render s named none e).map Text.trim

end Expr

end SqlWright
