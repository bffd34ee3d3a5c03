import SqlWright.Operator

/-!
# Errors

Everything that can go wrong while an expression is compiled, a statement is put together or a
delimited text is read. The causes are constructors; their wording is given by `message` alone.
-/

namespace SqlWright

/-- Why a text is no identifier. -/
inductive IdentifierFault where
  | empty
  | nul
  | trailingDot
  | missingDot (found : Char)
  | unclosedBracket
  | emptyBrackets
  | invalidCharacter (found : Char)
  | emptySegment
deriving DecidableEq, Repr

/-- The wording of a fault in an identifier. -/
def IdentifierFault.message : IdentifierFault → String
  | .empty => "Identifier cannot be empty"
  | .nul => "Identifier cannot contain NUL character"
  | .trailingDot => "Trailing '.' in identifier"
  | .missingDot c =>
    "Expected '.' between identifier parts, got '" ++ String.singleton c ++ "'"
  | .unclosedBracket => "Unclosed bracketed identifier"
  | .emptyBrackets => "Empty bracketed identifier"
  | .invalidCharacter c => "Invalid character in identifier: '" ++ String.singleton c ++ "'"
  | .emptySegment => "Empty identifier segment"

/-- What an expression refers to without its being part of the statement. -/
inductive Unregistered where
  | type (name : String)
  /-- The owner of a member is neither a table nor a captured object. -/
  | ownerOf (member owner : String)
deriving DecidableEq, Repr

/-- The wording of an unregistered reference. -/
def Unregistered.message : Unregistered → String
  | .type name => name
  | .ownerOf member owner => "cannot resolve owner of member '" ++ member ++ "': " ++ owner

/-- What has no SQL form. -/
inductive Unsupported where
  | binaryOperator (op : BinaryOp)
  | capturedObject (label : String)
  | capturedMember (member : String)
  | memberOfScalar (member : String)
  | memberOfColumn (member : String)
  | containsOperands
  | aggregateOperand (method : String)
  | method (name : String)
  | nestedRecord (column : String)
  | stated (text : String)
deriving DecidableEq, Repr

/-- The wording of what is not supported. -/
def Unsupported.message : Unsupported → String
  | .binaryOperator op => "Binary operator " ++ op.name
  | .capturedObject label => "Captured object " ++ label ++ " used without a member"
  | .capturedMember name => "Captured member '" ++ name ++ "' is an object, not a value"
  | .memberOfScalar name => "Member '" ++ name ++ "' read from a scalar value"
  | .memberOfColumn name => "Nested member access '" ++ name ++ "' on a table column"
  | .containsOperands => "Contains expects a collection and one value"
  | .aggregateOperand name => name ++ " requires an argument"
  | .method name => "Method call '" ++ name ++ "'"
  | .nestedRecord column => "Nested record in column '" ++ column ++ "'"
  | .stated text => text

/-- How a statement, a column policy or a reader was misused. -/
inductive Misuse where
  | identifier (fault : IdentifierFault)
  | jsonColumn (column value : String)
  | unmarkedJson (member : String)
  | crossJoinCondition
  | emptyCondition
  | repeatedGrouping
  | noGroupingKey
  | emptyGroupingKey
  | emptySortKey
  | defaultsBesideValues
  | queryBesideValues
  | valuesBesideOthers
  | noInsertColumns
  | noInsertSource
  | absentColumn (row : Nat) (column : String)
  | typedUpdateFilter
  | noUpdateValues
  | emptyUpdateRow (row : Nat)
  | unfilteredUpdate
  | typedDeleteFilter
  | unfilteredDelete
  | noSearchKey (type : String)
  | emptyMergeAction
  | noMergeSource
  | noMergeClause
  | pairsWithoutHeader
  | stated (text : String)
deriving DecidableEq, Repr

/-- The wording of a misuse. -/
def Misuse.message : Misuse → String
  | .identifier fault => fault.message
  | .jsonColumn column value => "JSON column '" ++ column ++ "' cannot hold " ++ value
  | .unmarkedJson member =>
    "member '" ++ member ++ "' holds JSON but is not marked as a JSON column"
  | .crossJoinCondition => "CROSS JOIN takes no condition; use add_cross"
  | .emptyCondition => "WHERE condition rendered empty"
  | .repeatedGrouping => "GROUP BY can only be specified once"
  | .noGroupingKey => "GROUP BY needs at least one key"
  | .emptyGroupingKey => "GROUP BY key rendered empty"
  | .emptySortKey => "ORDER BY selector rendered empty"
  | .defaultsBesideValues => "DEFAULT VALUES cannot be combined with other values"
  | .queryBesideValues => "INSERT source query cannot be combined with other values"
  | .valuesBesideOthers => "VALUES cannot be combined with DEFAULT VALUES or a source query"
  | .noInsertColumns => "INSERT has no destination columns"
  | .noInsertSource => "INSERT has no values, source query or DEFAULT VALUES"
  | .absentColumn row column =>
    "row " ++ toString row ++ " has no value for column '" ++ column ++ "'"
  | .typedUpdateFilter =>
    "typed WHERE needs a typed UPDATE target; use for_type::<T>() or where_raw"
  | .noUpdateValues => "UPDATE has no values"
  | .emptyUpdateRow row => "update row " ++ toString row ++ " sets no columns"
  | .unfilteredUpdate => "UPDATE without WHERE needs search key columns"
  | .typedDeleteFilter => "typed WHERE needs a typed DELETE target; use from::<T>() or where_raw"
  | .unfilteredDelete => "DELETE without WHERE; call allow_delete_all() to delete every row"
  | .noSearchKey type => "'" ++ type ++ "' has no search key columns"
  | .emptyMergeAction => "MERGE action renders empty"
  | .noMergeSource => "MERGE has no USING source"
  | .noMergeClause => "MERGE has no WHEN clauses"
  | .pairsWithoutHeader => "read_pairs requires a header record"
  | .stated text => text

/-- A value that a row or a record should hold and does not. -/
inductive Missing where
  | member (member type : String)
  | searchKey (column : String) (row : Nat)
  | stated (text : String)
deriving DecidableEq, Repr

/-- The wording of a missing value. -/
def Missing.message : Missing → String
  | .member name type => "member '" ++ name ++ "' of '" ++ type ++ "'"
  | .searchKey column row => "search key '" ++ column ++ "' in update row " ++ toString row
  | .stated text => text

/-- Why a delimited text cannot be read on. -/
inductive Malformed where
  | unterminatedQuote
  | afterQuote (found : Char)
  | stated (text : String)
deriving DecidableEq, Repr

/-- The wording of a malformed text. -/
def Malformed.message : Malformed → String
  | .unterminatedQuote => "unterminated quoted field"
  | .afterQuote c => "unexpected '" ++ String.singleton c ++ "' after closing quote"
  | .stated text => text

/-- Why an input cannot be read at all. -/
inductive Unreadable where
  | notUtf8
  | stated (text : String)
deriving DecidableEq, Repr

/-- The wording of an unreadable input. -/
def Unreadable.message : Unreadable → String
  | .notUtf8 => "stream did not contain valid UTF-8"
  | .stated text => text

/-- An error of this library. -/
inductive Error where
  /-- The statement has no primary table. -/
  | noPrimaryTable
  /-- An expression refers to something outside the statement. -/
  | unregistered (reference : Unregistered)
  /-- A type or a record has no such member. -/
  | unknownMember (owner member : String)
  /-- A construct has no SQL form. -/
  | unsupported (feature : Unsupported)
  /-- The library was called in a way that makes no statement. -/
  | misuse (cause : Misuse)
  /-- A row has another number of columns than the list it belongs to. -/
  | columnMismatch (row expected found : Nat)
  /-- A value is missing. -/
  | missing (value : Missing)
  /-- A delimited text is malformed on a line. -/
  | malformed (line : Nat) (fault : Malformed)
  /-- An input cannot be read. -/
  | unreadable (fault : Unreadable)
  /-- A JSON text does not describe the value that is read from it. -/
  | unserializable (text : String)
deriving DecidableEq, Repr

namespace Error

/-- The text of an error. -/
def message : Error → String
  | .noPrimaryTable => "No primary table registered for this statement"
  | .unregistered reference =>
    "Type '" ++ reference.message ++ "' is not registered in this statement"
  | .unknownMember owner member => "Unknown member '" ++ member ++ "' on '" ++ owner ++ "'"
  | .unsupported feature => feature.message ++ " is not supported"
  | .misuse cause => "Configuration error: " ++ cause.message
  | .columnMismatch row expected found =>
    "Column mismatch in row " ++ toString row ++ ": expected " ++ toString expected ++
      " columns, found " ++ toString found
  | .missing value => "Missing value: " ++ value.message
  | .malformed line fault => "Parse error at line " ++ toString line ++ ": " ++ fault.message
  | .unreadable fault => "I/O error: " ++ fault.message
  | .unserializable text => "Serialization error: " ++ text

/-- Whether an error is a misuse. -/
def isMisuse : Error → Bool
  | .misuse _ => true
  | _ => false

/-- Whether an error is about a construct without SQL form. -/
def isUnsupported : Error → Bool
  | .unsupported _ => true
  | _ => false

end Error

/-- The result of a step that may fail. -/
abbrev Outcome (α : Type) := Except Error α

end SqlWright
