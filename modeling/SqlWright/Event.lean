import SqlWright.Registry
import SqlWright.Settings

/-!
# Events

What a program may follow while statements are put together: aliases as they are given, errors as
they are recorded, and finished statements. A finished statement is shown up to a number of bytes.
Where events are written to is not decided here.
-/

namespace SqlWright

/-- The kinds of statement. -/
inductive StatementKind where
  | select
  | insert
  | update
  | delete
  | merge
deriving DecidableEq, Repr, Inhabited

/-- The keyword that a kind of statement starts with. -/
def StatementKind.keyword : StatementKind → String
  | .select => "SELECT"
  | .insert => "INSERT"
  | .update => "UPDATE"
  | .delete => "DELETE"
  | .merge => "MERGE"

/-- An event. -/
inductive Event where
  | aliasAssigned (type aliasName : String) (isPrimary : Bool)
  | statementBuilt (kind : StatementKind) (sql : String)
  | errorRecorded (kind : StatementKind) (error : Error)
deriving DecidableEq, Repr

namespace Event

/-- The event of a new entry. -/
def ofEntry (e : Entry) : Event :=
  .aliasAssigned e.type.name e.aliasName e.isPrimary

/-- The short description of an event. -/
def message : Event → String
  | .aliasAssigned _ _ _ => "alias assigned"
  | .statementBuilt _ _ => "statement built"
  | .errorRecorded _ _ => "builder error recorded"

end Event

/-- As many characters of a text as fit into a number of UTF-8 bytes. -/
def fitting (limit : Nat) : List Char → List Char
  | [] => []
  | c :: cs => if c.utf8Size ≤ limit then c :: fitting (limit - c.utf8Size) cs else []

/-- A text cut to a number of bytes and marked as cut, or all of it if it fits. -/
def shortened (limit : Option Nat) (text : String) : String :=
  match limit with
  | none => text
  | some n =>
    if text.utf8ByteSize ≤ n then text else String.ofList (fitting n text.toList) ++ "..."

end SqlWright
