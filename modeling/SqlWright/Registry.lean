import SqlWright.Table

/-!
# Aliases of tables

A statement gives each mapped type that it mentions a short alias, in the order in which the types
are first mentioned. At most one of them is primary: the table that the statement is about. Entries
are never taken out.
-/

namespace SqlWright

/-- A mapped type with its place in a statement. -/
structure Entry where
  type : MappedType
  qualifiedName : String
  aliasName : String
  isPrimary : Bool
deriving DecidableEq, Repr, Inhabited

namespace Entry

/-- The table under its alias, as it stands after `FROM` or `JOIN`. -/
def tableWithAlias (e : Entry) : String :=
  e.qualifiedName ++ " " ++ Text.bracketed e.aliasName

/-- A column under the alias of its table. -/
def qualified (e : Entry) (c : Column) : String :=
  e.aliasName ++ "." ++ c.quoted

/-- All columns under the alias of their table. -/
def qualifiedColumns (e : Entry) : List String :=
  e.type.table.columns.map e.qualified

/-- An entry that is no longer primary. -/
def demoted (e : Entry) : Entry :=
  { e with isPrimary := false }

end Entry

/-- The types that a statement mentions, in the order of their first mention. -/
structure Registry where
  defaultSchema : String
  entries : List Entry
deriving DecidableEq, Repr, Inhabited

namespace Registry

/-- The registry of a statement that mentions no type yet. -/
def empty (defaultSchema : String) : Registry := ⟨defaultSchema, []⟩

/-- The entry of a type. -/
def get? (r : Registry) (t : MappedType) : Option Entry :=
  r.entries.find? fun e => e.type == t

/-- The alias of the entry at a place. -/
def aliasAt (n : Nat) : String :=
  "t" ++ toString n

/-- The entry that a type gets when it is mentioned for the first time. -/
def fresh (r : Registry) (t : MappedType) (primary : Bool) : Entry :=
  { type := t
    qualifiedName := t.table.qualifiedName r.defaultSchema
    aliasName := aliasAt r.entries.length
    isPrimary := primary }

/-- Mentions a type. A type that has an entry keeps it as it is; a new primary entry takes that role
from all others. -/
def add (r : Registry) (t : MappedType) (primary : Bool) : Registry :=
  match r.get? t with
  | some _ => r
  | none =>
    let others := if primary then r.entries.map Entry.demoted else r.entries
    { r with entries := others ++ [r.fresh t primary] }

/-- The entry that a type has once it is mentioned. -/
def entry (r : Registry) (t : MappedType) (primary : Bool) : Entry :=
  (r.get? t).getD (r.fresh t primary)

/-- The primary entry. -/
def primary? (r : Registry) : Option Entry :=
  r.entries.find? fun e => e.isPrimary

/-- The alias of a type. -/
def aliasOf? (r : Registry) (t : MappedType) : Option String :=
  (r.get? t).map (·.aliasName)

/-- The first entry of a table, whatever type it was mentioned by. -/
def ofTable? (r : Registry) (table : Table) : Option Entry :=
  r.entries.find? fun e => e.type.table.sameTable table

/-- The first entry with a table name, either alone or qualified. -/
def ofName? (r : Registry) (name : String) : Option Entry :=
  r.entries.find? fun e => e.type.table.name == name || e.qualifiedName == name

/-- Whether no type has been mentioned. -/
def isEmpty (r : Registry) : Bool :=
  r.entries.isEmpty

/-- The columns of all entries under their aliases. -/
def qualifiedColumns (r : Registry) : List String :=
  r.entries.flatMap Entry.qualifiedColumns

end Registry

end SqlWright
