import SqlWright.Event
import SqlWright.Expr.Compile
import SqlWright.Row

/-!
# Drafts

What all statements in the making have in common: their settings, the types that they mention, the
first error and the events so far. A call on a statement never fails by itself. Its error is recorded
here, and the first recorded error is what the finished statement then gives in place of a text.
-/

namespace SqlWright

/-- The common part of a statement in the making. -/
structure Draft where
  kind : StatementKind
  settings : Settings
  registry : Registry
  /-- The first error of the calls so far. -/
  fault : Option Error
  journal : List Event
deriving DecidableEq, Repr

namespace Draft

/-- A statement before the first call. -/
def new (kind : StatementKind) (settings : Settings) : Draft :=
  { kind, settings, registry := .empty settings.defaultSchema, fault := none, journal := [] }

/-- Takes over a registry that goes on from the present one and reports its new entries. -/
def adopt (d : Draft) (r : Registry) : Draft :=
  { d with
    registry := r
    journal := d.journal ++ (r.entries.drop d.registry.entries.length).map Event.ofEntry }

/-- Mentions a type. -/
def mention (d : Draft) (t : MappedType) (primary : Bool) : Draft :=
  d.adopt (d.registry.add t primary)

/-- Reports an error, and records it if it is the first. -/
def reject (d : Draft) (e : Error) : Draft :=
  { d with
    fault := d.fault.or (some e)
    journal := d.journal ++ [.errorRecorded d.kind e] }

/-- Takes over a result. When there is none its error is recorded and the old value stays. -/
def accept {α : Type} (d : Draft) (result : Outcome α) (old : α) : Draft × α :=
  match result with
  | .ok new => (d, new)
  | .error e => (d.reject e, old)

/-- Takes over a registry and a result that was made with it. -/
def acceptWith {α : Type} (d : Draft) (result : Registry × Outcome α) (old : α) : Draft × α :=
  (d.adopt result.1).accept result.2 old

/-- Compiles an expression on one type. -/
def compile (d : Draft) (t : MappedType) (named : Bool) (e : Expr) : Outcome String :=
  e.compile ⟨d.registry, [t], d.settings.enumMode⟩ named

/-- The literal of a value for a column of the primary table, or of no known column. -/
def columnValue (d : Draft) (name : String) (v : Value) : Outcome ColumnValue :=
  match d.registry.primary?.bind fun p => p.type.table.ofName? name with
  | some c => (c.literal d.settings.enumMode v).map fun text => ⟨name, text, c.searchKey⟩
  | none => .ok ⟨name, v.literal d.settings.enumMode, false⟩

/-- The text of a statement unless an error is recorded. -/
def finish (d : Draft) (text : Outcome String) : Outcome String :=
  match d.fault with
  | some e => .error e
  | none => text

/-- The events of finishing a statement: one for a text, if such reports are wanted. -/
def report (d : Draft) (result : Outcome String) : List Event :=
  match result with
  | .ok text =>
    if d.settings.logStatements then
      [.statementBuilt d.kind (shortened d.settings.maxLoggedLength text)]
    else []
  | .error _ => []

end Draft

/-- A limit on the number or the share of rows. -/
structure Top where
  count : Nat
  percent : Bool
deriving DecidableEq, Repr

namespace Top

/-- What follows the count. -/
def unit (t : Top) : String :=
  if t.percent then " PERCENT " else " "

/-- The limit as it stands in a query, with a blank after it. -/
def bareText (t : Top) : String :=
  "TOP " ++ toString t.count ++ t.unit

/-- The limit as it stands in a statement that changes rows, with a blank after it. -/
def groupedText (t : Top) : String :=
  "TOP (" ++ toString t.count ++ ")" ++ t.unit

end Top

end SqlWright
