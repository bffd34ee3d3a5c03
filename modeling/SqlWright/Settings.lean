import SqlWright.Enumeration
import SqlWright.Error
import SqlWright.Hint
import SqlWright.Json.Form
import SqlWright.Json.Value

/-!
# Settings

What all statements of a program have in common: the schema of tables that name none, the way
enumeration values are written, the hint on joined tables, and the reporting of finished statements.
Settings are read from a JSON form and written back as a JSON object.
-/

namespace SqlWright

/-- The settings of a statement. -/
structure Settings where
  defaultSchema : String
  enumMode : EnumMode
  /-- The hint that every joined table carries. -/
  joinHint : Option Hint
  /-- Whether a finished statement is reported. -/
  logStatements : Bool
  /-- The most bytes of a statement that a report shows; `none` shows all of it. -/
  maxLoggedLength : Option Nat
deriving DecidableEq, Repr

namespace Settings

/-- The settings of a program that chooses none. -/
def default : Settings :=
  { defaultSchema := "dbo"
    enumMode := .asInt
    joinHint := some .noLock
    logStatements := true
    maxLoggedLength := some 500 }

instance : Inhabited Settings := ⟨default⟩

/-- The names of the fields in a form. -/
def fieldNames : List String :=
  ["default_schema", "enum_mode", "join_hint", "log_statements", "max_logged_sql_length"]

/-- Reads settings from a form; a field that is not filled in has its default. -/
def ofForm? (f : Json.Form) : Option Settings := do
  let defaultSchema ← f.get? "default_schema" default.defaultSchema Json.Node.text?
  let enumMode ← f.get? "enum_mode" default.enumMode (Json.Node.choice? EnumMode.ofName?)
  let joinHint ←
    f.get? "join_hint" default.joinHint (Json.Node.optional? (Json.Node.choice? Hint.ofName?))
  let logStatements ← f.get? "log_statements" default.logStatements Json.Node.bool?
  let maxLoggedLength ←
    f.get? "max_logged_sql_length" default.maxLoggedLength
      (Json.Node.optional? Json.Node.natural?)
  return { defaultSchema, enumMode, joinHint, logStatements, maxLoggedLength }

/-- Reads settings from a JSON text. -/
def ofText (s : String) : Outcome Settings :=
  match (Json.Node.ofText? s).bind fun n => (Json.Form.ofNode? fieldNames n).bind ofForm? with
  | some settings => .ok settings
  | none => .error (.unserializable "the text does not describe settings")

/-- The settings as a JSON object. -/
def toJson (s : Settings) : Json :=
  .object
    [("default_schema", .string s.defaultSchema),
      ("enum_mode", .string s.enumMode.name),
      ("join_hint", (s.joinHint.map fun h => Json.string h.name).getD .null),
      ("log_statements", .bool s.logStatements),
      ("max_logged_sql_length", (s.maxLoggedLength.map fun n => Json.int n).getD .null)]

end Settings

end SqlWright
