import SqlWright.Error
import SqlWright.Json.Form
import SqlWright.Json.Value

/-!
# Options of delimited texts

The characters that structure a delimited text, and what its reader does beyond splitting it. Options
are read from a JSON form and written back as a JSON object. The two characters may be any, also
equal ones or line breaks.
-/

namespace SqlWright.Delimited

/-- How a delimited text is read. -/
structure Options where
  delimiter : Char
  quote : Char
  /-- Whether the first record names the fields of the others. -/
  hasHeader : Bool
  /-- Whether blanks around fields are dropped. -/
  trim : Bool
deriving DecidableEq, Repr

namespace Options

/-- Fields between commas, double quotes, a header, and blanks that count. -/
def default : Options :=
  { delimiter := ',', quote := '"', hasHeader := true, trim := false }

instance : Inhabited Options := ⟨default⟩

/-- The names of the fields in a form. -/
def fieldNames : List String :=
  ["delimiter", "quote", "has_header", "trim"]

/-- Reads options from a form; a field that is not filled in has its default. -/
def ofForm? (f : Json.Form) : Option Options := do
  let delimiter ← f.get? "delimiter" default.delimiter Json.Node.character?
  let quote ← f.get? "quote" default.quote Json.Node.character?
  let hasHeader ← f.get? "has_header" default.hasHeader Json.Node.bool?
  let trim ← f.get? "trim" default.trim Json.Node.bool?
  return { delimiter, quote, hasHeader, trim }

/-- Reads options from a JSON text. -/
def ofText (s : String) : Outcome Options :=
  match (Json.Node.ofText? s).bind fun n => (Json.Form.ofNode? fieldNames n).bind ofForm? with
  | some options => .ok options
  | none => .error (.unserializable "the text does not describe options")

/-- The options as a JSON object. -/
def toJson (o : Options) : Json :=
  .object
    [("delimiter", .string (String.singleton o.delimiter)),
      ("has_header", .bool o.hasHeader),
      ("quote", .string (String.singleton o.quote)),
      ("trim", .bool o.trim)]

end Options

end SqlWright.Delimited
