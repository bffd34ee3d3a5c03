import SqlWright.Calendar
import SqlWright.Guid
import SqlWright.Enumeration
import SqlWright.Json.Value

/-!
# Values

The values that may be written into a statement. A statement takes values only in the form of their
literals, which are defined beside this module.
-/

namespace SqlWright

/-- A value that has a literal. -/
inductive Value where
  | null
  | bool (b : Bool)
  | int (n : Int)
  | float (x : Float)
  | decimal (d : Decimal.Fixed)
  | string (s : String)
  | guid (g : Guid)
  | dateTime (t : DateTime)
  | offsetDateTime (t : OffsetDateTime)
  | date (d : Date)
  | time (t : ClockTime)
  | binary (bytes : List UInt8)
  | json (j : Json)
  | enumerated (e : EnumValue)
  /-- A collection, as it stands on the right of `IN`. -/
  | list (items : List Value)
deriving Inhabited

/-- Whether a value is the null value itself. -/
def Value.isNull : Value → Bool
  | .null => true
  | _ => false

end SqlWright
