/-!
# Enumerations

Closed lists of named integers, and the two ways in which their values may stand in a column. Names
and values need not be distinct: a look-up takes the first variant that fits.
-/

namespace SqlWright

/-- How the value of an enumeration is written: as its integer or as the name of its variant. -/
inductive EnumMode where
  | asInt
  | asString
deriving DecidableEq, Repr, Inhabited

/-- The name of a mode in a settings file. -/
def EnumMode.name : EnumMode → String
  | .asInt => "as_int"
  | .asString => "as_string"

/-- The mode with a given name. -/
def EnumMode.ofName? (s : String) : Option EnumMode :=
  [EnumMode.asInt, EnumMode.asString].find? fun m => m.name == s

/-- A named list of variants, each with its integer. -/
structure EnumType where
  name : String
  variants : List (String × Int)
deriving DecidableEq, Repr, Inhabited

/-- The name of the first variant with this integer. -/
def EnumType.nameOf? (t : EnumType) (value : Int) : Option String :=
  (t.variants.find? fun v => v.2 == value).map (·.1)

/-- The integer of the first variant with this name. -/
def EnumType.valueOf? (t : EnumType) (name : String) : Option Int :=
  (t.variants.find? fun v => v.1 == name).map (·.2)

/-- A value of an enumeration. The integer need not belong to a variant, as with combined flags. -/
structure EnumValue where
  type : EnumType
  value : Int
deriving DecidableEq, Repr, Inhabited

/-- The name of the value, if one of the variants has its integer. -/
def EnumValue.name? (v : EnumValue) : Option String :=
  v.type.nameOf? v.value

/-- The enumeration and the mode of a column. -/
structure EnumColumn where
  type : EnumType
  mode : EnumMode
deriving DecidableEq, Repr, Inhabited

end SqlWright
