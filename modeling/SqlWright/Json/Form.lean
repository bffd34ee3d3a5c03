import SqlWright.Json.Syntax

/-!
# Forms

A document that fills in named fields, each with a default: an object with some of the names, or an
array with the fields in their order. Other names in an object are ignored and only the syntax of
what they hold is checked; a name that is given twice is refused. Nested forms are not provided for.
-/

namespace SqlWright.Json

/-- The fields that a document fills in. -/
abbrev Form := List (String × Node)

/-- The known names among the members of an object, added to those found before. -/
def given? (names : List String) (found : Form) : List (List Piece × Node) → Option Form
  | [] => some found
  | (pieces, n) :: rest => do
    let name ← textOf? pieces
    if !names.contains name then given? names found rest
    else if found.any fun f => f.1 == name then none
    else given? names (found ++ [(name, n)]) rest

/-- Reads a form with the given field names. An array may end early but not go on past them. -/
def Form.ofNode? (names : List String) : Node → Option Form
  | .object members => given? names [] members
  | .array items => if items.length ≤ names.length then some (names.zip items) else none
  | _ => none

/-- The value of a field, or its default when the form does not fill it in. -/
def Form.get? {α : Type} (f : Form) (name : String) (default : α) (read : Node → Option α) :
    Option α :=
  match f.find? fun g => g.1 == name with
  | some (_, n) => read n
  | none => some default

namespace Node

/-- The text of a string. -/
def text? : Node → Option String
  | .string pieces => textOf? pieces
  | _ => none

/-- The only character of a string. -/
def character? (n : Node) : Option Char :=
  match n.text?.map String.toList with
  | some [c] => some c
  | _ => none

/-- A truth value. -/
def bool? : Node → Option Bool
  | .bool b => some b
  | _ => none

/-- A whole number of 64 bits without a sign. -/
def natural? : Node → Option Nat
  | .number n =>
    match n.value? with
    | some (.int (.ofNat k)) => some k
    | _ => none
  | _ => none

/-- A value that may be null. -/
def optional? {α : Type} (read : Node → Option α) : Node → Option (Option α)
  | .null => some none
  | n => (read n).map some

/-- One of several names: as a string, or as an object that gives null to it. -/
def choice? {α : Type} (ofName? : String → Option α) : Node → Option α
  | .string pieces => (textOf? pieces).bind ofName?
  | .object [(pieces, .null)] => (textOf? pieces).bind ofName?
  | _ => none

end Node

end SqlWright.Json
