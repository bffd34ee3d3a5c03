import SqlWright.Value

/-!
# Records

Objects with named fields, as they are given to a statement: the item whose values are written, or an
object that an expression refers to. Only fields that are present are held; the record type that an
object belongs to is named where the object is used.
-/

namespace SqlWright

/-- Named fields, and the text by which a diagnostic shows the whole record. -/
structure Record (α : Type) where
  label : String
  fields : List (String × α)
deriving Inhabited

/-- The first field with a name. -/
def Record.get? {α : Type} (r : Record α) (member : String) : Option α :=
  (r.fields.find? fun f => f.1 == member).map (·.2)

/-- A field of a record: a value, or a record inside it. -/
inductive Field where
  | value (v : Value)
  | record (r : Record Field)

instance : Inhabited Field := ⟨.value .null⟩

end SqlWright
