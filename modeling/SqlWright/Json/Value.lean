/-!
# JSON values

A document tree. Whole numbers are kept apart from fractions, and the members of an object are a
list that its readers keep sorted by name.
-/

namespace SqlWright

/-- A JSON value. -/
inductive Json where
  | null
  | bool (b : Bool)
  | int (n : Int)
  | float (x : Float)
  | string (s : String)
  | array (items : List Json)
  | object (members : List (String × Json))
deriving Inhabited

/-- Puts a member into a sorted list of members; a member of the same name is replaced. Names are
compared character by character, which is also the order of their UTF-8 bytes. -/
def Json.put (name : String) (value : Json) : List (String × Json) → List (String × Json)
  | [] => [(name, value)]
  | (other, v) :: rest =>
    if name < other then (name, value) :: (other, v) :: rest
    else if name = other then (name, value) :: rest
    else (other, v) :: Json.put name value rest

end SqlWright
