/-!
# Sources of delimited texts

A source is decoded line by line. A line that is not UTF-8 cannot be decoded in any part, and stands
in the source as one symbol. Lines end after a line feed here; what else ends a record is a matter of
the reader.
-/

namespace SqlWright.Delimited

/-- What a reader meets next in its source. -/
inductive Symbol where
  | char (c : Char)
  /-- A whole line that is not UTF-8. -/
  | undecodable
deriving DecidableEq, Repr

/-- The text or the bytes that a reader has before it. -/
abbrev Source := List Symbol

namespace Source

/-- The source of a text. -/
def ofChars (cs : List Char) : Source :=
  cs.map .char

/-- The source of a string. -/
def ofText (s : String) : Source :=
  ofChars s.toList

/-- The symbols of one line. -/
def ofLine (line : List UInt8) : Source :=
  match String.fromUTF8? line.toByteArray with
  | some s => ofText s
  | none => [.undecodable]

/-- Bytes cut after every line feed. The current line is held in reverse. -/
def cutLines (current : List UInt8) : List UInt8 → List (List UInt8)
  | [] => if current.isEmpty then [] else [current.reverse]
  | b :: rest =>
    if b = 10 then (b :: current).reverse :: cutLines [] rest else cutLines (b :: current) rest

/-- The source of a sequence of bytes. -/
def ofBytes (bytes : List UInt8) : Source :=
  (cutLines [] bytes).flatMap ofLine

/-- The symbols after a line break that starts with `c`: a carriage return takes a line feed with
it. -/
def afterBreak (c : Char) (rest : Source) : Source :=
  match rest with
  | .char '\n' :: more => if c = '\r' then more else rest
  | _ => rest

theorem afterBreak_length (c : Char) (rest : Source) :
    (afterBreak c rest).length ≤ rest.length := by
  unfold afterBreak
  split
  · split <;> simp
  · exact Nat.le_refl _

end Source

end SqlWright.Delimited
