import SqlWright.Delimited.Options
import SqlWright.Delimited.Source
import SqlWright.Text.Blank

/-!
# Records of delimited texts

One record is read by one pass over the characters. What has been read of it so far, together with
the place of the reader in the current field, decides what the next character means. Inside quotes a
delimiter or a line break is like any other character, and a doubled quote stands for one. Lines are
counted as they are passed, those inside quotes too.
-/

namespace SqlWright.Delimited

/-- The place of a reader in the current field. -/
inductive Place where
  /-- Before the field, or in the blanks in front of it. -/
  | start
  | bare
  | quoted
  /-- After a quote inside a quoted field. -/
  | afterQuote
deriving DecidableEq, Repr, Inhabited

/-- What has been read of a record. -/
structure Progress where
  fields : List String
  field : String
  /-- Whether the current field was written in quotes. -/
  wasQuoted : Bool
  place : Place
deriving DecidableEq, Repr, Inhabited

/-- What the next character does. -/
inductive Move where
  /-- The record goes on. -/
  | continues (p : Progress)
  /-- The character ends the line and the record. -/
  | breaks
  /-- The character may not stand here. -/
  | refuses

namespace Progress

/-- A record of which nothing has been read. -/
def empty : Progress := ⟨[], "", false, .start⟩

/-- Whether nothing has been read yet. -/
def isBlank (p : Progress) : Bool :=
  p.fields.isEmpty && p.field.isEmpty && p.place == .start

/-- The text of the current field. Blanks are dropped only around fields without quotes. -/
def fieldText (o : Options) (p : Progress) : String :=
  if o.trim && !p.wasQuoted then Text.trim p.field else p.field

/-- The record once its last field is complete. -/
def record (o : Options) (p : Progress) : List String :=
  p.fields ++ [p.fieldText o]

/-- The progress after the delimiter that ends a field. -/
def nextField (o : Options) (p : Progress) : Progress :=
  ⟨p.record o, "", false, .start⟩

/-- The progress after a character of the current field. -/
def push (p : Progress) (c : Char) (place : Place) : Progress :=
  { p with field := p.field.push c, place }

/-- What a character means outside quotes. -/
def moveOutside (o : Options) (p : Progress) (c : Char) : Move :=
  if c = o.delimiter then .continues (p.nextField o)
  else if c = '\n' ∨ c = '\r' then .breaks
  else if c = o.quote ∧ p.place = .start then
    .continues { p with field := "", wasQuoted := true, place := .quoted }
  else if p.place = .start ∧ o.trim ∧ Text.isBlank c then .continues (p.push c .start)
  else .continues (p.push c .bare)

/-- What a character means after a quote inside a quoted field. -/
def moveAfterQuote (o : Options) (p : Progress) (c : Char) : Move :=
  if c = o.quote then .continues (p.push c .quoted)
  else if c = o.delimiter then .continues (p.nextField o)
  else if c = '\n' ∨ c = '\r' then .breaks
  else if o.trim ∧ Text.isBlank c then .continues p
  else .refuses

/-- What a character means. -/
def move (o : Options) (p : Progress) (c : Char) : Move :=
  match p.place with
  | .start | .bare => p.moveOutside o c
  | .quoted =>
    if c = o.quote then .continues { p with place := .afterQuote }
    else .continues (p.push c .quoted)
  | .afterQuote => p.moveAfterQuote o c

/-- The lines that a character of the record passes: inside quotes a line feed, or a carriage return
without one, passes one. -/
def passedLines (o : Options) (p : Progress) (c : Char) (rest : Source) : Nat :=
  if p.place = .quoted ∧ c ≠ o.quote ∧
      (c = '\n' ∨ (c = '\r' ∧ rest.head? ≠ some (.char '\n'))) then 1
  else 0

end Progress

/-- What a reader has in hand after it tried to read something. -/
structure Taken (α : Type) where
  result : Outcome α
  line : Nat
  rest : Source

/-- Reads on in a record that began when the line count was `start`. Lines on which nothing stands are
passed over. -/
def readOn (o : Options) (start : Nat) (p : Progress) (line : Nat) :
    Source → Taken (Option (List String))
  | [] =>
    if p.place = .quoted then ⟨.error (.malformed start .unterminatedQuote), line, []⟩
    else if p.isBlank then ⟨.ok none, line, []⟩
    else ⟨.ok (some (p.record o)), line, []⟩
  | .undecodable :: rest => ⟨.error (.unreadable .notUtf8), line, rest⟩
  | .char c :: rest =>
    match p.move o c with
    | .continues q => readOn o start q (line + p.passedLines o c rest) rest
    | .breaks =>
      have := Source.afterBreak_length c rest
      if p.isBlank then readOn o start p (line + 1) (Source.afterBreak c rest)
      else ⟨.ok (some (p.record o)), line + 1, Source.afterBreak c rest⟩
    | .refuses => ⟨.error (.malformed line (.afterQuote c)), line, rest⟩
termination_by source => source.length

/-- Reads one record, or nothing at the end of the source. -/
def readRecord (o : Options) (line : Nat) (source : Source) : Taken (Option (List String)) :=
  readOn o line .empty line source

end SqlWright.Delimited
