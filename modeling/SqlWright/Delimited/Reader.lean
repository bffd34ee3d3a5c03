import SqlWright.Delimited.Record

/-!
# Readers of delimited texts

A reader goes through a source record by record and can go on after an error. With a header, the
first call of any kind reads the first record as the names of the fields. Records need not have equal
lengths unless their fields are read under those names.
-/

namespace SqlWright.Delimited

/-- A reader and what it has before it. -/
structure Reader where
  options : Options
  rest : Source
  /-- The number of the current line, from one. -/
  line : Nat
  headers : Option (List String)
  /-- Whether the header was read, or at least tried. -/
  headerRead : Bool
deriving DecidableEq, Repr

namespace Reader

/-- A reader at the beginning of a source. -/
def new (options : Options) (source : Source) : Reader :=
  { options, rest := source, line := 1, headers := none, headerRead := false }

/-- The reader after something was taken from its source. -/
def advance {α : Type} (r : Reader) (t : Taken α) : Reader :=
  { r with rest := t.rest, line := t.line }

/-- Reads the next record, whatever it is. -/
def parse (r : Reader) : Outcome (Option (List String)) × Reader :=
  let t := readRecord r.options r.line r.rest
  (t.result, r.advance t)

/-- Reads the header if there is one and it was not tried before. -/
def ensureHeader (r : Reader) : Outcome Unit × Reader :=
  if r.options.hasHeader && !r.headerRead then
    match r.parse with
    | (.ok headers, r) => (.ok (), { r with headers, headerRead := true })
    | (.error e, r) => (.error e, { r with headerRead := true })
  else (.ok (), r)

/-- The names of the fields; none without a header. -/
def names (r : Reader) : Outcome (Option (List String)) × Reader :=
  match r.ensureHeader with
  | (.ok _, r) => (.ok r.headers, r)
  | (.error e, r) => (.error e, r)

/-- The next record after the header; none at the end. -/
def record (r : Reader) : Outcome (Option (List String)) × Reader :=
  match r.ensureHeader with
  | (.ok _, r) => r.parse
  | (.error e, r) => (.error e, r)

/-- A record under the names of the header, when it was read at a line. -/
def named (headers : Option (List String)) (line : Nat) (record : List String) :
    Outcome (List (String × String)) :=
  match headers with
  | none => .error (.misuse .pairsWithoutHeader)
  | some names =>
    if names.length = record.length then .ok (names.zip record)
    else .error (.columnMismatch line names.length record.length)

/-- The next record under the names of the header; none at the end. An error of this call takes the
record with it. -/
def pairs (r : Reader) : Outcome (Option (List (String × String))) × Reader :=
  match r.ensureHeader with
  | (.error e, r) => (.error e, r)
  | (.ok _, r) =>
    match r.parse with
    | (.error e, next) => (.error e, next)
    | (.ok none, next) => (.ok none, next)
    | (.ok (some record), next) => ((named r.headers r.line record).map some, next)

/-- The next outcome of a loop over the records: a record or an error; none at the end. -/
def next (r : Reader) : Option (Outcome (List String)) × Reader :=
  match r.record with
  | (.ok none, r) => (none, r)
  | (.ok (some record), r) => (some (.ok record), r)
  | (.error e, r) => (some (.error e), r)

/-- The outcomes of a loop that goes on after errors, at most `count` of them. -/
def take : Nat → Reader → List (Outcome (List String)) × Reader
  | 0, r => ([], r)
  | count + 1, r =>
    match r.next with
    | (none, r) => ([], r)
    | (some outcome, r) =>
      let (outcomes, last) := take count r
      (outcome :: outcomes, last)

end Reader

end SqlWright.Delimited
