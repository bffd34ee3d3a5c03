import SqlWright.Delimited.Options
import SqlWright.Text.Blank
import SqlWright.Text.Enclosed

/-!
# Written records

What it is for a text to be a writing of some records: every field in one of its written forms,
delimiters between the fields, line ends after the records and blank lines anywhere among them. One
list of records has many writings. Nothing is said here about how a reader finds the records again.
-/

namespace SqlWright.Delimited

/-- Whether a character ends a line. -/
def isBreak (c : Char) : Bool :=
  c == '\n' || c == '\r'

namespace Options

/-- The delimiter and the quote can be told from each other and from the ends of lines. -/
structure IsProper (o : Options) : Prop where
  delimiter_ne_quote : o.delimiter ≠ o.quote
  delimiter_not_break : isBreak o.delimiter = false
  quote_not_break : isBreak o.quote = false

/-- Whether a character may stand around the quotes of a field. -/
def isPadding (o : Options) (c : Char) : Bool :=
  o.trim && Text.isBlank c && !isBreak c && c != o.delimiter && c != o.quote

end Options

/-- The written forms of a field: in quotes, with every quote inside doubled and padding on both
sides, or as it is. -/
inductive WrittenField (o : Options) (s : String) : List Char → Prop
  | quoted {before after : List Char} :
      (∀ c ∈ before, o.isPadding c = true) → (∀ c ∈ after, o.isPadding c = true) →
      WrittenField o s
        (before ++ o.quote :: (Text.doubled o.quote s.toList ++ o.quote :: after))
  | bare :
      (∀ c ∈ s.toList, c ≠ o.delimiter ∧ isBreak c = false) → s.toList.head? ≠ some o.quote →
      (o.trim = true → Text.trim s = s) → WrittenField o s s.toList

/-- Fields with delimiters between them. -/
inductive WrittenFields (o : Options) : List String → List Char → Prop
  | single {s : String} {cs : List Char} : WrittenField o s cs → WrittenFields o [s] cs
  | cons {s : String} {fields : List String} {cs ds : List Char} :
      WrittenField o s cs → WrittenFields o fields ds →
      WrittenFields o (s :: fields) (cs ++ o.delimiter :: ds)

/-- A record on a line. Nothing at all is no record, so the only field of a record is not written as
it is if it is empty. -/
structure WrittenRecord (o : Options) (record : List String) (cs : List Char) : Prop where
  fields : WrittenFields o record cs
  ne_nil : cs ≠ []

/-- The ends of a line. -/
inductive LineEnd : List Char → Prop
  | lf : LineEnd ['\n']
  | cr : LineEnd ['\r']
  | crlf : LineEnd ['\r', '\n']

/-- Records one after the other. Every line has an end, but for the last one when it is a record. -/
inductive Written (o : Options) : List (List String) → List Char → Prop
  | nil : Written o [] []
  | blankLine {records : List (List String)} {ending cs : List Char} :
      LineEnd ending → Written o records cs → Written o records (ending ++ cs)
  | record {r : List String} {records : List (List String)} {cs ending ds : List Char} :
      WrittenRecord o r cs → LineEnd ending → Written o records ds →
      Written o (r :: records) (cs ++ (ending ++ ds))
  | last {r : List String} {cs : List Char} : WrittenRecord o r cs → Written o [r] cs

/-! ## How written texts begin -/

variable {o : Options} {s : String} {r : List String} {cs : List Char}

theorem isPadding_spec {c : Char} (h : o.isPadding c = true) :
    o.trim = true ∧ Text.isBlank c = true ∧ isBreak c = false ∧ c ≠ o.delimiter ∧
      c ≠ o.quote := by
  simpa [Options.isPadding, and_assoc] using h

theorem WrittenField.head?_not_break (ho : o.IsProper) (h : WrittenField o s cs) :
    ∀ c ∈ cs.head?, isBreak c = false := by
  intro c hc
  cases h with
  | @quoted before after hb _ =>
    cases before with
    | nil =>
      cases hc
      exact ho.quote_not_break
    | cons b before =>
      cases hc
      exact (isPadding_spec (hb _ List.mem_cons_self)).2.2.1
  | bare hs _ _ => exact (hs c (List.mem_of_mem_head? hc)).2

theorem WrittenFields.ne_nil (h : WrittenFields o r cs) : r ≠ [] := by
  cases h <;> exact List.cons_ne_nil _ _

theorem WrittenFields.head?_not_break (ho : o.IsProper) (h : WrittenFields o r cs) :
    ∀ c ∈ cs.head?, isBreak c = false := by
  cases h with
  | single hf => exact hf.head?_not_break ho
  | @cons s fields cs ds hf _ =>
    cases cs with
    | nil =>
      intro c hmem
      cases hmem
      exact ho.delimiter_not_break
    | cons c cs => exact fun d hd => hf.head?_not_break ho d hd

/-- A line feed at the beginning of a writing is a blank line of its own. -/
theorem Written.of_lineFeed (ho : o.IsProper) {records : List (List String)}
    (h : Written o records ('\n' :: cs)) : Written o records cs := by
  have hrecord {r : List String} {ds more : List Char} (hr : WrittenRecord o r ds)
      (he : ds ++ more = '\n' :: cs) : False := by
    cases ds with
    | nil => exact hr.ne_nil rfl
    | cons d ds =>
      have hd := hr.fields.head?_not_break ho d rfl
      rw [(List.cons.inj he).1] at hd
      cases hd
  generalize hwhole : '\n' :: cs = whole at h
  cases h with
  | nil => cases hwhole
  | blankLine he hrest =>
    cases he with
    | lf =>
      cases hwhole
      exact hrest
    | cr => cases hwhole
    | crlf => cases hwhole
  | record hr _ _ => exact (hrecord hr hwhole.symm).elim
  | last hr => exact (hrecord hr ((List.append_nil _).trans hwhole.symm)).elim

end SqlWright.Delimited
