import Mathlib.Algebra.Ring.Nat
import SqlWright.Proofs.Delimited.RoundTrip

/-!
# Calls in any order

A source whose records can all be read, with a header, under any sequence of calls. The header is
taken by the first call, whichever it is. After that a reader stands where a reader that only parses
stands after as many records as there were calls for data, and one more for the header: no record is
passed over, given twice or given to another call. Sources with a malformed record are not treated.
-/

namespace SqlWright.Delimited

/-- What a source holds from a line on, parsed record by record: these records and no error. -/
inductive Holds (o : Options) : Nat → Source → List (List String) → Prop
  | done {line line' : Nat} {source rest : Source} :
      readRecord o line source = ⟨.ok none, line', rest⟩ → Holds o line source []
  | record {line line' : Nat} {source rest : Source} {record : List String}
      {records : List (List String)} :
      readRecord o line source = ⟨.ok (some record), line', rest⟩ → Holds o line' rest records →
      Holds o line source (record :: records)

/-- Every writing of some records is a source that holds them. -/
theorem Holds.of_written {o : Options} (ho : o.IsProper) {records : List (List String)}
    {cs : List Char} (h : Written o records cs) (line : Nat) :
    Holds o line (.ofChars cs) records := by
  induction records generalizing cs line with
  | nil =>
    obtain ⟨line', ds, -, hread⟩ := readOn_written ho h line line
    exact .done hread
  | cons record records ih =>
    obtain ⟨line', ds, hds, hread⟩ := readOn_written ho h line line
    exact .record hread (ih hds line')

/-! ## The end of a source -/

/-- A reader that finds no record has gone through the whole source. -/
theorem readOn_none (o : Options) (start : Nat) (p : Progress) (line : Nat) (source : Source)
    (h : (readOn o start p line source).result = .ok none) :
    (readOn o start p line source).rest = [] := by
  fun_induction readOn o start p line source with
  | case1 | case3 | case4 | case7 | case8 => cases h
  | case2 => rfl
  | case5 _ _ _ _ _ _ ih => exact ih h
  | case6 _ _ _ _ _ _ _ ih => exact ih h

theorem readRecord_nil (o : Options) (line : Nat) :
    readRecord o line [] = ⟨.ok none, line, []⟩ := by
  rw [readRecord, readOn, if_neg (by decide), if_pos (by decide)]

namespace Reader

/-! ## Parsing alone -/

/-- The reader after it parsed some records, without a look at the header. -/
def skip (r : Reader) : Nat → Reader
  | 0 => r
  | count + 1 => (r.skip count).parse.2

variable {o : Options} {source : Source} {records : List (List String)}

theorem parse_eq {r : Reader} {t : Taken (Option (List String))}
    (h : readRecord r.options r.line r.rest = t) : r.parse = (t.result, r.advance t) := by
  rw [parse, h]

theorem skip_succ (r : Reader) (count : Nat) : r.skip (count + 1) = r.parse.2.skip count := by
  induction count with
  | zero => rfl
  | succ count ih => exact congrArg (fun next => next.parse.2) ih

theorem parse_end (r : Reader) (h : r.rest = []) (count : Nat) :
    (r.skip count).parse.1 = .ok none := by
  have hparse (s : Reader) (hs : s.rest = []) : s.parse.1 = .ok none ∧ s.parse.2.rest = [] := by
    rw [parse, hs, readRecord_nil]
    exact ⟨rfl, rfl⟩
  have hrest : (r.skip count).rest = [] := by
    induction count with
    | zero => exact h
    | succ count ih => exact (hparse _ ih).2
  exact (hparse _ hrest).1

/-- Parsing gives the records of the source in their order, and nothing after the last. -/
theorem parse_skip {line : Nat} (h : Holds o line source records) {r : Reader}
    (ho : r.options = o) (hr : r.rest = source) (hl : r.line = line) (count : Nat) :
    (r.skip count).parse.1 = .ok records[count]? := by
  induction h generalizing r count with
  | @done line line' source rest hread =>
    have hrest : rest = [] := by
      have hend := readOn_none o line .empty line source
      rw [← readRecord, hread] at hend
      exact hend rfl
    have hparse := parse_eq (r := r) (t := ⟨.ok none, line', rest⟩) (by rw [ho, hr, hl, hread])
    cases count with
    | zero => exact congrArg Prod.fst hparse
    | succ count =>
      rw [skip_succ, hparse]
      exact parse_end _ hrest count
  | @record line line' source rest record records hread _ ih =>
    have hparse := parse_eq (r := r) (t := ⟨.ok (some record), line', rest⟩)
      (by rw [ho, hr, hl, hread])
    cases count with
    | zero => exact congrArg Prod.fst hparse
    | succ count =>
      rw [skip_succ, hparse]
      refine ih ?_ rfl rfl count
      exact ho

end Reader

/-! ## Calls -/

/-- A call of a reader. -/
inductive Call where
  | names
  | record
  | pairs
  | next
deriving DecidableEq, Repr

/-- The records that a call takes beside the header. -/
def Call.takes : Call → Nat
  | .names => 0
  | .record | .pairs | .next => 1

/-- What a call gives back. -/
inductive Answer where
  | names (outcome : Outcome (Option (List String)))
  | record (outcome : Outcome (Option (List String)))
  | pairs (outcome : Outcome (Option (List (String × String))))
  | next (outcome : Option (Outcome (List String)))

namespace Reader

/-- Makes a call. -/
def call (r : Reader) : Call → Answer × Reader
  | .names => (.names r.names.1, r.names.2)
  | .record => (.record r.record.1, r.record.2)
  | .pairs => (.pairs r.pairs.1, r.pairs.2)
  | .next => (.next r.next.1, r.next.2)

/-- The reader after some calls. -/
def after (r : Reader) (calls : List Call) : Reader :=
  calls.foldl (fun r c => (r.call c).2) r

end Reader

/-- What a call gives that sees a record of the source, or none at its end. -/
def Call.answer (names seen : Option (List String)) (line : Nat) : Call → Answer
  | .names => .names (.ok names)
  | .record => .record (.ok seen)
  | .next => .next (seen.map .ok)
  | .pairs =>
    match names, seen with
    | some names, some seen =>
      if names.length = seen.length then .pairs (.ok (some (names.zip seen)))
      else .pairs (.error (.columnMismatch line names.length seen.length))
    | _, _ => .pairs (.ok none)

/-- The records that some calls take beside the header. -/
def Call.taken (calls : List Call) : Nat :=
  (calls.map Call.takes).sum

namespace Reader

variable {o : Options} {source : Source} {records : List (List String)}

/-- The reader that has its header and has taken `count` records beside it. -/
def begun (o : Options) (source : Source) (records : List (List String)) (count : Nat) : Reader :=
  { (new o source).skip (count + 1) with headers := records.head?, headerRead := true }

theorem parse_new (h : Holds o 1 source records) (count : Nat) :
    ((new o source).skip count).parse = (.ok records[count]?, (new o source).skip (count + 1)) :=
  Prod.ext (parse_skip h rfl rfl rfl count) rfl

theorem parse_begun (h : Holds o 1 source records) (count : Nat) :
    (begun o source records count).parse =
      (.ok records[count + 1]?, begun o source records (count + 1)) := by
  have hparse : (begun o source records count).parse =
      (((new o source).skip (count + 1)).parse.1, begun o source records (count + 1)) := rfl
  rw [hparse, parse_new h]

/-- The header is there, whether an earlier call took it or this one takes it, and `count` records
have been taken beside it. -/
def Tracks (o : Options) (source : Source) (records : List (List String)) (r : Reader)
    (count : Nat) : Prop :=
  r.ensureHeader = (.ok (), begun o source records count)

theorem Tracks.new (ho : o.hasHeader = true) (h : Holds o 1 source records) :
    Tracks o source records (new o source) 0 := by
  have hfirst := parse_new h 0
  rw [← List.head?_eq_getElem?] at hfirst
  have hparse : (Reader.new o source).parse = (.ok records.head?, (Reader.new o source).skip 1) :=
    hfirst
  have hunread : (o.hasHeader && !(Reader.new o source).headerRead) = true := by
    rw [ho]
    rfl
  rw [Tracks, ensureHeader]
  show (if (o.hasHeader && !(Reader.new o source).headerRead) = true then _ else _) = _
  rw [if_pos hunread, hparse]
  rfl

theorem Tracks.begun (count : Nat) :
    Tracks o source records (begun o source records count) count := by
  have hread : ((Reader.begun o source records count).options.hasHeader &&
      !(Reader.begun o source records count).headerRead) = false := Bool.and_false _
  rw [Tracks, ensureHeader, hread]
  rfl

/-- One call, from whichever state the calls before have left. -/
theorem Tracks.call_eq (h : Holds o 1 source records) {r : Reader} {count : Nat}
    (hr : Tracks o source records r count) (c : Call) :
    r.call c =
      (c.answer records.head? records[count + 1]? (Reader.begun o source records count).line,
        Reader.begun o source records (count + c.takes)) := by
  have hheader : r.ensureHeader = (.ok (), Reader.begun o source records count) := hr
  have hparse := parse_begun h count
  have hrecord :
      r.record = (.ok records[count + 1]?, Reader.begun o source records (count + 1)) := by
    rw [record, hheader]
    exact hparse
  cases c with
  | names =>
    have hnames : r.names = (.ok records.head?, Reader.begun o source records count) := by
      rw [names, hheader]
      rfl
    rw [call, hnames]
    rfl
  | record =>
    rw [call, hrecord]
    rfl
  | next =>
    rw [call, next, hrecord]
    cases records[count + 1]? <;> rfl
  | pairs =>
    cases hseen : records[count + 1]? with
    | none =>
      have hpairs : r.pairs = (.ok none, Reader.begun o source records (count + 1)) := by
        simp only [pairs, hheader, hparse, hseen]
      rw [call, hpairs]
      cases records.head? <;> rfl
    | some seen =>
      have hne : records ≠ [] := by
        rintro rfl
        cases hseen
      obtain ⟨names, hnames⟩ := Option.ne_none_iff_exists'.1 (mt List.head?_eq_none_iff.1 hne)
      have hheaders : (Reader.begun o source records count).headers = some names := hnames
      have hpairs : r.pairs =
          ((named (some names) (Reader.begun o source records count).line seen).map some,
            Reader.begun o source records (count + 1)) := by
        simp only [pairs, hheader, hparse, hseen, hheaders]
      rw [call, hpairs, hnames, Call.answer, named]
      split <;> rfl

/-- Any number of calls, from a reader that has its header or takes it with the first of them. -/
theorem Tracks.after (h : Holds o 1 source records) {r : Reader} {count : Nat}
    (hr : Tracks o source records r count) (calls : List Call) :
    Tracks o source records (r.after calls) (count + Call.taken calls) := by
  induction calls generalizing r count with
  | nil => exact hr
  | cons c calls ih =>
    have hstep : Tracks o source records (r.call c).2 (count + c.takes) := by
      rw [hr.call_eq h c]
      exact Tracks.begun _
    have hrest := ih hstep
    rw [Nat.add_assoc] at hrest
    exact hrest

/-- **Every call sees its own record.** If all records of a source can be read, then whatever calls
were made before, the next one gives the header if it asks for the names, and otherwise the record
after the header and after as many records as those calls have taken, or none at the end. It leaves
the reader where parsing alone gets after the header, these records and the one it has taken. -/
theorem call_after (ho : o.hasHeader = true) (h : Holds o 1 source records) (calls : List Call)
    (c : Call) :
    ((new o source).after calls).call c =
      (c.answer records.head? records[Call.taken calls + 1]?
          ((new o source).skip (Call.taken calls + 1)).line,
        { (new o source).skip (Call.taken calls + c.takes + 1) with
          headers := records.head?, headerRead := true }) := by
  have htracks := (Tracks.new ho h).after h calls
  rw [Nat.zero_add] at htracks
  exact htracks.call_eq h c

/-- Three lines under a header, the second of them too short, with calls that begin the reading in
different ways, meet the short line as pairs, and go on after the end. -/
theorem call_after_ragged :
    let o : Options := { delimiter := ';', quote := '"', hasHeader := true, trim := false }
    let text := "id;name\n1;\"a;b\"\r\n2\n3;c"
    let r := new o (.ofText text)
    (r.call .pairs).1 = .pairs (.ok (some [("id", "1"), ("name", "a;b")])) ∧
      ((r.after [.next, .names]).call .pairs).1 = .pairs (.error (.columnMismatch 3 2 1)) ∧
      ((r.after [.names, .record, .pairs, .names]).call .next).1 = .next (some (.ok ["3", "c"])) ∧
      ((r.after [.record, .pairs, .next, .pairs]).call .record).1 = .record (.ok none) ∧
      ((r.after [.record, .pairs, .next, .pairs]).call .names).1 =
        .names (.ok (some ["id", "name"])) := by
  intro o text r
  have ho : o.IsProper := ⟨by decide, by decide, by decide⟩
  have hpadding : ∀ c ∈ ([] : List Char), o.isPadding c = true := List.forall_mem_nil _
  have hquoted : WrittenField o "a;b" "\"a;b\"".toList := .quoted hpadding hpadding
  have hbare {s : String} (hs : (s.toList.all fun c => c.isAlphanum && !isBreak c) = true) :
      WrittenField o s s.toList := by
    have hmem {c : Char} (hc : c ∈ s.toList) : c.isAlphanum = true ∧ isBreak c = false := by
      simpa using List.all_eq_true.1 hs c hc
    refine .bare (fun c hc => ⟨?_, (hmem hc).2⟩) (fun hhead => ?_) fun htrim =>
      absurd htrim (by decide)
    · rintro rfl
      exact absurd (hmem hc).1 (by decide)
    · exact absurd (hmem (List.mem_of_head? hhead)).1 (by decide)
  have htext : text.toList = ("id".toList ++ ';' :: "name".toList) ++ (['\n'] ++
      (("1".toList ++ ';' :: "\"a;b\"".toList) ++ (['\r', '\n'] ++ ("2".toList ++ (['\n'] ++
        ("3".toList ++ ';' :: "c".toList)))))) := by decide
  have hwritten : Written o [["id", "name"], ["1", "a;b"], ["2"], ["3", "c"]] text.toList := by
    rw [htext]
    exact .record ⟨.cons (hbare rfl) (.single (hbare rfl)), by decide⟩ .lf
      (.record ⟨.cons (hbare rfl) (.single hquoted), by decide⟩ .crlf
      (.record ⟨.single (hbare rfl), by decide⟩ .lf
      (.last ⟨.cons (hbare rfl) (.single (hbare rfl)), by decide⟩)))
  have hrun := call_after (o := o) rfl (Holds.of_written ho hwritten 1)
  have hline : ((new o (.ofChars text.toList)).skip (Call.taken [.next, .names] + 1)).line = 3 := by
    decide +kernel
  refine ⟨?_, ?_, ?_, ?_, ?_⟩
  · exact congrArg Prod.fst (hrun [] .pairs)
  -- The number of the line is the only part that takes a run of the reader to know.
  · refine (congrArg Prod.fst (hrun [.next, .names] .pairs)).trans ?_
    rw [hline]
    rfl
  · exact congrArg Prod.fst (hrun [.names, .record, .pairs, .names] .next)
  · exact congrArg Prod.fst (hrun [.record, .pairs, .next, .pairs] .record)
  · exact congrArg Prod.fst (hrun [.record, .pairs, .next, .pairs] .names)

end Reader

end SqlWright.Delimited
