import SqlWright.Delimited.Reader
import SqlWright.Proofs.Delimited.Bytes
import SqlWright.Proofs.Delimited.Writing
import SqlWright.Proofs.Text.Trim

/-!
# Reading back what was written

A reader of delimited texts finds in a writing of some records exactly these records. The characters
of a field take the reader from the beginning of the field to its end, whatever comes next; so do
those of a record; and the end of a line may take a line feed with it, which then was a blank line.
How lines are counted plays no part in what is read.
-/

namespace SqlWright.Delimited

open Text

/-! ## One character -/

section Steps

variable {o : Options} {p q : Progress} {c : Char}

theorem readOn_continues (h : p.move o c = .continues q) (start line : Nat) (rest : Source) :
    readOn o start p line (.char c :: rest) =
      readOn o start q (line + p.passedLines o c rest) rest := by
  rw [readOn, h]

theorem readOn_blankLine (h : p.move o c = .breaks) (hp : p.isBlank = true) (start line : Nat)
    (rest : Source) :
    readOn o start p line (.char c :: rest) =
      readOn o start p (line + 1) (Source.afterBreak c rest) := by
  rw [readOn, h]
  exact if_pos hp

theorem readOn_breaks (h : p.move o c = .breaks) (hp : p.isBlank = false) (start line : Nat)
    (rest : Source) :
    readOn o start p line (.char c :: rest) =
      ⟨.ok (some (p.record o)), line + 1, Source.afterBreak c rest⟩ := by
  rw [readOn, h]
  exact if_neg (by rw [hp]; exact Bool.false_ne_true)

theorem readOn_end (hq : p.place ≠ .quoted) (hp : p.isBlank = false) (start line : Nat) :
    readOn o start p line [] = ⟨.ok (some (p.record o)), line, []⟩ := by
  rw [readOn, if_neg hq]
  exact if_neg (by rw [hp]; exact Bool.false_ne_true)

end Steps

/-! ## Characters that carry a record on -/

/-- The progress after some characters, if the record goes on through all of them. -/
def Progress.run (o : Options) (p : Progress) : List Char → Option Progress
  | [] => some p
  | c :: cs =>
    match p.move o c with
    | .continues q => q.run o cs
    | .breaks | .refuses => none

namespace Progress

variable {o : Options} {p q : Progress}

theorem run_cons {c : Char} (h : p.move o c = .continues q) (cs : List Char) :
    p.run o (c :: cs) = q.run o cs := by
  rw [run, h]

theorem run_append (cs ds : List Char) :
    p.run o (cs ++ ds) = (p.run o cs).bind fun q => q.run o ds := by
  induction cs generalizing p with
  | nil => rfl
  | cons c cs ih =>
    rw [List.cons_append, run, run]
    cases p.move o c with
    | continues q => exact ih
    | breaks => rfl
    | refuses => rfl

/-- A reader passes over characters that carry the record on. -/
theorem readOn_of_run {cs : List Char} (h : p.run o cs = some q) (start line : Nat)
    (rest : Source) :
    ∃ line', readOn o start p line (Source.ofChars cs ++ rest) = readOn o start q line' rest := by
  induction cs generalizing p line with
  | nil =>
    cases h
    exact ⟨line, rfl⟩
  | cons c cs ih =>
    rw [run] at h
    cases hm : p.move o c with
    | continues next =>
      rw [hm] at h
      obtain ⟨line', hl⟩ := ih h (line + p.passedLines o c (Source.ofChars cs ++ rest))
      exact ⟨line', (readOn_continues hm start line _).trans hl⟩
    | breaks =>
      rw [hm] at h
      cases h
    | refuses =>
      rw [hm] at h
      cases h

/-! ## Fields -/

/-- The progress at the beginning of a field. -/
def before (fields : List String) : Progress := ⟨fields, "", false, .start⟩

theorem push_append (p : Progress) (c : Char) (cs : List Char) (place : Place) :
    { p.push c place with field := (p.push c place).field ++ String.ofList cs } =
      { p with field := p.field ++ String.ofList (c :: cs), place } := by
  have hf : p.field.push c ++ String.ofList cs = p.field ++ String.ofList (c :: cs) := by
    apply String.toList_injective
    simp
  rw [push, hf]

/-- Inside quotes a field grows by the text whose quotes are doubled. -/
theorem run_doubled (hp : p.place = .quoted) (cs : List Char) :
    p.run o (doubled o.quote cs) = some { p with field := p.field ++ String.ofList cs } := by
  induction cs generalizing p with
  | nil =>
    rw [doubled, run, String.ofList_nil, String.append_empty]
  | cons c cs ih =>
    have hpush : (p.push c .quoted).run o (doubled o.quote cs) =
        some { p with field := p.field ++ String.ofList (c :: cs) } := by
      rw [ih rfl, push_append, ← hp]
    by_cases hc : c = o.quote
    · have hopen : p.move o o.quote = .continues { p with place := .afterQuote } := by
        rw [move, hp]
        exact if_pos rfl
      have hclose : move o { p with place := .afterQuote } o.quote =
          .continues (p.push o.quote .quoted) := if_pos rfl
      rw [hc] at hpush ⊢
      rw [doubled, if_pos rfl, run_cons hopen, run_cons hclose, hpush]
    · have hmove : p.move o c = .continues (p.push c .quoted) := by
        rw [move, hp]
        exact if_neg hc
      rw [doubled, if_neg hc, run_cons hmove, hpush]

/-- Padding in front of a field is taken for the field at first. -/
theorem run_padding (hp : p.place = .start) {cs : List Char}
    (h : ∀ c ∈ cs, o.isPadding c = true) :
    ∃ field, p.run o cs = some { p with field } := by
  induction cs generalizing p with
  | nil => exact ⟨p.field, rfl⟩
  | cons c cs ih =>
    rw [List.forall_mem_cons] at h
    obtain ⟨htrim, hblank, hbreak, hd, hq⟩ := isPadding_spec h.1
    have hmove : p.move o c = .continues (p.push c .start) := by
      have hlines : ¬ (c = '\n' ∨ c = '\r') := by simpa [isBreak] using hbreak
      rw [move, hp]
      show p.moveOutside o c = _
      rw [moveOutside, if_neg hd, if_neg hlines, if_neg (fun hc => hq hc.1),
        if_pos ⟨hp, htrim, hblank⟩]
    obtain ⟨field, hf⟩ := ih (p := p.push c .start) rfl h.2
    refine ⟨field, ?_⟩
    rw [run_cons hmove, hf, push, ← hp]

/-- Padding after a field is dropped. -/
theorem run_padding_after (hp : p.place = .afterQuote) {cs : List Char}
    (h : ∀ c ∈ cs, o.isPadding c = true) : p.run o cs = some p := by
  induction cs with
  | nil => rfl
  | cons c cs ih =>
    rw [List.forall_mem_cons] at h
    obtain ⟨htrim, hblank, hbreak, hd, hq⟩ := isPadding_spec h.1
    have hmove : p.move o c = .continues p := by
      have hlines : ¬ (c = '\n' ∨ c = '\r') := by simpa [isBreak] using hbreak
      rw [move, hp]
      show p.moveAfterQuote o c = _
      rw [moveAfterQuote, if_neg hq, if_neg hd, if_neg hlines, if_pos ⟨htrim, hblank⟩]
    rw [run_cons hmove, ih h.2]

theorem run_quoted (ho : o.IsProper) (fields : List String) (s : String)
    {before after : List Char} (hb : ∀ c ∈ before, o.isPadding c = true)
    (ha : ∀ c ∈ after, o.isPadding c = true) :
    (Progress.before fields).run o
      (before ++ o.quote :: (doubled o.quote s.toList ++ o.quote :: after)) =
        some ⟨fields, s, true, .afterQuote⟩ := by
  obtain ⟨field, hbefore⟩ := run_padding (p := .before fields) rfl hb
  have hopen : move o ⟨fields, field, false, .start⟩ o.quote =
      .continues ⟨fields, "", true, .quoted⟩ := by
    have hlines : ¬ (o.quote = '\n' ∨ o.quote = '\r') := by
      simpa [isBreak] using ho.quote_not_break
    show moveOutside o _ _ = _
    rw [moveOutside, if_neg (Ne.symm ho.delimiter_ne_quote), if_neg hlines, if_pos ⟨rfl, rfl⟩]
  have hclose : move o ⟨fields, s, true, .quoted⟩ o.quote =
      .continues ⟨fields, s, true, .afterQuote⟩ := if_pos rfl
  rw [run_append, hbefore]
  show run o ⟨fields, field, false, .start⟩ _ = _
  rw [run_cons hopen, run_append, run_doubled rfl, String.ofList_toList, String.empty_append]
  show run o ⟨fields, s, true, .quoted⟩ _ = _
  rw [run_cons hclose, run_padding_after rfl ha]

/-- Once a field without quotes has begun it grows by all characters but delimiters and breaks. -/
theorem run_bare (hp : p.place = .bare) {cs : List Char}
    (h : ∀ c ∈ cs, c ≠ o.delimiter ∧ isBreak c = false) :
    p.run o cs = some { p with field := p.field ++ String.ofList cs } := by
  induction cs generalizing p with
  | nil => rw [run, String.ofList_nil, String.append_empty]
  | cons c cs ih =>
    rw [List.forall_mem_cons] at h
    have hmove : p.move o c = .continues (p.push c .bare) := by
      have hlines : ¬ (c = '\n' ∨ c = '\r') := by simpa [isBreak] using h.1.2
      have hbare : p.place ≠ .start := by
        rw [hp]
        exact Place.noConfusion
      rw [move, hp]
      show p.moveOutside o c = _
      rw [moveOutside, if_neg h.1.1, if_neg hlines, if_neg (fun hc => hbare hc.2),
        if_neg (fun hc => hbare hc.1)]
    rw [run_cons hmove, ih rfl h.2, push_append, ← hp]

end Progress

namespace Progress

variable {o : Options}

theorem run_bare_field {s : String} (fields : List String)
    (hs : ∀ c ∈ s.toList, c ≠ o.delimiter ∧ isBreak c = false)
    (hq : s.toList.head? ≠ some o.quote) (ht : o.trim = true → trim s = s) :
    (before fields).run o s.toList =
      some ⟨fields, s, false, if s.toList = [] then .start else .bare⟩ := by
  cases hcs : s.toList with
  | nil =>
    rw [String.toList_eq_nil_iff.1 hcs]
    rfl
  | cons c cs =>
    rw [hcs] at hs hq
    rw [List.forall_mem_cons] at hs
    have hlines : ¬ (c = '\n' ∨ c = '\r') := by simpa [isBreak] using hs.1.2
    have hquote : c ≠ o.quote := fun hc => hq (congrArg some hc)
    have hblank : ¬ (o.trim = true ∧ Text.isBlank c = true) := by
      rintro ⟨htrim, hb⟩
      exact head?_not_blank (ht htrim) c (by rw [hcs]; rfl) hb
    have hmove : (before fields).move o c = .continues ((before fields).push c .bare) := by
      show (before fields).moveOutside o c = _
      rw [moveOutside, if_neg hs.1.1, if_neg hlines, if_neg (fun hc => hquote hc.1),
        if_neg (fun hc => hblank hc.2)]
    have hfield : (before fields).field ++ String.ofList (c :: cs) = s := by
      rw [← hcs, String.ofList_toList]
      exact String.empty_append
    rw [run_cons hmove, run_bare rfl hs.2, push_append, hfield, if_neg (List.cons_ne_nil c cs)]
    rfl

/-- The progress at the end of a field, with a mark of whether anything was written for it. -/
structure Ends (o : Options) (p : Progress) (record : List String) (written : List Char) :
    Prop where
  record : p.record o = record
  place : p.place ≠ .quoted
  isBlank : written ≠ [] → p.isBlank = false

/-- A written field is read to its end. -/
theorem run_field (ho : o.IsProper) {s : String} {cs : List Char} (h : WrittenField o s cs)
    (fields : List String) :
    ∃ p, (before fields).run o cs = some p ∧ p.Ends o (fields ++ [s]) cs := by
  cases h with
  | @quoted front back hb ha =>
    refine ⟨_, run_quoted ho fields s hb ha, ?_, Place.noConfusion, fun _ => ?_⟩
    · rw [record, fieldText, Bool.not_true, Bool.and_false]
      rfl
    · rw [isBlank, Bool.and_eq_false_iff]
      exact .inr rfl
  | bare hs hq ht =>
    refine ⟨_, run_bare_field fields hs hq ht, ?_, ?_, fun hn => ?_⟩
    · rw [record, fieldText, Bool.not_false, Bool.and_true]
      by_cases htrim : o.trim = true
      · rw [if_pos htrim, ht htrim]
      · rw [if_neg htrim]
    · show (if s.toList = [] then Place.start else Place.bare) ≠ _
      split <;> exact Place.noConfusion
    · rw [isBlank, Bool.and_eq_false_iff]
      exact .inr (by rw [if_neg hn]; rfl)

theorem move_delimiter (ho : o.IsProper) {p : Progress} (hp : p.place ≠ .quoted) :
    p.move o o.delimiter = .continues (p.nextField o) := by
  rw [move]
  cases hplace : p.place with
  | start | bare => exact if_pos rfl
  | quoted => exact absurd hplace hp
  | afterQuote =>
    show p.moveAfterQuote o o.delimiter = _
    rw [moveAfterQuote, if_neg ho.delimiter_ne_quote, if_pos rfl]

theorem move_break (ho : o.IsProper) {p : Progress} (hp : p.place ≠ .quoted) {c : Char}
    (hc : isBreak c = true) : p.move o c = .breaks := by
  have hlines : c = '\n' ∨ c = '\r' := by simpa [isBreak] using hc
  have hd : c ≠ o.delimiter := by
    intro he
    subst he
    rw [ho.delimiter_not_break] at hc
    cases hc
  have hq : c ≠ o.quote := by
    intro he
    subst he
    rw [ho.quote_not_break] at hc
    cases hc
  rw [move]
  cases hplace : p.place with
  | start | bare =>
    show p.moveOutside o c = _
    rw [moveOutside, if_neg hd, if_pos hlines]
  | quoted => exact absurd hplace hp
  | afterQuote =>
    show p.moveAfterQuote o c = _
    rw [moveAfterQuote, if_neg hq, if_neg hd, if_pos hlines]

/-- Written fields are read to the end of the last one. -/
theorem run_fields (ho : o.IsProper) {r : List String} {cs : List Char}
    (h : WrittenFields o r cs) (fields : List String) :
    ∃ p, (before fields).run o cs = some p ∧ p.Ends o (fields ++ r) cs := by
  induction h generalizing fields with
  | single hf => exact run_field ho hf fields
  | @cons s rest cs ds hf hrest ih =>
    obtain ⟨p, hp, hends⟩ := run_field ho hf fields
    have hnext : p.nextField o = before (fields ++ [s]) := by
      rw [nextField, hends.record]
      rfl
    obtain ⟨q, hq, hqends⟩ := ih (fields ++ [s])
    refine ⟨q, ?_, ?_, hqends.place, fun _ => ?_⟩
    · rw [run_append, hp, Option.bind_some, run_cons (move_delimiter ho hends.place), hnext, hq]
    · rw [hqends.record, List.append_assoc, List.singleton_append]
    · -- the fields before the last one are there already
      have hlen := congrArg List.length hqends.record
      have hpos := List.length_pos_of_ne_nil hrest.ne_nil
      rw [Progress.record, List.length_append, List.length_append, List.length_append] at hlen
      have hne : q.fields ≠ [] := by
        intro hnil
        simp [hnil] at hlen
        omega
      rw [isBlank, List.isEmpty_eq_false_iff.2 hne]
      rfl

end Progress

/-! ## Records -/

section Records

variable {o : Options} {r : List String} {records : List (List String)} {cs : List Char}

/-- A record on the last line is read up to the end. -/
theorem readOn_last (ho : o.IsProper) (h : WrittenRecord o r cs) (start line : Nat) :
    ∃ line', readOn o start .empty line (Source.ofChars cs) = ⟨.ok (some r), line', []⟩ := by
  obtain ⟨p, hp, hends⟩ := Progress.run_fields ho h.fields []
  obtain ⟨line', hl⟩ := Progress.readOn_of_run hp start line []
  rw [List.append_nil] at hl
  refine ⟨line', hl.trans ?_⟩
  rw [readOn_end hends.place (hends.isBlank h.ne_nil), hends.record, List.nil_append]

/-- A record is read up to the break after it. -/
theorem readOn_record (ho : o.IsProper) (h : WrittenRecord o r cs) {c : Char}
    (hc : isBreak c = true) (start line : Nat) (rest : Source) :
    ∃ line', readOn o start .empty line (Source.ofChars cs ++ .char c :: rest) =
      ⟨.ok (some r), line', Source.afterBreak c rest⟩ := by
  obtain ⟨p, hp, hends⟩ := Progress.run_fields ho h.fields []
  obtain ⟨line', hl⟩ := Progress.readOn_of_run hp start line (.char c :: rest)
  refine ⟨line' + 1, hl.trans ?_⟩
  rw [readOn_breaks (Progress.move_break ho hends.place hc) (hends.isBlank h.ne_nil), hends.record,
    List.nil_append]

/-- The end of a line begins with a break, and after that break the writing goes on. A carriage
return that is the whole end may take the line feed of a blank line with it. -/
theorem afterBreak_written (ho : o.IsProper) {ending : List Char} (he : LineEnd ending)
    (h : Written o records cs) :
    ∃ c rest ds, ending ++ cs = c :: rest ∧ isBreak c = true ∧
      Source.afterBreak c (Source.ofChars rest) = Source.ofChars ds ∧ Written o records ds ∧
      ds.length ≤ cs.length := by
  cases he with
  | lf =>
    refine ⟨'\n', cs, cs, rfl, rfl, ?_, h, Nat.le_refl _⟩
    unfold Source.afterBreak
    split
    · exact if_neg (by decide)
    · rfl
  | crlf => exact ⟨'\r', '\n' :: cs, cs, rfl, rfl, rfl, h, Nat.le_refl _⟩
  | cr =>
    by_cases hlf : ∃ ds, cs = '\n' :: ds
    · obtain ⟨ds, rfl⟩ := hlf
      exact ⟨'\r', '\n' :: ds, ds, rfl, rfl, rfl, h.of_lineFeed ho, Nat.le_succ _⟩
    · refine ⟨'\r', cs, cs, rfl, rfl, ?_, h, Nat.le_refl _⟩
      cases cs with
      | nil => rfl
      | cons d ds =>
        have hd : d ≠ '\n' := by
          intro he
          subst he
          exact hlf ⟨ds, rfl⟩
        unfold Source.afterBreak
        split
        · next hsource =>
          cases hsource
          exact absurd rfl hd
        · rfl

/-- One reading gives the first of the written records, or nothing if there is none, and leaves a
writing of the others. -/
theorem readOn_written (ho : o.IsProper) (h : Written o records cs) (start line : Nat) :
    ∃ line' ds, Written o records.tail ds ∧
      readOn o start .empty line (Source.ofChars cs) =
        ⟨.ok records.head?, line', Source.ofChars ds⟩ := by
  induction hn : cs.length using Nat.strong_induction_on generalizing cs line with
  | _ n ih =>
    subst hn
    cases h with
    | nil =>
      refine ⟨line, [], .nil, ?_⟩
      show readOn o start .empty line [] = _
      rw [readOn]
      rfl
    | last hr =>
      obtain ⟨line', hl⟩ := readOn_last ho hr start line
      exact ⟨line', [], .nil, hl⟩
    | @record r records cs ending ds hr he hrest =>
      obtain ⟨c, rest, more, hsplit, hc, hafter, hmore, -⟩ := afterBreak_written ho he hrest
      obtain ⟨line', hl⟩ := readOn_record ho hr hc start line (Source.ofChars rest)
      refine ⟨line', more, hmore, ?_⟩
      rw [hsplit, Source.ofChars, List.map_append]
      exact hl.trans (by rw [hafter]; rfl)
    | @blankLine _ ending cs he hrest =>
      obtain ⟨c, rest, more, hsplit, hc, hafter, hmore, hlen⟩ := afterBreak_written ho he hrest
      have hshort : more.length < (ending ++ cs).length := by
        have : 0 < ending.length := by cases he <;> decide
        rw [List.length_append]
        omega
      obtain ⟨line', ds, hds, hl⟩ := ih more.length hshort hmore (line + 1) rfl
      refine ⟨line', ds, hds, ?_⟩
      rw [hsplit]
      have hmove : Progress.empty.move o c = .breaks := Progress.move_break ho Place.noConfusion hc
      refine (readOn_blankLine hmove rfl start line (Source.ofChars rest)).trans ?_
      rw [hafter, hl]

end Records

/-! ## Readers -/

namespace Reader

/-- What the next calls for a record give, `count` of them. -/
def records : Nat → Reader → List (Outcome (Option (List String)))
  | 0, _ => []
  | count + 1, r => r.record.1 :: records count r.record.2

variable {o : Options} {written : List (List String)} {cs : List Char}

/-- A call for a record, without a header, gives the first of the records before the reader. -/
theorem record_written (ho : o.IsProper) (hh : o.hasHeader = false)
    (h : Written o written cs) {r : Reader} (hr : r.options = o) (hc : r.rest = Source.ofChars cs) :
    ∃ ds, Written o written.tail ds ∧ r.record.1 = .ok written.head? ∧
      r.record.2.options = o ∧ r.record.2.rest = Source.ofChars ds := by
  obtain ⟨line', ds, hds, hl⟩ := readOn_written ho h r.line r.line
  have hheader : r.ensureHeader = (.ok (), r) := by
    rw [ensureHeader, hr, hh]
    rfl
  have hread : readRecord r.options r.line r.rest =
      ⟨.ok written.head?, line', Source.ofChars ds⟩ := by
    rw [readRecord, hr, hc, hl]
  have hrecord : r.record = (.ok written.head?, r.advance ⟨.ok written.head?, line',
      Source.ofChars ds⟩) := by
    rw [record, hheader]
    show r.parse = _
    rw [parse, hread]
  rw [hrecord]
  exact ⟨ds, hds, rfl, hr, rfl⟩

theorem records_end (ho : o.IsProper) (hh : o.hasHeader = false) (count : Nat)
    (h : Written o [] cs) {r : Reader} (hr : r.options = o) (hc : r.rest = Source.ofChars cs) :
    r.records count = List.replicate count (.ok none) := by
  induction count generalizing cs r with
  | zero => rfl
  | succ count ih =>
    obtain ⟨ds, hds, hfirst, ho', hrest⟩ := record_written ho hh h hr hc
    rw [records, hfirst, ih hds ho' hrest]
    rfl

theorem records_eq (ho : o.IsProper) (hh : o.hasHeader = false) (count : Nat)
    (h : Written o written cs) {r : Reader} (hr : r.options = o)
    (hc : r.rest = Source.ofChars cs) :
    r.records (written.length + count) =
      written.map (fun record => .ok (some record)) ++ List.replicate count (.ok none) := by
  induction written generalizing cs r with
  | nil =>
    rw [List.length_nil, Nat.zero_add]
    exact records_end ho hh count h hr hc
  | cons first written ih =>
    obtain ⟨ds, hds, hfirst, ho', hrest⟩ := record_written ho hh h hr hc
    rw [List.length_cons, Nat.add_right_comm, records, hfirst, ih hds ho' hrest]
    rfl

/-- **What was written is read back.** However some records are written, calls for a record give
these records in their order, and nothing more after the last; it makes no difference whether the
text comes as characters or as bytes. -/
theorem records_of_written (ho : o.IsProper) (hh : o.hasHeader = false) {text : String}
    (h : Written o written text.toList) (count : Nat) {source : Source}
    (hs : source = .ofText text ∨ source = .ofBytes text.toByteArray.data.toList) :
    (Reader.new o source).records (written.length + count) =
      written.map (fun record => .ok (some record)) ++ List.replicate count (.ok none) := by
  refine records_eq ho hh count h rfl ?_
  rcases hs with rfl | rfl
  · rfl
  · exact Source.ofBytes_eq_ofText text

/-- A blank line, a record with a padded field in quotes and a field that is empty, and a last
record without an end to its line. -/
theorem records_of_written_quoted :
    let o : Options := { delimiter := ',', quote := '"', hasHeader := false, trim := true }
    let text := "\n \"a\"\"\n,b\" ,\r\nlast"
    let written := [["a\"\n,b", ""], ["last"]]
    o.IsProper ∧ Written o written text.toList ∧
      (Reader.new o (.ofText text)).records 3 =
        [.ok (some ["a\"\n,b", ""]), .ok (some ["last"]), .ok none] := by
  intro o text written
  have ho : o.IsProper := ⟨by decide, by decide, by decide⟩
  have hpadding : ∀ c ∈ [' '], o.isPadding c = true := List.forall_mem_singleton.2 rfl
  have hquoted : WrittenField o "a\"\n,b" " \"a\"\"\n,b\" ".toList := .quoted hpadding hpadding
  have hempty : WrittenField o "" "".toList := .bare (by simp) (by decide) (fun _ => by decide)
  have hlast : WrittenField o "last" "last".toList :=
    .bare (by simp [o, isBreak]) (by decide) (fun _ => by decide)
  have htext : text.toList = ['\n'] ++ (" \"a\"\"\n,b\" ".toList ++ ',' :: "".toList ++
      (['\r', '\n'] ++ "last".toList)) := by decide
  have hwritten : Written o written text.toList := by
    rw [htext]
    exact .blankLine .lf (.record ⟨.cons hquoted (.single hempty), by decide⟩ .crlf
      (.last ⟨.single hlast, by decide⟩))
  exact ⟨ho, hwritten, records_of_written ho rfl hwritten 1 (.inl rfl)⟩

end Reader

end SqlWright.Delimited
