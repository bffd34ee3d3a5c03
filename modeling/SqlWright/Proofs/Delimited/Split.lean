import SqlWright.Proofs.Delimited.Turns

/-!
# Texts without quotes

A text in which the quote does not occur is read as if by hand: it is cut into lines, empty lines are
left out, and every other line is cut at its delimiters. Within a line the progress of the reader is at
every place what that cut makes of the characters so far, so blanks at the front of a field, which the
reader takes for the field at first, make no difference in the end.
-/

namespace SqlWright.Delimited

open Source

/-! ## The cut by hand -/

/-- The lines of a text, without their ends. What comes after the last end is a line, too. -/
def lines : List Char → List (List Char)
  | [] => [[]]
  | '\r' :: '\n' :: cs => [] :: lines cs
  | c :: cs => if isBreak c then [] :: lines cs else (lines cs).modifyHead (c :: ·)

/-- A field as it is kept: without blanks at either end if these do not count. -/
def Options.strip (o : Options) (field : List Char) : String :=
  if o.trim then Text.trim (String.ofList field) else String.ofList field

/-- The lines of a text that are not empty, each cut at every delimiter. -/
def plainRecords (o : Options) (cs : List Char) : List (List String) :=
  ((lines cs).filter (· ≠ [])).map fun line => (line.splitOn o.delimiter).map o.strip

section Lines

variable {o : Options} {line rest : List Char}

theorem lines_plain {c : Char} (h : isBreak c = false) (cs : List Char) :
    lines (c :: cs) = (lines cs).modifyHead (c :: ·) := by
  rw [lines]
  · rw [h]
    rfl
  · rintro _ rfl
    exact absurd h (by decide)

/-- Characters that end no line go on with the line after them. -/
theorem lines_append (h : ∀ c ∈ line, isBreak c = false) :
    lines (line ++ rest) = (lines rest).modifyHead (line ++ ·) := by
  induction line with
  | nil => exact (congrFun List.modifyHead_id _).symm
  | cons c line ih =>
    rw [List.forall_mem_cons] at h
    rw [List.cons_append, lines_plain h.1, ih h.2, List.modifyHead_modifyHead]
    rfl

theorem lines_of_no_break (h : ∀ c ∈ line, isBreak c = false) : lines line = [line] := by
  have hlines : lines (line ++ []) = (lines []).modifyHead (line ++ ·) := lines_append h
  rw [List.append_nil] at hlines
  rw [hlines, lines, List.modifyHead_cons, List.append_nil]

/-- A break ends a line, and the next one begins where the reader goes on. -/
theorem exists_lines_break {c : Char} (h : isBreak c = true) (rest : List Char) :
    ∃ more, afterBreak c (ofChars rest) = ofChars more ∧ more <:+ rest ∧
      lines (c :: rest) = [] :: lines more := by
  obtain hends | ⟨rfl, feed, hfeed⟩ := endsLine_or h (ofChars rest)
  · refine ⟨rest, hends.afterBreak, List.suffix_refl rest, ?_⟩
    rw [lines, if_pos h]
    rintro more rfl rfl
    exact not_endsLine_crlf _ hends
  · obtain ⟨d, more, rfl, hd, rfl⟩ := List.map_eq_cons_iff.1 hfeed
    cases hd
    refine ⟨more, rfl, List.suffix_cons _ _, ?_⟩
    rw [lines]

/-- A line without an end is the only one. -/
theorem plainRecords_line (h : ∀ c ∈ line, isBreak c = false) :
    plainRecords o line =
      if line = [] then [] else [(line.splitOn o.delimiter).map o.strip] := by
  rw [plainRecords, lines_of_no_break h]
  by_cases hline : line = [] <;> simp [hline]

/-- A line with an end comes before the lines of the rest. -/
theorem plainRecords_append {c : Char} {more : List Char} (h : ∀ c ∈ line, isBreak c = false)
    (hmore : lines (c :: rest) = [] :: lines more) :
    plainRecords o (line ++ c :: rest) = plainRecords o line ++ plainRecords o more := by
  have hlines : lines (line ++ c :: rest) = line :: lines more := by
    rw [lines_append h, hmore, List.modifyHead_cons, List.append_nil]
  rw [plainRecords, hlines, ← List.singleton_append, List.filter_append, List.map_append,
    ← lines_of_no_break h]
  rfl

end Lines

/-! ## One line -/

namespace Progress

variable {o : Options} {p q : Progress}

theorem isBlank_of_run {cs : List Char} (h : p.run o cs = some q) (hne : cs ≠ []) :
    q.isBlank = false := by
  induction cs generalizing p with
  | nil => exact absurd rfl hne
  | cons c cs ih =>
    cases hm : p.move o c with
    | continues next =>
      rw [run_cons hm] at h
      by_cases hcs : cs = []
      · subst hcs
        cases h
        exact isBlank_of_continues hm
      · exact ih h hcs
    | breaks =>
      rw [run, hm] at h
      cases h
    | refuses =>
      rw [run, hm] at h
      cases h

/-- Outside quotes, a character that is none of the structure belongs to the field. -/
theorem move_plain {c : Char} (hp : p.place = .start ∨ p.place = .bare)
    (hb : isBreak c = false) (hq : c ≠ o.quote) (hd : c ≠ o.delimiter) :
    ∃ place, (place = .start ∨ place = .bare) ∧ p.move o c = .continues (p.push c place) := by
  have hlines : ¬ (c = '\n' ∨ c = '\r') := by simpa [isBreak] using hb
  have houtside : p.move o c = p.moveOutside o c := by
    rw [move]
    rcases hp with hp | hp <;> rw [hp]
  rw [houtside, moveOutside, if_neg hd, if_neg hlines, if_neg fun hc => hq hc.1]
  split
  · exact ⟨.start, .inl rfl, rfl⟩
  · exact ⟨.bare, .inr rfl, rfl⟩

theorem record_plain (hw : p.wasQuoted = false) :
    p.record o = p.fields ++ [o.strip p.field.toList] := by
  rw [record, fieldText, hw, Options.strip, String.ofList_toList, Bool.not_false, Bool.and_true]

/-- **What a line without quotes is read as.** The fields so far, and then the pieces between the
delimiters of what the current field holds and the line goes on with. -/
theorem run_plain (ho : o.IsProper) (hp : p.place = .start ∨ p.place = .bare)
    (hw : p.wasQuoted = false) (hd : o.delimiter ∉ p.field.toList) {cs : List Char}
    (h : ∀ c ∈ cs, isBreak c = false ∧ c ≠ o.quote) :
    ∃ q, p.run o cs = some q ∧ q.place ≠ .quoted ∧
      q.record o = p.fields ++ ((p.field.toList ++ cs).splitOn o.delimiter).map o.strip := by
  induction cs generalizing p with
  | nil =>
    refine ⟨p, rfl, ?_, ?_⟩
    · rcases hp with hp | hp <;> rw [hp] <;> exact Place.noConfusion
    · rw [List.append_nil, List.splitOn_eq_singleton hd, record_plain hw]
      rfl
  | cons c cs ih =>
    rw [List.forall_mem_cons] at h
    by_cases hc : c = o.delimiter
    · subst hc
      have hplace : p.place ≠ .quoted := by
        rcases hp with hp | hp <;> rw [hp] <;> exact Place.noConfusion
      have hempty : (p.nextField o).field.toList = [] := rfl
      have hfields : (p.nextField o).fields = p.fields ++ [o.strip p.field.toList] :=
        record_plain hw
      obtain ⟨q, hrun, hend, hq⟩ := ih (p := p.nextField o) (.inl rfl) rfl
        (by rw [hempty]; exact List.not_mem_nil) h.2
      refine ⟨q, (run_cons (move_delimiter ho hplace) cs).trans hrun, hend, ?_⟩
      rw [hq, hempty, hfields, List.splitOn_append_cons_self, List.splitOn_eq_singleton hd,
        List.append_assoc]
      rfl
    · obtain ⟨place, hnext, hmove⟩ := move_plain hp h.1.1 h.1.2 hc
      have hfield : (p.push c place).field.toList = p.field.toList ++ [c] := String.toList_push _
      have hmem : o.delimiter ∉ (p.push c place).field.toList := by
        rw [hfield, List.mem_append, List.mem_singleton, not_or]
        exact ⟨hd, Ne.symm hc⟩
      obtain ⟨q, hrun, hend, hq⟩ := ih (p := p.push c place) hnext hw hmem h.2
      refine ⟨q, (run_cons hmove cs).trans hrun, hend, ?_⟩
      rw [hq, hfield, List.append_assoc]
      rfl

end Progress

/-! ## All lines -/

section Readings

variable {o : Options} {cs : List Char}

/-- A text is a line and then nothing, or a line, a break and more. -/
theorem exists_line (cs : List Char) :
    ∃ line, (∀ c ∈ line, isBreak c = false) ∧
      (cs = line ∨ ∃ c rest, isBreak c = true ∧ cs = line ++ c :: rest) := by
  refine ⟨cs.takeWhile fun c => !isBreak c, fun c hc => ?_, ?_⟩
  · have hbreak := List.mem_takeWhile_imp hc
    simpa using hbreak
  · have hsplit := List.takeWhile_append_dropWhile (p := fun c => !isBreak c) (l := cs)
    cases hrest : cs.dropWhile fun c => !isBreak c with
    | nil =>
      left
      rw [hrest, List.append_nil] at hsplit
      exact hsplit.symm
    | cons c rest =>
      right
      have hhead := List.head?_dropWhile_not (fun c => !isBreak c) cs
      rw [hrest] at hhead hsplit
      exact ⟨c, rest, by simpa using hhead, hsplit.symm⟩

/-- What a reading makes of a line without quotes, whatever comes after it. -/
theorem exists_run_line (ho : o.IsProper) (h : ∀ c ∈ cs, isBreak c = false ∧ c ≠ o.quote) :
    ∃ q, Progress.empty.run o cs = some q ∧ q.place ≠ .quoted ∧
      q.record o = (cs.splitOn o.delimiter).map o.strip :=
  Progress.run_plain (p := .empty) ho (.inl rfl) rfl List.not_mem_nil h

/-- A last line without an end gives a record if it is not empty. -/
theorem readOn_lastLine (ho : o.IsProper) (h : ∀ c ∈ cs, isBreak c = false ∧ c ≠ o.quote)
    (start line : Nat) :
    ∃ line', readOn o start .empty line (ofChars cs) =
      ⟨.ok (plainRecords o cs).head?, line', []⟩ := by
  obtain ⟨q, hrun, hend, hrecord⟩ := exists_run_line ho h
  obtain ⟨line', hl⟩ := Progress.readOn_of_run hrun start line []
  rw [List.append_nil] at hl
  refine ⟨line', ?_⟩
  rw [hl, plainRecords_line fun c hc => (h c hc).1]
  by_cases hempty : cs = []
  · subst hempty
    cases hrun
    rw [readOn, if_neg (by decide), if_pos (by decide)]
    rfl
  · rw [readOn_end hend (Progress.isBlank_of_run hrun hempty), if_neg hempty, hrecord]
    rfl

/-- A line that is not empty gives a record, and the break after it goes with it. -/
theorem readOn_endedLine (ho : o.IsProper) (h : ∀ c ∈ cs, isBreak c = false ∧ c ≠ o.quote)
    (hne : cs ≠ []) {c : Char} (hc : isBreak c = true) (start line : Nat) (rest : Source) :
    ∃ line', readOn o start .empty line (ofChars cs ++ .char c :: rest) =
      ⟨.ok (some ((cs.splitOn o.delimiter).map o.strip)), line', afterBreak c rest⟩ := by
  obtain ⟨q, hrun, hend, hrecord⟩ := exists_run_line ho h
  obtain ⟨line', hl⟩ := Progress.readOn_of_run hrun start line (.char c :: rest)
  refine ⟨line' + 1, ?_⟩
  rw [hl, readOn_breaks (Progress.move_break ho hend hc) (Progress.isBlank_of_run hrun hne),
    hrecord]

/-- One reading of a text without quotes gives the first of its records, and leaves a text that holds the
others. -/
theorem readOn_plain (ho : o.IsProper) (hq : o.quote ∉ cs) (start line : Nat) :
    ∃ line' more, o.quote ∉ more ∧ plainRecords o more = (plainRecords o cs).tail ∧
      readOn o start .empty line (ofChars cs) =
        ⟨.ok (plainRecords o cs).head?, line', ofChars more⟩ := by
  induction hn : cs.length using Nat.strong_induction_on generalizing cs line with
  | _ n ih =>
    subst hn
    obtain ⟨front, hfront, hcs⟩ := exists_line cs
    have hplain : ∀ c ∈ front, isBreak c = false ∧ c ≠ o.quote := by
      intro c hc
      refine ⟨hfront c hc, ?_⟩
      rintro rfl
      apply hq
      rcases hcs with rfl | ⟨d, rest, -, rfl⟩
      · exact hc
      · exact List.mem_append_left _ hc
    rcases hcs with rfl | ⟨c, rest, hc, rfl⟩
    · obtain ⟨line', hl⟩ := readOn_lastLine ho hplain start line
      refine ⟨line', [], List.not_mem_nil, ?_, hl⟩
      rw [plainRecords_line hfront]
      split <;> rfl
    · obtain ⟨more, hafter, hsuffix, hlines⟩ := exists_lines_break hc rest
      have hmore : o.quote ∉ more := by
        intro hmem
        apply hq
        exact List.mem_append_right _ (List.mem_cons_of_mem _ (hsuffix.subset hmem))
      have hrecords := plainRecords_append (o := o) hfront hlines
      rw [plainRecords_line hfront] at hrecords
      by_cases hempty : front = []
      · -- Nothing stands before the break: a blank line, and the reading goes on after it.
        subst hempty
        have hmove : Progress.empty.move o c = .breaks := Progress.move_break ho Place.noConfusion hc
        have hshort : more.length < ([] ++ c :: rest).length :=
          Nat.lt_succ_of_le hsuffix.length_le
        obtain ⟨line', tail, htail, htails, hl⟩ := ih more.length hshort hmore (line + 1) rfl
        rw [if_pos rfl] at hrecords
        simp only [List.nil_append] at hrecords ⊢
        rw [hrecords]
        refine ⟨line', tail, htail, htails, ?_⟩
        refine (readOn_blankLine hmove rfl start line (ofChars rest)).trans ?_
        rw [hafter, hl]
      · obtain ⟨line', hl⟩ := readOn_endedLine ho hplain hempty hc start line (ofChars rest)
        rw [if_neg hempty, List.singleton_append] at hrecords
        rw [hafter] at hl
        rw [hrecords]
        refine ⟨line', more, hmore, rfl, ?_⟩
        rw [ofChars, List.map_append]
        exact hl

/-- A text without quotes is a source that holds its lines. -/
theorem Holds.of_plain (ho : o.IsProper) (hq : o.quote ∉ cs) (line : Nat) :
    Holds o line (ofChars cs) (plainRecords o cs) := by
  induction hrecords : plainRecords o cs generalizing cs line with
  | nil =>
    obtain ⟨line', more, -, -, hread⟩ := readOn_plain ho hq line line
    rw [hrecords] at hread
    exact .done hread
  | cons record records ih =>
    obtain ⟨line', more, hmore, htail, hread⟩ := readOn_plain ho hq line line
    rw [hrecords] at hread htail
    exact .record hread (ih hmore line' htail)

end Readings

/-! ## Readers -/

namespace Reader

variable {o : Options} {line : Nat} {source : Source} {records : List (List String)}

/-- Calls for a record give what a source holds, and nothing more after that. -/
theorem records_of_holds (hh : o.hasHeader = false) (h : Holds o line source records) (count : Nat)
    {r : Reader} (hr : r.options = o) (hs : r.rest = source) (hl : r.line = line) :
    r.records (records.length + count) =
      records.map (fun record => .ok (some record)) ++ List.replicate count (.ok none) := by
  have hrecord (r : Reader) (hr : r.options = o) : r.record = r.parse := by
    rw [record, ensureHeader, hr, hh]
    rfl
  induction h generalizing r with
  | @done line line' source rest hread =>
    have hparse := parse_eq (r := r) (t := ⟨.ok none, line', rest⟩) (by rw [hr, hs, hl, hread])
    cases count with
    | zero => rfl
    | succ count =>
      have hnone : r.record.1 = .ok none := by rw [hrecord r hr, hparse]
      obtain ⟨hend, hdue⟩ := record_none hnone
      rw [List.length_nil, Nat.zero_add, Reader.records, hnone, records_at_end hend hdue]
      rfl
  | @record line line' source rest record records hread _ ih =>
    have hparse := parse_eq (r := r) (t := ⟨.ok (some record), line', rest⟩)
      (by rw [hr, hs, hl, hread])
    have hrest := ih (r := r.advance ⟨.ok (some record), line', rest⟩) hr rfl rfl
    rw [List.length_cons, Nat.add_right_comm, Reader.records, hrecord r hr, hparse]
    exact congrArg (.ok (some record) :: ·) hrest

/-- **A text without quotes is read as it is cut by hand.** Without a header, calls for a record give
one record for every line that is not empty, with the pieces between its delimiters as its fields,
stripped if blanks around them do not count; and nothing more after the last. No call fails. It makes no
difference whether the text comes as characters or as bytes. -/
theorem records_of_plain (ho : o.IsProper) (hh : o.hasHeader = false) {text : String}
    (hq : o.quote ∉ text.toList) (count : Nat) {source : Source}
    (hs : source = .ofText text ∨ source = .ofBytes text.toByteArray.data.toList) :
    (Reader.new o source).records ((plainRecords o text.toList).length + count) =
      (plainRecords o text.toList).map (fun record => .ok (some record)) ++
        List.replicate count (.ok none) := by
  refine records_of_holds hh (Holds.of_plain ho hq 1) count rfl ?_ rfl
  rcases hs with rfl | rfl
  · rfl
  · exact Source.ofBytes_eq_ofText text

/-- Blank lines of several kinds, fields with blanks around them and inside, delimiters at both ends of a
line, a line of blanks alone, and a last line without an end. -/
theorem records_of_plain_blanks :
    let o : Options := { delimiter := ',', quote := '"', hasHeader := false, trim := true }
    let text := "\r\n a b ,c\t\n\r\n ,,\r  \n\rlast"
    o.IsProper ∧ o.quote ∉ text.toList ∧
      (Reader.new o (.ofText text)).records 6 =
        [.ok (some ["a b", "c"]), .ok (some ["", "", ""]), .ok (some [""]), .ok (some ["last"]),
          .ok none, .ok none] := by
  intro o text
  have ho : o.IsProper := ⟨by decide, by decide, by decide⟩
  have hq : o.quote ∉ text.toList := by decide
  have hcut : plainRecords o text.toList = [["a b", "c"], ["", "", ""], [""], ["last"]] := by
    decide +kernel
  have hrun := records_of_plain ho rfl hq 2 (.inl rfl)
  rw [hcut] at hrun
  exact ⟨ho, hq, hrun⟩

end Reader

end SqlWright.Delimited
