import SqlWright.Proofs.Delimited.Calls
import SqlWright.Proofs.Delimited.Lines

/-!
# The lines that errors report

Two errors of a reader give the line of a whole record: that a field in quotes has no end, and that a
record has another length than the header. Both give the line at which the reader stood when the
reading began. The record itself begins after the blank lines there, and lines that could not be decoded
were not counted, so the reported line is that of the record exactly if nothing of either kind is in
between. Records before it do no harm, whatever breaks they hold.
-/

namespace SqlWright.Delimited

open Source

/-! ## A record is no blank line -/

section Records

variable {o : Options} {p q : Progress}

theorem isBlank_push (p : Progress) (c : Char) (place : Place) :
    (p.push c place).isBlank = false := by
  have hfield : (p.field.push c).isEmpty = false := by
    rw [Bool.eq_false_iff]
    intro hempty
    have hlist := congrArg String.toList (String.isEmpty_iff.1 hempty)
    simp at hlist
  simp [Progress.isBlank, Progress.push, hfield]

theorem isBlank_nextField (o : Options) (p : Progress) : (p.nextField o).isBlank = false := by
  simp [Progress.isBlank, Progress.nextField, Progress.record]

theorem isBlank_of_place (h : p.place ≠ .start) : p.isBlank = false := by
  simp [Progress.isBlank, h]

/-- Whatever carries a record on, the record has begun after it. -/
theorem isBlank_of_continues {c : Char} (h : p.move o c = .continues q) : q.isBlank = false := by
  have houtside (hm : p.moveOutside o c = .continues q) : q.isBlank = false := by
    rw [Progress.moveOutside] at hm
    split at hm
    · cases hm
      exact isBlank_nextField o p
    · split at hm
      · cases hm
      · split at hm
        · cases hm
          exact isBlank_of_place Place.noConfusion
        · split at hm <;> cases hm <;> exact isBlank_push _ _ _
  unfold Progress.move at h
  split at h
  · exact houtside h
  · exact houtside h
  · split at h <;> cases h
    · exact isBlank_of_place Place.noConfusion
    · exact isBlank_push _ _ _
  · next hp =>
    rw [Progress.moveAfterQuote] at h
    split at h
    · cases h
      exact isBlank_push _ _ _
    · split at h
      · cases h
        exact isBlank_nextField o p
      · split at h
        · cases h
        · split at h
          · cases h
            exact isBlank_of_place (by rw [hp]; exact Place.noConfusion)
          · cases h

end Records

/-! ## Fields without an end -/

/-- A source that begins with a record ends inside a field in quotes. -/
def EndsQuoted (o : Options) (source : Source) : Prop :=
  ∃ cs q, source = ofChars cs ∧ Progress.empty.run o cs = some q ∧ q.place = .quoted

section Reading

variable {o : Options}

/-- A source carries a record on, all of it, and into quotes. -/
def Progress.IntoQuotes (o : Options) (p : Progress) (source : Source) : Prop :=
  ∃ cs q, source = ofChars cs ∧ p.run o cs = some q ∧ q.place = .quoted

theorem intoQuotes_nil {p : Progress} : p.IntoQuotes o [] ↔ p.place = .quoted := by
  constructor
  · rintro ⟨cs, q, hcs, hrun, hq⟩
    cases cs with
    | nil =>
      cases hrun
      exact hq
    | cons c cs => cases hcs
  · intro hp
    exact ⟨[], p, rfl, rfl, hp⟩

theorem not_intoQuotes_undecodable {p : Progress} {rest : Source} :
    ¬ p.IntoQuotes o (.undecodable :: rest) := by
  rintro ⟨cs, q, hcs, -⟩
  cases cs <;> cases hcs

/-- Only a character that the record goes on with leads into quotes. -/
theorem intoQuotes_char {p : Progress} {c : Char} {rest : Source} :
    p.IntoQuotes o (.char c :: rest) ↔ ∃ q, p.move o c = .continues q ∧ q.IntoQuotes o rest := by
  constructor
  · rintro ⟨cs, r, hcs, hrun, hr⟩
    cases cs with
    | nil => cases hcs
    | cons d cs =>
      cases hcs
      rw [Progress.run] at hrun
      cases hm : p.move o c with
      | continues q =>
        rw [hm] at hrun
        exact ⟨q, rfl, cs, r, rfl, hrun, hr⟩
      | breaks =>
        rw [hm] at hrun
        cases hrun
      | refuses =>
        rw [hm] at hrun
        cases hrun
  · rintro ⟨q, hm, cs, r, rfl, hrun, hr⟩
    exact ⟨c :: cs, r, rfl, (Progress.run_cons hm cs).trans hrun, hr⟩

/-- In a record, or right before one, a reading reports a field without an end exactly if the rest of
the source carries the record on and into quotes. -/
theorem readOn_unterminated {p : Progress} {source : Source}
    (h : p.isBlank = false ∨ ∀ symbol ∈ source.head?, symbol.isBreak = false)
    (start n line : Nat) :
    (readOn o start p line source).result = .error (.malformed n .unterminatedQuote) ↔
      n = start ∧ p.IntoQuotes o source := by
  induction source generalizing p line with
  | nil =>
    rw [intoQuotes_nil, readOn]
    by_cases hp : p.place = .quoted
    · rw [if_pos hp]
      constructor
      · rintro ⟨⟩
        exact ⟨rfl, hp⟩
      · rintro ⟨rfl, -⟩
        rfl
    · rw [if_neg hp]
      constructor
      · intro hresult
        split at hresult <;> cases hresult
      · intro hq
        exact absurd hq.2 hp
  | cons symbol rest ih =>
    cases symbol with
    | undecodable =>
      rw [readOn]
      constructor
      · intro hresult
        cases hresult
      · intro hquotes
        exact absurd hquotes.2 not_intoQuotes_undecodable
    | char c =>
      rw [intoQuotes_char]
      cases hm : p.move o c with
      | continues q =>
        rw [readOn_continues hm, ih (.inl (isBlank_of_continues hm))]
        simp
      | breaks =>
        have hp : p.isBlank = false := by
          rcases h with h | h
          · exact h
          · have hplain := h _ rfl
            rw [show (Symbol.char c).isBreak = isBreak c from rfl, (move_breaks hm).2] at hplain
            cases hplain
        rw [readOn_breaks hm hp]
        simp
      | refuses =>
        rw [readOn, hm]
        simp

/-- What a reading gives without an error does not depend on the count of lines. -/
theorem readOn_ok {p : Progress} {record : Option (List String)} {start line : Nat}
    {source : Source} (h : (readOn o start p line source).result = .ok record)
    (start' line' : Nat) : (readOn o start' p line' source).result = .ok record := by
  fun_induction readOn o start p line source generalizing line' with
  | case1 | case4 | case8 => cases h
  | case2 p line hp hb =>
    rw [readOn, if_neg hp, if_pos hb]
    exact h
  | case3 p line hp hb =>
    rw [readOn, if_neg hp, if_neg hb]
    exact h
  | case5 p line c rest q hm ih =>
    rw [readOn_continues hm]
    exact ih h _
  | case6 p line c rest hm _ hb ih =>
    rw [readOn_blankLine hm hb]
    exact ih h _
  | case7 p line c rest hm _ hb =>
    rw [readOn_breaks hm (Bool.eq_false_iff.2 hb)]
    exact h

/-- The errors of a reading: the text is malformed, or a line of it cannot be decoded. -/
theorem readOn_error {e : Error} (start : Nat) (p : Progress) (line : Nat) (source : Source)
    (h : (readOn o start p line source).result = .error e) :
    (∃ n fault, e = .malformed n fault) ∨ e = .unreadable .notUtf8 := by
  fun_induction readOn o start p line source with
  | case1 | case8 =>
    cases h
    exact .inl ⟨_, _, rfl⟩
  | case2 | case3 | case7 => cases h
  | case4 =>
    cases h
    exact .inr rfl
  | case5 _ _ _ _ _ _ ih => exact ih h
  | case6 _ _ _ _ _ _ _ ih => exact ih h

end Reading

/-! ## What a call reads last -/

/-- The error that a call gives. -/
def Answer.error? : Answer → Option Error
  | .names (.error e) | .record (.error e) | .pairs (.error e) | .next (some (.error e)) => some e
  | _ => none

namespace Reader

/-- Whether a call has to see to the header first. -/
def headerDue (r : Reader) : Bool :=
  r.options.hasHeader && !r.headerRead

/-- The reader at the beginning of the last reading that a call makes. A call for the names reads the
header or nothing; the others read a record after it, if the header can be read. -/
def reading? (r : Reader) : Call → Option Reader
  | .names => if r.headerDue then some r else none
  | .record | .pairs | .next =>
    match r.ensureHeader with
    | (.ok _, after) => some after
    | (.error _, _) => some r

/-- What a reader has taken of a source. -/
def taken (r : Reader) (source : Source) : Source :=
  source.take (source.length - r.rest.length)

/-- The line on which the next record begins. -/
def recordLine (r : Reader) (source : Source) : Nat :=
  (r.taken source ++ r.rest.blank).lineEnds + 1

variable {o : Options} {source before : Source} {r s : Reader}

/-! ### Where it begins -/

theorem Stands.taken_eq (h : r.Stands o source before) : r.taken source = before := by
  have hlength : source.length - r.rest.length = before.length := by
    rw [h.source_eq, List.length_append]
    omega
  rw [taken, hlength, h.source_eq, List.take_left]

theorem Stands.recordLine_eq (h : r.Stands o source before) :
    r.line + (r.rest.blank.lineEnds + before.count .undecodable) = r.recordLine source := by
  have hparts : Parts before r.rest.blank := by
    intro hlast hfeed
    apply h.parts hlast
    rw [← blank_append_ahead r.rest, List.head?_append, hfeed]
    rfl
  have hline := h.line
  rw [recordLine, h.taken_eq, lineEnds_append hparts]
  omega

theorem Stands.line_eq_iff (h : r.Stands o source before) :
    r.line = r.recordLine source ↔ r.rest.blank = [] ∧ .undecodable ∉ r.taken source := by
  have hrecord := h.recordLine_eq
  rw [h.taken_eq, ← lineEnds_blank_eq_zero, ← List.count_eq_zero]
  omega

/-! ### How a call comes to it -/

/-- The header is there or not wanted, or it is read now, or it cannot be read. -/
theorem ensureHeader_cases (r : Reader) :
    (r.headerDue = false ∧ r.ensureHeader = (.ok (), r)) ∨
    (r.headerDue = true ∧ ∃ headers, r.parse.1 = .ok headers ∧
      r.ensureHeader = (.ok (), { r.parse.2 with headers, headerRead := true })) ∨
    (r.headerDue = true ∧ ∃ e, r.parse.1 = .error e ∧
      r.ensureHeader = (.error e, { r.parse.2 with headerRead := true })) := by
  rw [ensureHeader, ← headerDue]
  cases hdue : r.headerDue with
  | false => exact .inl ⟨rfl, rfl⟩
  | true =>
    right
    rw [if_pos rfl]
    generalize r.parse = read
    obtain ⟨outcome, after⟩ := read
    cases outcome with
    | ok headers => exact .inl ⟨rfl, headers, rfl, rfl⟩
    | error e => exact .inr ⟨rfl, e, rfl, rfl⟩

theorem pairs_snd (r : Reader) : r.pairs.2 = r.record.2 := by
  rw [pairs, record]
  generalize r.ensureHeader = read
  obtain ⟨outcome, after⟩ := read
  cases outcome with
  | error e => rfl
  | ok _ =>
    dsimp only
    generalize after.parse = read
    obtain ⟨outcome, last⟩ := read
    rcases outcome with e | _ | record <;> rfl

theorem next_snd (r : Reader) : r.next.2 = r.record.2 := by
  rw [next]
  generalize r.record = read
  obtain ⟨outcome, after⟩ := read
  rcases outcome with e | _ | record <;> rfl

theorem names_snd (r : Reader) : r.names.2 = r.ensureHeader.2 := by
  rw [names]
  generalize r.ensureHeader = read
  obtain ⟨outcome, after⟩ := read
  cases outcome <;> rfl

/-- A call makes no reading and leaves the reader as it is, or its last reading leaves the reader, up to
what is known of the header. That reading begins where the call does, or after the header. -/
theorem reading?_cases (r : Reader) (c : Call) :
    (r.reading? c = none ∧ (r.call c).2 = r) ∨
    ∃ s headers headerRead, r.reading? c = some s ∧
      (r.call c).2 = { s.parse.2 with headers, headerRead } ∧
      (s = r ∨ ∃ names, r.parse.1 = .ok names ∧
        s = { r.parse.2 with headers := names, headerRead := true }) := by
  have hrecord : ∃ s headers headerRead, r.reading? .record = some s ∧
      r.record.2 = { s.parse.2 with headers, headerRead } ∧
      (s = r ∨ ∃ names, r.parse.1 = .ok names ∧
        s = { r.parse.2 with headers := names, headerRead := true }) := by
    obtain ⟨-, heq⟩ | ⟨-, names, hok, heq⟩ | ⟨-, e, -, heq⟩ := r.ensureHeader_cases
    · exact ⟨r, r.headers, r.headerRead, by rw [reading?, heq], by rw [record, heq]; rfl, .inl rfl⟩
    · exact ⟨{ r.parse.2 with headers := names, headerRead := true }, names, true,
        by rw [reading?, heq], by rw [record, heq]; rfl, .inr ⟨names, hok, rfl⟩⟩
    · exact ⟨r, r.headers, true, by rw [reading?, heq], by rw [record, heq]; rfl, .inl rfl⟩
  cases c with
  | record => exact .inr hrecord
  | pairs =>
    right
    show ∃ s headers headerRead, r.reading? .record = some s ∧ r.pairs.2 = _ ∧ _
    rw [pairs_snd]
    exact hrecord
  | next =>
    right
    show ∃ s headers headerRead, r.reading? .record = some s ∧ r.next.2 = _ ∧ _
    rw [next_snd]
    exact hrecord
  | names =>
    show (r.reading? .names = none ∧ r.names.2 = r) ∨
      ∃ s headers headerRead, r.reading? .names = some s ∧ r.names.2 = _ ∧ _
    rw [names_snd, reading?]
    obtain ⟨hdue, heq⟩ | ⟨hdue, names, -, heq⟩ | ⟨hdue, e, -, heq⟩ := r.ensureHeader_cases
    · exact .inl ⟨by rw [hdue, if_neg Bool.false_ne_true], by rw [heq]⟩
    · exact .inr ⟨r, names, true, by rw [hdue, if_pos rfl], by rw [heq], .inl rfl⟩
    · exact .inr ⟨r, r.headers, true, by rw [hdue, if_pos rfl], by rw [heq]; rfl, .inl rfl⟩

/-- The last reading of a call begins where a reader stands. -/
theorem Stands.reading (ho : o.IsProper) (h : r.Stands o source before) {c : Call}
    (hs : r.reading? c = some s) : ∃ more, s.Stands o source (before ++ more) := by
  obtain ⟨hnone, -⟩ | ⟨t, _, _, ht, -, hfrom⟩ := r.reading?_cases c
  · rw [hnone] at hs
    cases hs
  · obtain rfl := Option.some.inj (ht.symm.trans hs)
    obtain rfl | ⟨names, -, rfl⟩ := hfrom
    · refine ⟨[], ?_⟩
      rw [List.append_nil]
      exact h
    · obtain ⟨more, hmore⟩ := h.parse ho
      exact ⟨more, hmore.withHeader names true⟩

/-- **What one call preserves.** -/
theorem Stands.call (ho : o.IsProper) (h : r.Stands o source before) (c : Call) :
    ∃ more, (r.call c).2.Stands o source (before ++ more) := by
  obtain ⟨-, hafter⟩ | ⟨s, headers, headerRead, hs, hafter, -⟩ := r.reading?_cases c
  · refine ⟨[], ?_⟩
    rw [hafter, List.append_nil]
    exact h
  · obtain ⟨first, hfirst⟩ := h.reading ho hs
    obtain ⟨more, hmore⟩ := hfirst.parse ho
    rw [List.append_assoc] at hmore
    refine ⟨first ++ more, ?_⟩
    rw [hafter]
    exact hmore.withHeader headers headerRead

/-- **What any calls preserve.** -/
theorem Stands.after (ho : o.IsProper) (h : r.Stands o source before) (calls : List Call) :
    ∃ more, (r.after calls).Stands o source (before ++ more) := by
  induction calls generalizing r before with
  | nil =>
    refine ⟨[], ?_⟩
    rw [List.append_nil]
    exact h
  | cons c calls ih =>
    obtain ⟨first, hfirst⟩ := h.call ho c
    obtain ⟨more, hmore⟩ := ih hfirst
    rw [List.append_assoc] at hmore
    exact ⟨first ++ more, hmore⟩

/-! ### What it reports -/

/-- A call for a record gives what its last reading gives. -/
theorem exists_reading (r : Reader) :
    ∃ s, r.reading? .record = some s ∧ r.record.1 = s.parse.1 := by
  obtain ⟨-, heq⟩ | ⟨-, headers, -, heq⟩ | ⟨-, e, he, heq⟩ := r.ensureHeader_cases
  · exact ⟨r, by rw [reading?, heq], by rw [record, heq]⟩
  · exact ⟨_, by rw [reading?, heq], by rw [record, heq]⟩
  · exact ⟨r, by rw [reading?, heq], by rw [record, heq, he]⟩

theorem error?_record (r : Reader) (e : Error) :
    (r.call .record).1.error? = some e ↔
      ∃ s, r.reading? .record = some s ∧ s.parse.1 = .error e := by
  obtain ⟨s, hs, hrecord⟩ := r.exists_reading
  have hiff : (r.call .record).1.error? = some e ↔ s.parse.1 = .error e := by
    show (Answer.record r.record.1).error? = some e ↔ _
    rw [hrecord]
    cases s.parse.1 <;> simp [Answer.error?]
  rw [hiff, hs]
  simp

theorem error?_next (r : Reader) (e : Error) :
    (r.call .next).1.error? = some e ↔ (r.call .record).1.error? = some e := by
  show (Answer.next r.next.1).error? = some e ↔ (Answer.record r.record.1).error? = some e
  rw [next]
  generalize r.record = read
  obtain ⟨outcome, after⟩ := read
  rcases outcome with e | _ | record <;> exact Iff.rfl

theorem error?_names (r : Reader) (e : Error) :
    (r.call .names).1.error? = some e ↔
      ∃ s, r.reading? .names = some s ∧ s.parse.1 = .error e := by
  show (Answer.names r.names.1).error? = some e ↔ _
  obtain ⟨hdue, heq⟩ | ⟨hdue, headers, hok, heq⟩ | ⟨hdue, f, hf, heq⟩ := r.ensureHeader_cases
  · rw [names, heq, reading?, hdue]
    simp [Answer.error?]
  · rw [names, heq, reading?, hdue]
    simp [Answer.error?, hok]
  · rw [names, heq, reading?, hdue]
    simp [Answer.error?, hf]

/-- A call for a record under names gives what its last reading gives, under the names that are there
then and the line where that reading began. -/
theorem error?_pairs (r : Reader) (e : Error) :
    (r.call .pairs).1.error? = some e ↔
      ∃ s, r.reading? .pairs = some s ∧ (s.parse.1 = .error e ∨
        ∃ record, s.parse.1 = .ok (some record) ∧ named s.headers s.line record = .error e) := by
  show (Answer.pairs r.pairs.1).error? = some e ↔ _
  have hread (s : Reader) (hs : r.ensureHeader = (.ok (), s)) :
      (Answer.pairs r.pairs.1).error? = some e ↔ s.parse.1 = .error e ∨
        ∃ record, s.parse.1 = .ok (some record) ∧ named s.headers s.line record = .error e := by
    rw [pairs, hs]
    dsimp only
    generalize s.parse = read
    obtain ⟨outcome, after⟩ := read
    rcases outcome with f | _ | record
    · simp [Answer.error?]
    · simp [Answer.error?]
    · dsimp only
      cases hnamed : named s.headers s.line record <;> simp [Answer.error?, Except.map, hnamed]
  obtain ⟨-, heq⟩ | ⟨-, headers, -, heq⟩ | ⟨-, f, hf, heq⟩ := r.ensureHeader_cases
  · rw [hread r heq, reading?, heq]
    simp
  · rw [hread _ heq, reading?, heq]
    simp
  · rw [pairs, heq, reading?, heq]
    simp [Answer.error?, hf]

theorem named_eq_error {headers : Option (List String)} {line : Nat} {record : List String}
    {e : Error} : named headers line record = .error e ↔
      (headers = none ∧ e = .misuse .pairsWithoutHeader) ∨
      ∃ names, headers = some names ∧ names.length ≠ record.length ∧
        e = .columnMismatch line names.length record.length := by
  cases headers with
  | none => simp [named, eq_comm]
  | some names =>
    rw [named]
    by_cases hlength : names.length = record.length
    · simp [hlength]
    · rw [if_neg hlength]
      simp [hlength, eq_comm (a := e)]

/-- An error that is not about the names comes from the last reading of a call. -/
theorem call_error {e : Error}
    (he : ∀ headers line record, named headers line record ≠ .error e) (r : Reader) (c : Call) :
    (r.call c).1.error? = some e ↔ ∃ s, r.reading? c = some s ∧ s.parse.1 = .error e := by
  cases c with
  | names => exact r.error?_names e
  | record => exact r.error?_record e
  | next => exact (r.error?_next e).trans (r.error?_record e)
  | pairs =>
    rw [error?_pairs]
    simp [he]

theorem call_malformed (r : Reader) (c : Call) (n : Nat) (fault : Malformed) :
    (r.call c).1.error? = some (.malformed n fault) ↔
      ∃ s, r.reading? c = some s ∧ s.parse.1 = .error (.malformed n fault) :=
  call_error (by simp [named_eq_error]) r c

/-- A record of another length than the header is reported under the line where its reading began. -/
theorem call_columnMismatch (r : Reader) (c : Call) (n expected found : Nat) :
    (r.call c).1.error? = some (.columnMismatch n expected found) ↔
      c = .pairs ∧ ∃ s names record, r.reading? c = some s ∧ s.headers = some names ∧
        s.parse.1 = .ok (some record) ∧ names.length = expected ∧ record.length = found ∧
        expected ≠ found ∧ n = s.line := by
  have hread (s : Reader) : s.parse.1 ≠ .error (.columnMismatch n expected found) := by
    intro hs
    obtain ⟨_, _, h⟩ | h := readOn_error _ _ _ _ hs <;> cases h
  cases c with
  | names =>
    rw [error?_names]
    simp [hread]
  | record =>
    rw [error?_record]
    simp [hread]
  | next =>
    rw [error?_next, error?_record]
    simp [hread]
  | pairs =>
    rw [error?_pairs]
    simp only [hread, false_or, named_eq_error, reduceCtorEq, and_false, true_and]
    constructor
    · rintro ⟨s, hs, record, hrecord, names, hnames, hne, he⟩
      cases he
      exact ⟨s, names, record, hs, hnames, hrecord, rfl, rfl, hne, rfl⟩
    · rintro ⟨s, names, record, hs, hnames, hrecord, rfl, rfl, hne, rfl⟩
      exact ⟨s, hs, record, hrecord, names, hnames, hne, rfl⟩

/-! ### The lines of a report -/

theorem parse_unterminated (ho : s.options.IsProper) (n : Nat) :
    s.parse.1 = .error (.malformed n .unterminatedQuote) ↔
      EndsQuoted s.options s.rest.ahead ∧ n = s.line := by
  show (readOn s.options s.line .empty s.line s.rest).result = _ ↔ _
  rw [readOn_ahead ho, readOn_unterminated (.inr (head?_ahead s.rest))]
  exact and_comm

theorem parse_eq_record (ho : s.options.IsProper) (record : List String) (line : Nat) :
    s.parse.1 = .ok (some record) ↔
      (readRecord s.options line s.rest.ahead).result = .ok (some record) := by
  show (readOn s.options s.line .empty s.line s.rest).result = _ ↔ _
  rw [readOn_ahead ho, readRecord]
  exact ⟨fun h => readOn_ok h _ _, fun h => readOn_ok h _ _⟩

/-- **The line of a report is the line of its record, less what was not counted.** After any calls, a
call reports a field without an end exactly if the record that it reads last runs into one, and a
record of another length than the header exactly if it asks for pairs and reads such a record last. Both
reports give the line of the reader before that reading. The blank lines before the record, and the
lines that could not be decoded, are what this line lacks; it is the line on which the record begins
exactly if there are none. -/
theorem reported_line_iff (ho : o.IsProper) (source : Source) (calls : List Call) (c : Call) :
    let r := (Reader.new o source).after calls
    (∀ n, (r.call c).1.error? = some (.malformed n .unterminatedQuote) ↔
      ∃ s, r.reading? c = some s ∧ EndsQuoted o s.rest.ahead ∧ n = s.line) ∧
    (∀ n expected found, (r.call c).1.error? = some (.columnMismatch n expected found) ↔
      c = .pairs ∧ ∃ s names record, r.reading? c = some s ∧ s.headers = some names ∧
        (readRecord o (s.recordLine source) s.rest.ahead).result = .ok (some record) ∧
        names.length = expected ∧ record.length = found ∧ expected ≠ found ∧ n = s.line) ∧
    ∀ s, r.reading? c = some s →
      s.line + (s.rest.blank.lineEnds + (s.taken source).count .undecodable) =
        s.recordLine source ∧
      (s.line = s.recordLine source ↔ s.rest.blank = [] ∧ .undecodable ∉ s.taken source) := by
  intro r
  obtain ⟨before, hr⟩ := (Stands.new o source).after ho calls
  have hreading (s : Reader) (hs : r.reading? c = some s) :
      ∃ before, s.Stands o source before := by
    obtain ⟨more, hmore⟩ := hr.reading ho hs
    exact ⟨_, hmore⟩
  refine ⟨fun n => ?_, fun n expected found => ?_, fun s hs => ?_⟩
  · rw [call_malformed]
    refine exists_congr fun s => and_congr_right fun hs => ?_
    obtain ⟨_, rfl, -, -, -⟩ := hreading s hs
    exact parse_unterminated ho n
  · rw [call_columnMismatch]
    refine and_congr_right fun _ => exists_congr fun s => exists_congr fun names =>
      exists_congr fun record => and_congr_right fun hs => and_congr_right fun _ => ?_
    obtain ⟨_, rfl, -, -, -⟩ := hreading s hs
    rw [parse_eq_record ho]
  · obtain ⟨before, hbefore⟩ := hreading s hs
    refine ⟨?_, hbefore.line_eq_iff⟩
    rw [hbefore.taken_eq]
    exact hbefore.recordLine_eq

/-- A record that follows one with a break inside quotes: the header takes the first line, that record
the next two, and the report gives the fourth. -/
theorem reported_line_iff_embedded :
    let o : Options := { delimiter := ',', quote := '"', hasHeader := true, trim := false }
    let source := ofText "id,name\n1,\"a\r\nb\"\r\n\"open,\nstill open\n"
    let r := (Reader.new o source).after [.names, .record]
    o.IsProper ∧ (r.call .pairs).1.error? = some (.malformed 4 .unterminatedQuote) ∧
      ∃ s, r.reading? .pairs = some s ∧ EndsQuoted o s.rest.ahead ∧ s.recordLine source = 4 := by
  intro o source r
  have ho : o.IsProper := ⟨by decide, by decide, by decide⟩
  have hreport : (r.call .pairs).1.error? = some (.malformed 4 .unterminatedQuote) := by
    decide +kernel
  obtain ⟨hquoted, -, hline⟩ := reported_line_iff ho source [.names, .record] .pairs
  obtain ⟨s, hs, hends, hn⟩ := (hquoted 4).1 hreport
  have hplace : s.rest.blank = [] ∧ .undecodable ∉ s.taken source := by
    have hhere : r.reading? .pairs = some r := by decide +kernel
    rw [hhere] at hs
    cases hs
    decide +kernel
  exact ⟨ho, hreport, s, hs, hends, ((hline s hs).2.2 hplace).symm.trans hn.symm⟩

/-- A blank line before a record that has no end, or that is too long, and a line before it that cannot
be decoded: the reports give the line before that of the record. -/
theorem reported_line_of_blank_line :
    let o : Options := { delimiter := ',', quote := '"', hasHeader := true, trim := false }
    let report (source : Source) (c : Call) :=
      let r := (Reader.new o source).after [.names]
      ((r.call c).1.error?, (r.reading? c).map (·.recordLine source))
    o.IsProper ∧
      report (ofText "a\n\n\"b") .record = (some (.malformed 2 .unterminatedQuote), some 3) ∧
      report (ofText "a\n\nb,c") .pairs = (some (.columnMismatch 2 1 2), some 3) ∧
      report (ofBytes [0xff, 0x0a, 0x22, 0x62]) .record =
        (some (.malformed 1 .unterminatedQuote), some 2) := by
  refine ⟨⟨by decide, by decide, by decide⟩, ?_, ?_, ?_⟩
  · decide +kernel
  · decide +kernel
  · decide +kernel

end Reader

end SqlWright.Delimited
