import SqlWright.Proofs.Delimited.Reported

/-!
# Reading comes to an end

A reading is a loop. A turn of it takes what comes next in the source, and either goes on with a
shorter source or is the last one, so there are no more turns than symbols and one. This needs nothing
of the options: the delimiter and the quote may be any characters, also breaks, also the same. A call for
a record is one such loop or two, it takes something from the source unless it gives nothing, and where it
gave nothing once it does so again. So calls that go on after errors get to the end.
-/

namespace SqlWright.Delimited

open Source

/-! ## One turn -/

/-- A reading between two turns: what was read of the record, the count of lines and what is left. -/
structure Pass where
  progress : Progress
  line : Nat
  rest : Source

namespace Pass

/-- One turn of a reading that began at a line: it goes on, or it has what the reading takes. -/
def turn (o : Options) (start : Nat) (s : Pass) : Pass ⊕ Taken (Option (List String)) :=
  match s.rest with
  | [] =>
    if s.progress.place = .quoted then
      .inr ⟨.error (.malformed start .unterminatedQuote), s.line, []⟩
    else if s.progress.isBlank then .inr ⟨.ok none, s.line, []⟩
    else .inr ⟨.ok (some (s.progress.record o)), s.line, []⟩
  | .undecodable :: rest => .inr ⟨.error (.unreadable .notUtf8), s.line, rest⟩
  | .char c :: rest =>
    match s.progress.move o c with
    | .continues q => .inl ⟨q, s.line + s.progress.passedLines o c rest, rest⟩
    | .breaks =>
      if s.progress.isBlank then .inl ⟨s.progress, s.line + 1, afterBreak c rest⟩
      else .inr ⟨.ok (some (s.progress.record o)), s.line + 1, afterBreak c rest⟩
    | .refuses => .inr ⟨.error (.malformed s.line (.afterQuote c)), s.line, rest⟩

/-- A reading that is over after `n` turns, with what it has taken. -/
inductive Ends (o : Options) (start : Nat) : Pass → Nat → Taken (Option (List String)) → Prop
  | last {s : Pass} {t : Taken (Option (List String))} : s.turn o start = .inr t → Ends o start s 1 t
  | next {s after : Pass} {n : Nat} {t : Taken (Option (List String))} :
      s.turn o start = .inl after → Ends o start after n t → Ends o start s (n + 1) t

/-- What is taken when a reading goes on from here. -/
def taken (o : Options) (start : Nat) (s : Pass) : Taken (Option (List String)) :=
  readOn o start s.progress s.line s.rest

/-- **What one turn does.** The last turn has what the reading takes, and leaves no more than there was.
Any other takes something, and the reading goes on to take the same. -/
theorem turn_cases (o : Options) (start : Nat) (s : Pass) :
    (s.turn o start = .inr (s.taken o start) ∧
      (s.taken o start).rest.length ≤ s.rest.length) ∨
    ∃ after : Pass, s.turn o start = .inl after ∧ after.taken o start = s.taken o start ∧
      after.rest.length < s.rest.length := by
  obtain ⟨p, line, source⟩ := s
  rw [turn]
  show _ ∧ (readOn o start p line source).rest.length ≤ source.length ∨
    ∃ after : Pass, _ ∧ after.taken o start = readOn o start p line source ∧ _ < source.length
  rw [taken]
  cases source with
  | nil =>
    left
    dsimp only
    rw [readOn]
    split
    · exact ⟨rfl, Nat.le_refl _⟩
    · split
      · exact ⟨rfl, Nat.le_refl _⟩
      · exact ⟨rfl, Nat.le_refl _⟩
  | cons symbol rest =>
    cases symbol with
    | undecodable =>
      left
      dsimp only
      rw [readOn]
      exact ⟨rfl, Nat.le_succ _⟩
    | char c =>
      dsimp only
      cases hm : p.move o c with
      | continues q =>
        right
        exact ⟨_, rfl, (readOn_continues hm start line rest).symm, Nat.lt_succ_self _⟩
      | breaks =>
        have hlength := afterBreak_length c rest
        dsimp only
        cases hb : p.isBlank with
        | true =>
          right
          rw [if_pos rfl]
          exact ⟨_, rfl, (readOn_blankLine hm hb start line rest).symm,
            Nat.lt_succ_of_le hlength⟩
        | false =>
          left
          rw [readOn_breaks hm hb, if_neg Bool.false_ne_true]
          exact ⟨rfl, Nat.le_succ_of_le hlength⟩
      | refuses =>
        left
        rw [readOn, hm]
        exact ⟨rfl, Nat.le_succ _⟩

/-- **What all turns do.** Every reading is over after at most as many turns as it takes symbols, and
one, and what they come to is what the reader takes. -/
theorem exists_ends (o : Options) (start : Nat) (s : Pass) :
    ∃ n, Ends o start s n (s.taken o start) ∧
      n + (s.taken o start).rest.length ≤ s.rest.length + 1 := by
  induction hn : s.rest.length using Nat.strong_induction_on generalizing s with
  | _ n ih =>
    subst hn
    obtain ⟨hturn, hle⟩ | ⟨after, hturn, htaken, hshort⟩ := turn_cases o start s
    · exact ⟨1, .last hturn, by omega⟩
    · obtain ⟨n, hends, hle⟩ := ih after.rest.length hshort after rfl
      rw [htaken] at hends hle
      exact ⟨n + 1, .next hturn hends, by omega⟩

end Pass

/-! ## One call -/

/-- The source after a break is an end of the source before it. -/
theorem Source.afterBreak_suffix (c : Char) (rest : Source) : afterBreak c rest <:+ rest := by
  unfold afterBreak
  split
  · split
    · exact List.suffix_cons _ _
    · exact List.suffix_refl _
  · exact List.suffix_refl _

/-- A reading takes from the front of the source. -/
theorem readOn_suffix (o : Options) (start : Nat) (p : Progress) (line : Nat) (source : Source) :
    (readOn o start p line source).rest <:+ source := by
  fun_induction readOn o start p line source with
  | case1 | case2 | case3 => exact List.suffix_refl _
  | case4 | case8 => exact List.suffix_cons _ _
  | case5 _ _ _ _ _ _ ih => exact ih.trans (List.suffix_cons _ _)
  | case6 _ _ _ _ _ _ _ ih =>
    exact ih.trans ((afterBreak_suffix _ _).trans (List.suffix_cons _ _))
  | case7 => exact (afterBreak_suffix _ _).trans (List.suffix_cons _ _)

namespace Reader

variable {r : Reader}

/-- The reading that a reader begins. -/
def pass (r : Reader) : Pass :=
  ⟨.empty, r.line, r.rest⟩

/-- A call for a record that is over after `n` turns of its readings, with what it gives and the reader
that it leaves. A header that is due is read first, and the call ends there if it cannot be read. -/
inductive RecordEnds (r : Reader) :
    Nat → Outcome (Option (List String)) × Reader → Prop
  | record {n : Nat} {t : Taken (Option (List String))} : r.headerDue = false →
      r.pass.Ends r.options r.line n t → RecordEnds r n (t.result, r.advance t)
  | noHeader {n : Nat} {t : Taken (Option (List String))} {e : Error} : r.headerDue = true →
      r.pass.Ends r.options r.line n t → t.result = .error e →
      RecordEnds r n (.error e, { r.advance t with headerRead := true })
  | header {n m : Nat} {t u : Taken (Option (List String))} {headers : Option (List String)}
      {after : Reader} : r.headerDue = true →
      r.pass.Ends r.options r.line n t → t.result = .ok headers →
      after = { r.advance t with headers, headerRead := true } →
      after.pass.Ends after.options after.line m u →
      RecordEnds r (n + m) (u.result, after.advance u)

theorem exists_parse_ends (r : Reader) :
    ∃ n t, r.pass.Ends r.options r.line n t ∧ r.parse = (t.result, r.advance t) ∧
      n + t.rest.length ≤ r.rest.length + 1 := by
  obtain ⟨n, hends, hle⟩ := Pass.exists_ends r.options r.line r.pass
  exact ⟨n, _, hends, rfl, hle⟩

/-- A call for a record is over after at most as many turns as there are symbols, and two. -/
theorem exists_recordEnds (r : Reader) :
    ∃ n, r.RecordEnds n r.record ∧ n ≤ r.rest.length + 2 := by
  obtain ⟨n, t, hends, hparse, hle⟩ := r.exists_parse_ends
  obtain ⟨hdue, heq⟩ | ⟨hdue, headers, hok, heq⟩ | ⟨hdue, e, he, heq⟩ := r.ensureHeader_cases
  · refine ⟨n, ?_, by omega⟩
    rw [record, heq]
    dsimp only
    rw [hparse]
    exact .record hdue hends
  · -- The record is read by the reader that the header has left.
    rw [hparse] at hok heq
    obtain ⟨m, u, hmore, hnext, hle'⟩ := exists_parse_ends
      { r.advance t with headers, headerRead := true }
    have hrest : m + u.rest.length ≤ t.rest.length + 1 := hle'
    refine ⟨n + m, ?_, by omega⟩
    rw [record, heq]
    dsimp only
    rw [hnext]
    exact .header hdue hends hok rfl hmore
  · rw [hparse] at he heq
    refine ⟨n, ?_, by omega⟩
    rw [record, heq]
    exact .noHeader hdue hends he

/-! ## What calls take -/

theorem parse_suffix (r : Reader) : r.parse.2.rest <:+ r.rest :=
  readOn_suffix r.options r.line .empty r.line r.rest

/-- A reading that gives a record or an error takes something. -/
theorem parse_shorter (h : r.parse.1 ≠ .ok none) : r.parse.2.rest.length < r.rest.length := by
  have hle : r.parse.2.rest.length ≤ r.rest.length - 1 := readOn_length r.line .empty r.line r.rest
  have hne : r.rest ≠ [] := by
    intro hnil
    apply h
    rw [parse, hnil, readRecord_nil]
  have hpos := List.length_pos_of_ne_nil hne
  omega

theorem parse_rest_of_none (h : r.parse.1 = .ok none) : r.parse.2.rest = [] :=
  readOn_none r.options r.line .empty r.line r.rest h

theorem record_suffix (r : Reader) : r.record.2.rest <:+ r.rest := by
  have hfirst := r.parse_suffix
  obtain ⟨-, heq⟩ | ⟨-, headers, -, heq⟩ | ⟨-, e, -, heq⟩ := r.ensureHeader_cases
  · rw [record, heq]
    exact hfirst
  · rw [record, heq]
    exact (parse_suffix _).trans hfirst
  · rw [record, heq]
    exact hfirst

/-- **What one call takes.** A call for a record that gives a record or an error takes something. -/
theorem record_shorter (h : r.record.1 ≠ .ok none) : r.record.2.rest.length < r.rest.length := by
  have hfirst := r.parse_suffix.length_le
  obtain ⟨-, heq⟩ | ⟨-, headers, -, heq⟩ | ⟨-, e, he, heq⟩ := r.ensureHeader_cases
  · rw [record, heq] at h ⊢
    exact parse_shorter h
  · rw [record, heq] at h ⊢
    exact Nat.lt_of_lt_of_le (parse_shorter h) hfirst
  · rw [record, heq]
    refine parse_shorter fun hnone => ?_
    rw [he] at hnone
    cases hnone

/-- A call that gives nothing has come to the end, and is done with the header. -/
theorem record_none (h : r.record.1 = .ok none) :
    r.record.2.rest = [] ∧ r.record.2.headerDue = false := by
  have htried (s : Reader) : Reader.headerDue { s with headerRead := true } = false := by
    rw [headerDue]
    exact Bool.and_false _
  obtain ⟨hdue, heq⟩ | ⟨-, headers, -, heq⟩ | ⟨-, e, -, heq⟩ := r.ensureHeader_cases
  · rw [record, heq] at h ⊢
    exact ⟨parse_rest_of_none h, hdue⟩
  · rw [record, heq] at h ⊢
    exact ⟨parse_rest_of_none h, htried _⟩
  · rw [record, heq] at h
    cases h

/-- At the end, with nothing to do for the header, calls give nothing. -/
theorem records_at_end (hs : r.rest = []) (hd : r.headerDue = false) (count : Nat) :
    r.records count = List.replicate count (.ok none) := by
  have hrecord : r.record = (.ok none, r) := by
    have hheader : r.ensureHeader = (.ok (), r) := by
      rw [ensureHeader]
      exact if_neg (Bool.eq_false_iff.1 hd)
    rw [record, hheader]
    show r.parse = (.ok none, r)
    rw [parse, hs, readRecord_nil, advance]
    exact congrArg _ (by rw [← hs])
  induction count with
  | zero => rfl
  | succ count ih =>
    rw [records, hrecord, ih]
    rfl

/-- **What all calls take.** One of as many calls as there are symbols, and one more, gives nothing. -/
theorem none_mem_records {count : Nat} (h : r.rest.length < count) :
    .ok none ∈ r.records count := by
  induction count generalizing r with
  | zero => omega
  | succ count ih =>
    rw [records, List.mem_cons]
    by_cases hnone : r.record.1 = .ok none
    · exact .inl hnone.symm
    · have hshort := record_shorter hnone
      exact .inr (ih (by omega))

/-- **Reading always comes to an end.** Whatever the options and wherever a reader stands: a call for a
record is over after finitely many turns, at most two more than there are symbols; if it gives a record
or an error it takes something from the front of the source; and once it gives nothing, so does every
later call. So in a text one of as many calls as it has characters, and one more, gives nothing, also if
calls go on after errors; it makes no difference whether the text comes as characters or as bytes. -/
theorem record_ends :
    (∀ r : Reader,
      (∃ n, r.RecordEnds n r.record ∧ n ≤ r.rest.length + 2) ∧
      (r.record.1 ≠ .ok none → ∃ taken, taken ≠ [] ∧ r.rest = taken ++ r.record.2.rest) ∧
      (r.record.1 = .ok none → ∀ count,
        r.record.2.records count = List.replicate count (.ok none))) ∧
    ∀ (o : Options) (text : String) (source : Source),
      source = .ofText text ∨ source = .ofBytes text.toByteArray.data.toList →
      source.length = text.length ∧ .ok none ∈ (Reader.new o source).records (text.length + 1) := by
  refine ⟨fun r => ⟨r.exists_recordEnds, fun h => ?_, fun h => ?_⟩, fun o text source hs => ?_⟩
  · obtain ⟨taken, htaken⟩ := r.record_suffix
    refine ⟨taken, ?_, htaken.symm⟩
    rintro rfl
    have hshort := record_shorter h
    rw [← htaken] at hshort
    exact absurd hshort (Nat.lt_irrefl _)
  · obtain ⟨hrest, hdue⟩ := record_none h
    exact records_at_end hrest hdue
  · have hsource : source = .ofText text := by
      rcases hs with rfl | rfl
      · rfl
      · exact ofBytes_eq_ofText text
    have hlength : source.length = text.length := by
      rw [hsource, ofText, ofChars, List.length_map, String.length_toList]
    refine ⟨hlength, none_mem_records ?_⟩
    show source.length < text.length + 1
    omega

/-- A delimiter that ends lines, and one that is the quote as well, in a text that is malformed where
its header should be. -/
theorem record_ends_malformed :
    let text := "\"a\"b\n\"c"
    let r := Reader.new { delimiter := '\r', quote := '"', hasHeader := true, trim := true }
      (ofText text)
    let same := Reader.new { delimiter := '"', quote := '"', hasHeader := true, trim := true }
      (ofText text)
    r.record.1 = .error (.malformed 1 (.afterQuote 'b')) ∧
      (∃ taken, taken ≠ [] ∧ r.rest = taken ++ r.record.2.rest) ∧
      .ok none ∈ r.records (text.length + 1) ∧ .ok none ∈ same.records (text.length + 1) := by
  intro text r same
  have hfirst : r.record.1 = .error (.malformed 1 (.afterQuote 'b')) := by decide +kernel
  refine ⟨hfirst, (record_ends.1 r).2.1 ?_, ?_, ?_⟩
  · intro hnone
    rw [hfirst] at hnone
    cases hnone
  · exact (record_ends.2 r.options text _ (.inl rfl)).2
  · exact (record_ends.2 same.options text _ (.inl rfl)).2

end Reader

end SqlWright.Delimited
