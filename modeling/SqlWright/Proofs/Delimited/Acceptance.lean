import SqlWright.Proofs.Delimited.RoundTrip

/-!
# Only what was written is read

The converse of reading back: a reader without trimming takes a text for some records only if the
text is a writing of these records, and it refuses all other texts as malformed. At every place in a
record the characters read so far are a beginning of a written record, and the progress of the
reader tells which one. So no character is dropped, invented or moved to another record.
-/

namespace SqlWright.Text

theorem doubled_append (mark : Char) (cs ds : List Char) :
    doubled mark (cs ++ ds) = doubled mark cs ++ doubled mark ds := by
  induction cs with
  | nil => rfl
  | cons c cs ih =>
    rw [List.cons_append, doubled, doubled, ih]
    split <;> rfl

end SqlWright.Text

namespace SqlWright.Delimited

open Text

/-! ## Beginnings of a record -/

/-- Fields with a delimiter after each of them. -/
inductive ReadFields (o : Options) : List String → List Char → Prop
  | nil : ReadFields o [] []
  | next {fields : List String} {s : String} {cs ds : List Char} :
      ReadFields o fields cs → WrittenField o s ds →
      ReadFields o (fields ++ [s]) (cs ++ (ds ++ [o.delimiter]))

/-- What was read of the current field, at each place of it. -/
inductive ReadField (o : Options) : Progress → List Char → Prop
  | start {fields : List String} : ReadField o ⟨fields, "", false, .start⟩ []
  | bare {fields : List String} {s : String} :
      (∀ c ∈ s.toList, c ≠ o.delimiter ∧ isBreak c = false) → s.toList ≠ [] →
      s.toList.head? ≠ some o.quote → ReadField o ⟨fields, s, false, .bare⟩ s.toList
  | quoted {fields : List String} {s : String} :
      ReadField o ⟨fields, s, true, .quoted⟩ (o.quote :: doubled o.quote s.toList)
  | afterQuote {fields : List String} {s : String} :
      ReadField o ⟨fields, s, true, .afterQuote⟩
        (o.quote :: (doubled o.quote s.toList ++ [o.quote]))

/-- The characters `cs` bring a reader from the beginning of a record to the progress `p`. -/
def HasRead (o : Options) (p : Progress) (cs : List Char) : Prop :=
  ∃ before current, ReadFields o p.fields before ∧ ReadField o p current ∧ cs = before ++ current

section Beginnings

variable {o : Options} {p q : Progress} {fields more : List String} {cs ds : List Char}

theorem ReadFields.append (h : ReadFields o fields cs) (hm : WrittenFields o more ds) :
    WrittenFields o (fields ++ more) (cs ++ ds) := by
  induction h generalizing more ds with
  | nil => exact hm
  | @next fields s cs field _ hs ih =>
    have hnext := ih (WrittenFields.cons hs hm)
    rw [List.append_assoc, List.append_assoc, List.append_assoc]
    exact hnext

theorem ReadFields.eq_nil_iff (h : ReadFields o fields cs) : fields = [] ↔ cs = [] := by
  cases h with
  | nil => simp
  | next _ _ => simp

theorem HasRead.empty : HasRead o .empty [] := ⟨[], [], .nil, .start, rfl⟩

theorem fieldText_of_not_trim (ht : o.trim = false) (p : Progress) : p.fieldText o = p.field := by
  rw [Progress.fieldText, ht]
  rfl

/-- Outside quotes the current field is written as far as it was read. -/
theorem ReadField.written (ht : o.trim = false) (h : ReadField o p cs) (hp : p.place ≠ .quoted) :
    WrittenField o (p.fieldText o) cs := by
  have htrim : ¬ o.trim = true := by rw [ht]; exact Bool.false_ne_true
  rw [fieldText_of_not_trim ht]
  cases h with
  | start => exact .bare (by simp) (by simp) (fun h => absurd h htrim)
  | bare hs _ hq => exact .bare hs hq (fun h => absurd h htrim)
  | quoted => exact absurd rfl hp
  | afterQuote =>
    have hpadding : ∀ c ∈ ([] : List Char), o.isPadding c = true := List.forall_mem_nil _
    exact .quoted hpadding hpadding

/-- Outside quotes a record may end: what was read is a writing of the record. -/
theorem HasRead.written (ht : o.trim = false) (h : HasRead o p cs) (hp : p.place ≠ .quoted) :
    WrittenFields o (p.record o) cs := by
  obtain ⟨before, current, hbefore, hcurrent, rfl⟩ := h
  exact hbefore.append (.single (hcurrent.written ht hp))

/-- The reader is at the beginning of a record exactly if it has read nothing of one. -/
theorem HasRead.isBlank_iff (h : HasRead o p cs) : p.isBlank = true ↔ cs = [] := by
  obtain ⟨before, current, hbefore, hcurrent, rfl⟩ := h
  rw [List.append_eq_nil_iff, ← hbefore.eq_nil_iff]
  cases hcurrent with
  | start => simp [Progress.isBlank]
  | bare _ hs _ =>
    have hplace : (Place.bare == Place.start) = false := rfl
    simp [Progress.isBlank, hplace, hs]
  | quoted =>
    have hplace : (Place.quoted == Place.start) = false := rfl
    simp [Progress.isBlank, hplace]
  | afterQuote =>
    have hplace : (Place.afterQuote == Place.start) = false := rfl
    simp [Progress.isBlank, hplace]

theorem HasRead.writtenRecord (ht : o.trim = false) (h : HasRead o p cs) (hp : p.place ≠ .quoted)
    (hb : p.isBlank = false) : WrittenRecord o (p.record o) cs := by
  refine ⟨h.written ht hp, fun hcs => ?_⟩
  rw [h.isBlank_iff.2 hcs] at hb
  cases hb

end Beginnings

/-! ## One character more -/

section Step

variable {o : Options} {p q : Progress} {cs : List Char} {c : Char}

/-- A delimiter outside quotes ends the current field. -/
theorem HasRead.nextField (ht : o.trim = false) (h : HasRead o p cs) (hp : p.place ≠ .quoted) :
    HasRead o (p.nextField o) (cs ++ [o.delimiter]) := by
  obtain ⟨before, current, hbefore, hcurrent, rfl⟩ := h
  refine ⟨before ++ (current ++ [o.delimiter]), [], ?_, .start, ?_⟩
  · exact .next hbefore (hcurrent.written ht hp)
  · rw [List.append_nil, List.append_assoc]

/-- A field without quotes goes on, or begins, with a character that is plain. -/
theorem ReadField.push_bare {fields : List String} {s : String}
    (hs : ∀ c ∈ s.toList, c ≠ o.delimiter ∧ isBreak c = false)
    (hc : c ≠ o.delimiter ∧ isBreak c = false)
    (hq : (s.toList ++ [c]).head? ≠ some o.quote) :
    ReadField o ⟨fields, s.push c, false, .bare⟩ (s.toList ++ [c]) := by
  have hpush : (s.push c).toList = s.toList ++ [c] := by simp
  rw [← hpush] at hq ⊢
  refine .bare ?_ ?_ hq
  · rw [hpush]
    exact List.forall_mem_append.2 ⟨hs, List.forall_mem_singleton.2 hc⟩
  · rw [hpush]
    exact List.append_ne_nil_of_right_ne_nil _ (List.cons_ne_nil c [])

/-- A field in quotes goes on with a character that is written as `written`. -/
theorem ReadField.push_quoted {fields : List String} {s : String} (written : List Char)
    (hw : doubled o.quote [c] = written) :
    ReadField o ⟨fields, s.push c, true, .quoted⟩
      (o.quote :: (doubled o.quote s.toList ++ written)) := by
  have hpush : doubled o.quote (s.push c).toList = doubled o.quote s.toList ++ written := by
    rw [← hw, ← doubled_append]
    simp
  rw [← hpush]
  exact .quoted

theorem HasRead.step_outside (ht : o.trim = false) (h : HasRead o p cs)
    (hp : p.place = .start ∨ p.place = .bare) (hm : p.moveOutside o c = .continues q) :
    HasRead o q (cs ++ [c]) := by
  have hplace : p.place ≠ .quoted := by
    rcases hp with hp | hp <;> rw [hp] <;> exact Place.noConfusion
  have htrim : ¬ (p.place = .start ∧ o.trim = true ∧ isBlank c = true) := by simp [ht]
  rw [Progress.moveOutside] at hm
  by_cases hd : c = o.delimiter
  · rw [if_pos hd] at hm
    cases hm
    rw [hd]
    exact h.nextField ht hplace
  rw [if_neg hd] at hm
  by_cases hbreak : c = '\n' ∨ c = '\r'
  · rw [if_pos hbreak] at hm
    cases hm
  rw [if_neg hbreak] at hm
  have hplain : c ≠ o.delimiter ∧ isBreak c = false := ⟨hd, by simpa [isBreak] using hbreak⟩
  obtain ⟨before, current, hbefore, hcurrent, rfl⟩ := h
  by_cases hquote : c = o.quote ∧ p.place = .start
  · rw [if_pos hquote] at hm
    cases hm
    refine ⟨before, [o.quote], hbefore, .quoted (s := ""), ?_⟩
    cases hcurrent with
    | start => rw [hquote.1, List.append_nil]
    | bare | quoted | afterQuote => cases hquote.2
  rw [if_neg hquote, if_neg htrim] at hm
  cases hm
  refine ⟨before, current ++ [c], hbefore, ?_, List.append_assoc _ _ _⟩
  cases hcurrent with
  | start =>
    have hfirst : c ≠ o.quote := fun hc => hquote ⟨hc, rfl⟩
    exact .push_bare (s := "") (by simp) hplain (by simpa using hfirst)
  | bare hs hne hq => exact .push_bare hs hplain (by rwa [List.head?_append_of_ne_nil _ hne])
  | quoted => exact absurd rfl hplace
  | afterQuote => rcases hp with hp | hp <;> cases hp

theorem HasRead.step_afterQuote (ht : o.trim = false) (h : HasRead o p cs)
    (hp : p.place = .afterQuote) (hm : p.moveAfterQuote o c = .continues q) :
    HasRead o q (cs ++ [c]) := by
  have hplace : p.place ≠ .quoted := by
    rw [hp]
    exact Place.noConfusion
  have htrim : ¬ (o.trim = true ∧ isBlank c = true) := by simp [ht]
  rw [Progress.moveAfterQuote] at hm
  by_cases hquote : c = o.quote
  · rw [if_pos hquote] at hm
    cases hm
    obtain ⟨before, current, hbefore, hcurrent, rfl⟩ := h
    cases hcurrent with
    | start | bare | quoted => cases hp
    | @afterQuote fields s =>
      -- The quote before was the first half of a doubled one.
      refine ⟨before, o.quote :: (doubled o.quote s.toList ++ [o.quote, o.quote]), hbefore, ?_, ?_⟩
      · exact .push_quoted _ (by rw [hquote, doubled, if_pos rfl]; rfl)
      · simp [hquote]
  rw [if_neg hquote] at hm
  by_cases hd : c = o.delimiter
  · rw [if_pos hd] at hm
    cases hm
    rw [hd]
    exact h.nextField ht hplace
  rw [if_neg hd, if_neg htrim] at hm
  split at hm <;> cases hm

/-- **What one character preserves.** A character that carries the record on extends what was read,
and the progress of the reader with it. -/
theorem HasRead.step (ht : o.trim = false) (h : HasRead o p cs)
    (hm : p.move o c = .continues q) : HasRead o q (cs ++ [c]) := by
  unfold Progress.move at hm
  split at hm
  · next hp => exact h.step_outside ht (.inl hp) hm
  · next hp => exact h.step_outside ht (.inr hp) hm
  · next hp =>
    obtain ⟨before, current, hbefore, hcurrent, rfl⟩ := h
    cases hcurrent with
    | start | bare | afterQuote => cases hp
    | @quoted fields s =>
      by_cases hc : c = o.quote
      · rw [if_pos hc] at hm
        cases hm
        refine ⟨before, _, hbefore, .afterQuote, ?_⟩
        rw [hc, List.append_assoc, List.cons_append]
      · rw [if_neg hc] at hm
        cases hm
        refine ⟨before, _, hbefore, .push_quoted [c] ?_, ?_⟩
        · rw [doubled, if_neg hc]
          rfl
        · rw [List.append_assoc, List.cons_append]
  · next hp => exact h.step_afterQuote ht hp hm

end Step

/-! ## One reading -/

/-- What is right to have in hand after reading in `text`: a record and a rest such that, whatever
records the rest is a writing of, the text is a writing of that record and those; nothing, and then
the text is a writing of no records; or the report of a malformed text. -/
inductive Accepts (o : Options) (text : List Char) : Taken (Option (List String)) → Prop
  | record {r : List String} {line : Nat} {rest : List Char} :
      (∀ records, Written o records rest → Written o (r :: records) text) →
      Accepts o text ⟨.ok (some r), line, .ofChars rest⟩
  | nothing {line : Nat} : Written o [] text → Accepts o text ⟨.ok none, line, []⟩
  | malformed {start : Nat} {fault : Malformed} {line : Nat} {rest : Source} :
      Accepts o text ⟨.error (.malformed start fault), line, rest⟩

section Reading

variable {o : Options} {p : Progress} {cs : List Char}

theorem Accepts.blankLine {ending text : List Char} (he : LineEnd ending)
    {t : Taken (Option (List String))} (h : Accepts o text t) : Accepts o (ending ++ text) t := by
  cases h with
  | record h => exact .record fun records hrest => .blankLine he (h records hrest)
  | nothing h => exact .nothing (.blankLine he h)
  | malformed => exact .malformed

theorem Written.eq_nil {records : List (List String)} (h : Written o records []) :
    records = [] := by
  generalize hempty : ([] : List Char) = text at h
  cases h with
  | nil => rfl
  | blankLine he _ => cases he <;> cases hempty
  | record hr _ _ => exact absurd (List.append_eq_nil_iff.1 hempty.symm).1 hr.ne_nil
  | last hr => exact absurd hempty.symm hr.ne_nil

/-- A break takes exactly one end of a line from a text. -/
theorem afterBreak_lineEnd {c : Char} (hc : isBreak c = true) (rest : List Char) :
    ∃ ending more, LineEnd ending ∧ c :: rest = ending ++ more ∧
      Source.afterBreak c (.ofChars rest) = .ofChars more := by
  have hcases : c = '\n' ∨ c = '\r' := by simpa [isBreak] using hc
  rcases hcases with rfl | rfl
  · refine ⟨['\n'], rest, .lf, rfl, ?_⟩
    unfold Source.afterBreak
    split
    · exact if_neg (by decide)
    · rfl
  · by_cases hlf : ∃ more, rest = '\n' :: more
    · obtain ⟨more, rfl⟩ := hlf
      exact ⟨['\r', '\n'], more, .crlf, rfl, rfl⟩
    · refine ⟨['\r'], rest, .cr, rfl, ?_⟩
      cases rest with
      | nil => rfl
      | cons d more =>
        unfold Source.afterBreak
        split
        · next hsource =>
          cases hsource
          exact absurd ⟨more, rfl⟩ hlf
        · rfl

theorem move_breaks {c : Char} (h : p.move o c = .breaks) :
    p.place ≠ .quoted ∧ isBreak c = true := by
  have hbreak (hc : c = '\n' ∨ c = '\r') : isBreak c = true := by simpa [isBreak] using hc
  have houtside (hm : p.moveOutside o c = .breaks) : isBreak c = true := by
    rw [Progress.moveOutside] at hm
    split at hm
    · cases hm
    · split at hm
      · next hc => exact hbreak hc
      · split at hm
        · cases hm
        · split at hm <;> cases hm
  unfold Progress.move at h
  split at h
  · next hp => exact ⟨by rw [hp]; exact Place.noConfusion, houtside h⟩
  · next hp => exact ⟨by rw [hp]; exact Place.noConfusion, houtside h⟩
  · split at h <;> cases h
  · next hp =>
    refine ⟨by rw [hp]; exact Place.noConfusion, ?_⟩
    rw [Progress.moveAfterQuote] at h
    split at h
    · cases h
    · split at h
      · cases h
      · split at h
        · next hc => exact hbreak hc
        · split at h <;> cases h

/-- **What one reading accepts.** From any place in a record on, a reader takes a record only where
the text has a writing of it, and passes over nothing but ends of lines. -/
theorem readOn_accepts (ht : o.trim = false) (h : HasRead o p cs) (start line : Nat)
    (ds : List Char) : Accepts o (cs ++ ds) (readOn o start p line (.ofChars ds)) := by
  induction hn : ds.length using Nat.strong_induction_on generalizing p cs ds line with
  | _ n ih =>
    subst hn
    cases ds with
    | nil =>
      show Accepts o (cs ++ []) (readOn o start p line [])
      rw [List.append_nil, readOn]
      split
      · exact .malformed
      · next hp =>
        split
        · next hb =>
          rw [h.isBlank_iff.1 hb]
          exact .nothing .nil
        · next hb =>
          show Accepts o cs ⟨.ok (some (p.record o)), line, .ofChars []⟩
          refine .record fun records hrest => ?_
          rw [hrest.eq_nil]
          exact .last (h.writtenRecord ht hp (by simpa using hb))
    | cons c ds =>
      show Accepts o (cs ++ c :: ds) (readOn o start p line (.char c :: Source.ofChars ds))
      cases hm : p.move o c with
      | continues q =>
        rw [readOn_continues hm]
        have hstep := ih ds.length (Nat.lt_succ_self _) (h.step ht hm)
          (line + p.passedLines o c (.ofChars ds)) ds rfl
        rwa [List.append_assoc, List.singleton_append] at hstep
      | breaks =>
        obtain ⟨hp, hc⟩ := move_breaks hm
        obtain ⟨ending, more, he, hsplit, hafter⟩ := afterBreak_lineEnd hc ds
        cases hb : p.isBlank with
        | true =>
          have hshort : more.length < (c :: ds).length := by
            have hpos : 0 < ending.length := by cases he <;> decide
            rw [hsplit, List.length_append]
            omega
          have hcs := h.isBlank_iff.1 hb
          subst hcs
          rw [readOn_blankLine hm hb, hafter, hsplit]
          exact (ih more.length hshort h (line + 1) more rfl).blankLine he
        | false =>
          rw [readOn_breaks hm hb, hafter, hsplit]
          exact .record fun records hrest => .record (h.writtenRecord ht hp hb) he hrest
      | refuses =>
        rw [readOn, hm]
        exact .malformed

/-- One reading takes at least one symbol if there is one. -/
theorem readOn_length (start : Nat) (p : Progress) (line : Nat) (source : Source) :
    (readOn o start p line source).rest.length ≤ source.length - 1 := by
  induction hn : source.length using Nat.strong_induction_on generalizing p line source with
  | _ n ih =>
    subst hn
    cases source with
    | nil =>
      rw [readOn]
      split
      · exact Nat.le_refl _
      · split <;> exact Nat.le_refl _
    | cons symbol rest =>
      rw [List.length_cons, Nat.add_sub_cancel]
      cases symbol with
      | undecodable =>
        rw [readOn]
      | char c =>
        have hafter := Source.afterBreak_length c rest
        rw [readOn]
        split
        · next q _ =>
          have := ih rest.length (Nat.lt_succ_self _) q (line + p.passedLines o c rest) rest rfl
          omega
        · split
          · exact Nat.le_trans (ih _ (Nat.lt_succ_of_le hafter) p (line + 1) _ rfl)
              (Nat.le_trans (Nat.sub_le _ _) hafter)
          · exact hafter
        · exact Nat.le_refl _

end Reading

/-! ## Readers -/

namespace Reader

variable {o : Options} {cs : List Char}

/-- A call for a record, without a header, is a reading from the beginning of a record. -/
theorem record_accepts (hh : o.hasHeader = false) (ht : o.trim = false) {r : Reader}
    (hr : r.options = o) (hc : r.rest = .ofChars cs) :
    Accepts o cs ⟨r.record.1, r.record.2.line, r.record.2.rest⟩ ∧ r.record.2.options = o ∧
      r.record.2.rest.length ≤ cs.length - 1 := by
  have hheader : r.ensureHeader = (.ok (), r) := by
    rw [ensureHeader, hr, hh]
    rfl
  have hrecord : r.record = r.parse := by
    rw [record, hheader]
  have hread := readOn_accepts ht .empty r.line r.line cs
  have hlength := readOn_length (o := o) r.line .empty r.line (.ofChars cs)
  rw [hrecord, parse, readRecord, hr, hc]
  rw [Source.ofChars, List.length_map] at hlength
  exact ⟨hread, hr, hlength⟩

/-- Records that are read up to the end were written. -/
theorem written_of_records (hh : o.hasHeader = false) (ht : o.trim = false)
    {written : List (List String)} {r : Reader} (hr : r.options = o) (hc : r.rest = .ofChars cs)
    (h : r.records (written.length + 1) =
      written.map (fun record => .ok (some record)) ++ [.ok none]) : Written o written cs := by
  obtain ⟨haccepts, ho, -⟩ := record_accepts hh ht hr hc
  induction written generalizing cs r with
  | nil =>
    rw [List.length_nil, records] at h
    have hfirst : r.record.1 = .ok none := (List.cons.inj h).1
    rw [hfirst] at haccepts
    generalize r.record.2.rest = source at haccepts
    cases haccepts with
    | nothing hw => exact hw
  | cons first written ih =>
    rw [List.length_cons, records] at h
    obtain ⟨hfirst, hrest⟩ := List.cons.inj h
    rw [hfirst] at haccepts
    generalize hsource : r.record.2.rest = source at haccepts
    cases haccepts with
    | record hw =>
      obtain ⟨hnext, honext, -⟩ := record_accepts hh ht ho hsource
      exact hw written (ih ho hsource hrest hnext honext)

/-- A text is a writing of some records, or one of as many calls as it has characters, and one more,
reports it as malformed. -/
theorem written_or_malformed (hh : o.hasHeader = false) (ht : o.trim = false) {r : Reader}
    (hr : r.options = o) (hc : r.rest = .ofChars cs) {count : Nat} (hcount : cs.length < count) :
    (∃ written, Written o written cs) ∨
      ∃ line fault, .error (.malformed line fault) ∈ r.records count := by
  induction count generalizing cs r with
  | zero => omega
  | succ count ih =>
    obtain ⟨haccepts, ho, hlength⟩ := record_accepts hh ht hr hc
    generalize hresult : r.record.1 = result at haccepts
    generalize hsource : r.record.2.rest = source at haccepts hlength
    rw [records, hresult]
    cases haccepts with
    | nothing hw => exact .inl ⟨[], hw⟩
    | malformed => exact .inr ⟨_, _, List.mem_cons_self⟩
    | @record first _ rest hw =>
      rw [Source.ofChars, List.length_map] at hlength
      by_cases hempty : cs = []
      · -- There is no record in an empty text.
        subst hempty
        exact .inl ⟨[], .nil⟩
      · have hpos := List.length_pos_of_ne_nil hempty
        rcases ih ho hsource (by omega) with ⟨written, hrest⟩ | ⟨line, fault, hmem⟩
        · exact .inl ⟨first :: written, hw written hrest⟩
        · exact .inr ⟨line, fault, List.mem_cons_of_mem _ hmem⟩

/-- **Nothing outside the format is read.** Without trimming and without a header, calls for a record
give some records and then nothing exactly if the text is a writing of these records. Any other text
is reported as malformed by one of the calls, before there are more of them than characters in the
text and one. It makes no difference whether the text comes as characters or as bytes. -/
theorem records_iff_written (ho : o.IsProper) (hh : o.hasHeader = false) (ht : o.trim = false)
    {text : String} {source : Source}
    (hs : source = .ofText text ∨ source = .ofBytes text.toByteArray.data.toList) :
    (∀ written, (Reader.new o source).records (written.length + 1) =
        written.map (fun record => .ok (some record)) ++ [.ok none] ↔
      Written o written text.toList) ∧
    ((∀ written, ¬ Written o written text.toList) → ∃ line fault,
      .error (.malformed line fault) ∈ (Reader.new o source).records (text.length + 1)) := by
  have hc : (Reader.new o source).rest = .ofChars text.toList := by
    rcases hs with rfl | rfl
    · rfl
    · exact Source.ofBytes_eq_ofText text
  refine ⟨fun written => ⟨written_of_records hh ht rfl hc, fun h => ?_⟩, fun h => ?_⟩
  · exact records_eq ho hh 1 h rfl hc
  · have hcount : text.toList.length < text.length + 1 := by
      rw [String.length_toList]
      exact Nat.lt_succ_self _
    rcases written_or_malformed hh ht (r := Reader.new o source) rfl hc hcount with
      ⟨written, hw⟩ | hmalformed
    · exact absurd hw (h written)
    · exact hmalformed

/-- A quote inside a field without quotes, one inside a field in quotes, a break inside the latter and
a blank line; and a text after a closing quote. -/
theorem records_iff_written_quotes :
    let o : Options := { delimiter := ',', quote := '"', hasHeader := false, trim := false }
    let text := "a\"b,\"x\"\"\r\n\"\r\n\n\"\""
    let broken := "\"a\"b"
    o.IsProper ∧ Written o [["a\"b", "x\"\r\n"], [""]] text.toList ∧
      (∀ written, ¬ Written o written broken.toList) ∧
      ∃ line fault, .error (.malformed line fault) ∈
        (Reader.new o (.ofText broken)).records (broken.length + 1) := by
  intro o text broken
  have ho : o.IsProper := ⟨by decide, by decide, by decide⟩
  have hread : (Reader.new o (.ofText text)).records 3 =
      [.ok (some ["a\"b", "x\"\r\n"]), .ok (some [""]), .ok none] := by
    decide +kernel
  have hfirst : (Reader.new o (.ofText broken)).record.1 =
      .error (.malformed 1 (.afterQuote 'b')) := by
    decide +kernel
  have hbroken (written : List (List String)) : ¬ Written o written broken.toList := by
    intro hw
    have hrecords := ((records_iff_written ho rfl rfl (.inl rfl)).1 written).2 hw
    rw [records, hfirst] at hrecords
    cases written <;> cases (List.cons.inj hrecords).1
  exact ⟨ho, ((records_iff_written ho rfl rfl (.inl rfl)).1 _).1 hread, hbroken,
    (records_iff_written ho rfl rfl (.inl rfl)).2 hbroken⟩

end Reader

end SqlWright.Delimited
