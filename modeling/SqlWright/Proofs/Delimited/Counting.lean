import SqlWright.Proofs.Delimited.Split

/-!
# The line where a reader stands

Between two calls a reader counts one line more than there are ends of lines in what it has consumed, that
is, as many as a cut by hand makes of it. It makes no difference whether a line ended with a record, was
blank or ended inside quotes, nor whether the calls before gave anything or met a malformed record: a call
that refuses a character stops right after it. Only a line that cannot be decoded is consumed without
being counted. A reading ends there, so each such line is known by the answer of a call of its own.
-/

namespace SqlWright.Delimited

open Source

/-- A text has a line for each end of one, and the line after the last end. -/
theorem length_lines (cs : List Char) : (lines cs).length = lineEnds (ofChars cs) + 1 := by
  fun_induction lines cs with
  | case1 => rfl
  | case2 cs ih => exact congrArg (· + 1) ih
  | case3 c cs hcrlf hbreak ih =>
    have hends : EndsLine c (ofChars cs) := by
      obtain hends | ⟨rfl, feed, hfeed⟩ := endsLine_or hbreak (ofChars cs)
      · exact hends
      · obtain ⟨d, more, rfl, hd, -⟩ := List.map_eq_cons_iff.1 hfeed
        cases hd
        exact (hcrlf more rfl rfl).elim
    show (lines cs).length + 1 = lineEnds (.char c :: ofChars cs) + 1
    rw [lineEnds_char, if_pos hends, ih]
  | case4 c cs _ hbreak ih =>
    show ((lines cs).modifyHead (c :: ·)).length = lineEnds (.char c :: ofChars cs) + 1
    rw [lineEnds_plain (Bool.eq_false_iff.2 hbreak), List.length_modifyHead, ih]

/-- A source in which every line is decoded is a text. -/
theorem exists_ofChars {source : Source} (h : .undecodable ∉ source) :
    ∃ cs, source = ofChars cs := by
  induction source with
  | nil => exact ⟨[], rfl⟩
  | cons symbol rest ih =>
    rw [List.mem_cons, not_or] at h
    obtain ⟨cs, rfl⟩ := ih h.2
    cases symbol with
    | char c => exact ⟨c :: cs, rfl⟩
    | undecodable => exact absurd rfl h.1

/-! ## Lines that cannot be decoded -/

/-- A reading takes no line that cannot be decoded, or one with which it ends. -/
theorem readOn_undecodable (o : Options) (start : Nat) (p : Progress) (line : Nat)
    (source : Source) :
    source.count .undecodable = (readOn o start p line source).rest.count .undecodable +
      if (readOn o start p line source).result = .error (.unreadable .notUtf8) then 1 else 0 := by
  fun_induction readOn o start p line source with
  | case1 | case2 | case3 => rfl
  | case4 p line rest => exact List.count_cons_self
  | case5 p line c rest q _ ih => rw [List.count_cons_of_ne (by simp), ih]
  | case6 p line c rest _ _ _ ih => rw [List.count_cons_of_ne (by simp), ← count_afterBreak c, ih]
  | case7 p line c rest =>
    rw [List.count_cons_of_ne (by simp), if_neg (by simp), count_afterBreak, Nat.add_zero]
  | case8 p line c rest => rw [List.count_cons_of_ne (by simp), if_neg (by simp), Nat.add_zero]

/-- Whether a call met a line that cannot be decoded. -/
def Answer.isUnreadable (a : Answer) : Bool :=
  a.error? == some (.unreadable .notUtf8)

namespace Reader

variable {o : Options}

theorem parse_undecodable (r : Reader) :
    r.rest.count .undecodable = r.parse.2.rest.count .undecodable +
      if r.parse.1 = .error (.unreadable .notUtf8) then 1 else 0 :=
  readOn_undecodable r.options r.line .empty r.line r.rest

theorem isUnreadable_iff (r : Reader) (c : Call) :
    (r.call c).1.isUnreadable = true ↔
      ∃ s, r.reading? c = some s ∧ s.parse.1 = .error (.unreadable .notUtf8) := by
  rw [Answer.isUnreadable, beq_iff_eq]
  exact call_error (by simp [named_eq_error]) r c

/-- **What one call takes undecoded.** A line that cannot be decoded, if it says so, and else none. -/
theorem call_undecodable (r : Reader) (c : Call) :
    r.rest.count .undecodable = (r.call c).2.rest.count .undecodable +
      if (r.call c).1.isUnreadable then 1 else 0 := by
  simp only [isUnreadable_iff]
  obtain ⟨hnone, hafter⟩ | ⟨s, _, _, hs, hafter, hfrom⟩ := r.reading?_cases c
  · rw [hafter, hnone]
    simp
  · -- A header that was read before the last reading has met no such line.
    have hbefore : r.rest.count .undecodable = s.rest.count .undecodable := by
      obtain rfl | ⟨names, hok, rfl⟩ := hfrom
      · rfl
      · rw [r.parse_undecodable, hok, if_neg (by simp), Nat.add_zero]
    rw [hbefore, s.parse_undecodable, hafter, hs]
    simp

/-- What some calls give, each after those before it. -/
def answers (r : Reader) : List Call → List Answer
  | [] => []
  | c :: calls => (r.call c).1 :: (r.call c).2.answers calls

/-- **What any calls take undecoded.** One line for each of them that says so. -/
theorem after_undecodable (r : Reader) (calls : List Call) :
    r.rest.count .undecodable = (r.after calls).rest.count .undecodable +
      (r.answers calls).countP Answer.isUnreadable := by
  induction calls generalizing r with
  | nil => rfl
  | cons c calls ih =>
    have hcall := r.call_undecodable c
    have hcalls := ih (r.call c).2
    rw [answers, List.countP_cons]
    show _ = ((r.call c).2.after calls).rest.count .undecodable + _
    omega

/-! ## The count -/

variable {source before : Source} {calls : List Call}

/-- The lines that were consumed undecoded are those that calls complained of. -/
theorem Stands.unreadable (h : ((Reader.new o source).after calls).Stands o source before) :
    before.count .undecodable =
      ((Reader.new o source).answers calls).countP Answer.isUnreadable := by
  have hcount := (Reader.new o source).after_undecodable calls
  have hsource := congrArg (List.count .undecodable) h.source_eq
  rw [List.count_append] at hsource
  rw [show (Reader.new o source).rest = source from rfl, hsource] at hcount
  omega

/-- **The line of a reader is that of the place where it stands.** After any calls, what the reader has
consumed is the front of the source, and the place behind it is not between a carriage return and its line
feed. The line of the reader, and as many lines more as calls met one that could not be decoded, is one
more than the ends of lines in what was consumed. So if there was no such call, whether the calls gave
something or met a malformed record, a text was consumed, and the line is one more than the line feeds,
carriage returns, and carriage returns with a line feed, in it; that is how many lines a cut by hand makes
of that text. -/
theorem line_after (ho : o.IsProper) (source : Source) (calls : List Call) :
    let r := (new o source).after calls
    let answers := (new o source).answers calls
    (source = r.taken source ++ r.rest ∧ Parts (r.taken source) r.rest ∧
      r.line + answers.countP Answer.isUnreadable = 1 + (r.taken source).lineEnds) ∧
    ((∀ a ∈ answers, a.isUnreadable = false) →
      ∃ cs, r.taken source = ofChars cs ∧ r.line = 1 + (ofChars cs).lineEnds ∧
        r.line = (lines cs).length) := by
  intro r answers
  obtain ⟨before, hr⟩ := (Stands.new o source).after ho calls
  rw [List.nil_append] at hr
  have hcount : before.count .undecodable = answers.countP Answer.isUnreadable := hr.unreadable
  have hline : r.line + before.count .undecodable = before.lineEnds + 1 := hr.line
  rw [show r.taken source = before from hr.taken_eq]
  refine ⟨⟨hr.source_eq, hr.parts, by omega⟩, fun hcalls => ?_⟩
  have hnone : answers.countP Answer.isUnreadable = 0 :=
    List.countP_eq_zero.2 fun a ha => Bool.eq_false_iff.1 (hcalls a ha)
  obtain ⟨cs, rfl⟩ : ∃ cs, before = ofChars cs :=
    exists_ofChars (List.count_eq_zero.1 (hcount.trans hnone))
  refine ⟨cs, rfl, by omega, ?_⟩
  rw [length_lines]
  omega

/-- A carriage return that ends the header; one inside quotes right before the closing quote, and the line
feed after that; a record that is refused in the middle of its line, and what is left of the line; a field
without an end that holds two breaks, the second a carriage return with which the text ends. -/
theorem line_after_malformed :
    let o : Options := { delimiter := ',', quote := '"', hasHeader := true, trim := false }
    let source := ofText "h\r\"a\r\"\n\"b\"c\r\n\"d\r\ne\r"
    let calls : List Call := [.names, .record, .pairs, .next]
    let r := (new o source).after calls
    o.IsProper ∧ (∀ a ∈ (new o source).answers calls, a.isUnreadable = false) ∧ r.line = 7 ∧
      ∃ cs, r.taken source = ofChars cs ∧ r.line = 1 + (ofChars cs).lineEnds ∧
        r.line = (lines cs).length := by
  intro o source calls r
  have ho : o.IsProper := ⟨by decide, by decide, by decide⟩
  have hcalls : ∀ a ∈ (new o source).answers calls, a.isUnreadable = false := by decide +kernel
  have hline : r.line = 7 := by decide +kernel
  exact ⟨ho, hcalls, hline, (line_after ho source calls).2 hcalls⟩

end Reader

end SqlWright.Delimited
