import SqlWright.Proofs.Delimited.Acceptance

/-!
# Lines and places

Where the records of a source stand, and how a reader counts the lines on its way to them. The line of
a place is one more than the ends of lines before it. A reading passes over the ends of lines at its
front, and begins its record with what comes after them. It counts every end of a line that it passes,
inside quotes or not, but not the one of a line that cannot be decoded; and it never stops between a
carriage return and its line feed.
-/

namespace SqlWright.Delimited

/-- Whether a symbol ends a line. -/
def Symbol.isBreak : Symbol → Bool
  | .char c => Delimited.isBreak c
  | .undecodable => false

namespace Source

/-! ## Ends of lines -/

/-- The ends of lines in a source: line feeds, carriage returns, and carriage returns with a line feed,
which are one. A line that cannot be decoded has one. -/
def lineEnds : Source → Nat
  | [] => 0
  | .char '\r' :: .char '\n' :: rest => lineEnds rest + 1
  | .char c :: rest => if isBreak c then lineEnds rest + 1 else lineEnds rest
  | .undecodable :: rest => lineEnds rest + 1

/-- Whether a character ends a line before `rest`. A carriage return leaves that to its line feed. -/
def EndsLine (c : Char) (rest : Source) : Prop :=
  c = '\n' ∨ (c = '\r' ∧ rest.head? ≠ some (.char '\n'))

instance (c : Char) (rest : Source) : Decidable (EndsLine c rest) :=
  inferInstanceAs (Decidable (_ ∨ (_ ∧ _)))

theorem isBreak_iff {c : Char} : isBreak c = true ↔ c = '\n' ∨ c = '\r' := by
  simp [isBreak]

theorem EndsLine.isBreak {c : Char} {rest : Source} (h : EndsLine c rest) : isBreak c = true :=
  isBreak_iff.2 (h.imp_right And.left)

theorem EndsLine.afterBreak {c : Char} {rest : Source} (h : EndsLine c rest) :
    afterBreak c rest = rest := by
  unfold Source.afterBreak
  split
  · next more =>
    refine if_neg fun hc => ?_
    obtain hfeed | ⟨-, hhead⟩ := h
    · exact absurd (hc.symm.trans hfeed) (by decide)
    · exact hhead rfl
  · rfl

/-- A break ends its line, or is a carriage return whose line feed does. -/
theorem endsLine_or {c : Char} (h : isBreak c = true) (rest : Source) :
    EndsLine c rest ∨ (c = '\r' ∧ ∃ more, rest = .char '\n' :: more) := by
  rcases isBreak_iff.1 h with hc | hc
  · exact .inl (.inl hc)
  · by_cases hfeed : rest.head? = some (.char '\n')
    · exact .inr ⟨hc, List.head?_eq_some_iff.1 hfeed⟩
    · exact .inl (.inr ⟨hc, hfeed⟩)

theorem not_endsLine_crlf (more : Source) : ¬ EndsLine '\r' (.char '\n' :: more) := by
  simp [EndsLine]

theorem lineEnds_char (c : Char) (rest : Source) :
    lineEnds (.char c :: rest) = lineEnds rest + if EndsLine c rest then 1 else 0 := by
  have hsingle (hcrlf : ∀ more, rest = .char '\n' :: more → c = '\r' → False) :
      lineEnds (.char c :: rest) = if isBreak c then lineEnds rest + 1 else lineEnds rest := by
    rw [lineEnds]
    exact hcrlf
  by_cases hbreak : isBreak c = true
  · obtain hends | ⟨rfl, more, rfl⟩ := endsLine_or hbreak rest
    · rw [hsingle, if_pos hbreak, if_pos hends]
      rintro more rfl rfl
      exact not_endsLine_crlf more hends
    · rw [if_neg (not_endsLine_crlf more), lineEnds, Nat.add_zero, lineEnds]
      · rfl
      · intro _ _ hc
        exact absurd hc (by decide)
  · rw [hsingle, if_neg hbreak, if_neg fun hends => hbreak hends.isBreak, Nat.add_zero]
    rintro more - rfl
    exact absurd rfl hbreak

theorem lineEnds_plain {c : Char} (h : isBreak c = false) (rest : Source) :
    lineEnds (.char c :: rest) = lineEnds rest := by
  rw [lineEnds_char, if_neg, Nat.add_zero]
  intro hends
  rw [hends.isBreak] at h
  cases h

/-- A break takes exactly one end of a line with it. -/
theorem lineEnds_break {c : Char} (h : isBreak c = true) (rest : Source) :
    lineEnds (.char c :: rest) = lineEnds (afterBreak c rest) + 1 := by
  obtain hends | ⟨rfl, more, rfl⟩ := endsLine_or h rest
  · rw [lineEnds_char, if_pos hends, hends.afterBreak]
  · rw [lineEnds]
    rfl

theorem count_afterBreak (c : Char) (rest : Source) :
    (afterBreak c rest).count .undecodable = rest.count .undecodable := by
  unfold Source.afterBreak
  split
  · split
    · rw [List.count_cons_of_ne (by simp)]
    · rfl
  · rfl

/-! ## Places between two symbols -/

/-- The place between two parts of a source is not inside the end of a line. -/
def Parts (before rest : Source) : Prop :=
  before.getLast? = some (.char '\r') → rest.head? ≠ some (.char '\n')

/-- The ends of lines before and after a place are those of the whole. -/
theorem lineEnds_append {before rest : Source} (h : Parts before rest) :
    lineEnds (before ++ rest) = lineEnds before + lineEnds rest := by
  induction before with
  | nil =>
    show lineEnds rest = 0 + lineEnds rest
    omega
  | cons symbol before ih =>
    have hmore : Parts before rest := by
      intro hlast
      apply h
      rw [List.getLast?_cons, hlast]
      rfl
    have hih := ih hmore
    cases symbol with
    | undecodable =>
      show lineEnds (before ++ rest) + 1 = lineEnds before + 1 + lineEnds rest
      omega
    | char c =>
      -- Only the last symbol before the place looks past it.
      have hends : EndsLine c (before ++ rest) ↔ EndsLine c before := by
        cases before with
        | nil =>
          simp only [EndsLine, List.nil_append, List.head?_nil, ne_eq, reduceCtorEq,
            not_false_eq_true, and_true]
          constructor
          · exact Or.imp_right And.left
          · rintro (hc | hc)
            · exact .inl hc
            · exact .inr ⟨hc, h (by rw [hc]; rfl)⟩
        | cons first before => exact Iff.rfl
      rw [List.cons_append, lineEnds_char, lineEnds_char, hih]
      simp only [hends]
      omega

/-- More symbols before a place, when there is a place between them as well or none of them. -/
theorem Parts.append {before more rest : Source} (hmore : Parts more rest)
    (h : more = [] → Parts before rest) : Parts (before ++ more) rest := by
  cases more with
  | nil =>
    rw [List.append_nil]
    exact h rfl
  | cons symbol more =>
    intro hlast
    rw [List.getLast?_append_of_ne_nil _ (List.cons_ne_nil symbol more)] at hlast
    exact hmore hlast

theorem Parts.end (before : Source) : Parts before [] := by
  intro _ hfeed
  cases hfeed

/-- A break is taken with the end of the line that it begins. -/
theorem exists_ending {c : Char} (h : isBreak c = true) (rest : Source) :
    ∃ ending, .char c :: rest = ending ++ afterBreak c rest ∧ ending ≠ [] ∧
      Parts ending (afterBreak c rest) := by
  obtain hends | ⟨rfl, more, rfl⟩ := endsLine_or h rest
  · refine ⟨[.char c], ?_, List.cons_ne_nil _ _, ?_⟩
    · rw [hends.afterBreak]
      rfl
    · intro hlast hfeed
      rw [hends.afterBreak] at hfeed
      cases hlast
      obtain hc | ⟨-, hhead⟩ := hends
      · exact absurd hc (by decide)
      · exact hhead hfeed
  · refine ⟨[.char '\r', .char '\n'], rfl, List.cons_ne_nil _ _, ?_⟩
    intro hlast
    cases hlast

/-! ## Lines on which nothing stands -/

/-- The ends of lines at the front of a source. -/
def blank (source : Source) : Source :=
  source.takeWhile Symbol.isBreak

/-- What comes after the ends of lines at the front of a source. -/
def ahead (source : Source) : Source :=
  source.dropWhile Symbol.isBreak

theorem blank_append_ahead (source : Source) : source.blank ++ source.ahead = source :=
  List.takeWhile_append_dropWhile

theorem head?_ahead (source : Source) : ∀ symbol ∈ source.ahead.head?, symbol.isBreak = false := by
  intro symbol hsymbol
  have hhead := List.head?_dropWhile_not Symbol.isBreak source
  rw [show (source.dropWhile Symbol.isBreak).head? = some symbol from hsymbol] at hhead
  exact hhead

theorem blank_cons {c : Char} (h : isBreak c = true) (rest : Source) :
    blank (.char c :: rest) = .char c :: blank rest :=
  List.takeWhile_cons_of_pos h

theorem ahead_cons {c : Char} (h : isBreak c = true) (rest : Source) :
    ahead (.char c :: rest) = ahead rest :=
  List.dropWhile_cons_of_pos h

theorem ahead_afterBreak {c : Char} (h : isBreak c = true) (rest : Source) :
    ahead (afterBreak c rest) = ahead rest := by
  obtain hends | ⟨rfl, more, rfl⟩ := endsLine_or h rest
  · rw [hends.afterBreak]
  · exact (ahead_cons rfl more).symm

theorem blank_afterBreak {c : Char} (h : isBreak c = true) (rest : Source) :
    blank (afterBreak c rest) = afterBreak c (blank rest) := by
  obtain hends | ⟨rfl, more, rfl⟩ := endsLine_or h rest
  · have hblank : EndsLine c (blank rest) := by
      refine hends.imp_right fun hc => ⟨hc.1, ?_⟩
      intro hfeed
      apply hc.2
      rw [← blank_append_ahead rest, List.head?_append, hfeed]
      rfl
    rw [hends.afterBreak, hblank.afterBreak]
  · rw [blank_cons rfl]
    rfl

/-- Blank lines have ends. -/
theorem lineEnds_blank_eq_zero {source : Source} : source.blank.lineEnds = 0 ↔ source.blank = [] := by
  constructor
  · intro h
    cases source with
    | nil => rfl
    | cons symbol rest =>
      cases symbol with
      | undecodable => rfl
      | char c =>
        by_cases hc : isBreak c = true
        · rw [blank_cons hc, lineEnds_break hc] at h
          omega
        · exact List.takeWhile_cons_of_neg hc
  · intro h
    rw [h]
    rfl

end Source

/-! ## What one reading counts -/

section Counting

open Source

variable {o : Options} {p q : Progress}

/-- A character that carries the record on outside quotes ends no line, and inside quotes it is counted
if it does. -/
theorem passedLines_eq (ho : o.IsProper) {c : Char} (h : p.move o c = .continues q)
    (rest : Source) : p.passedLines o c rest = if EndsLine c rest then 1 else 0 := by
  by_cases hp : p.place = .quoted
  · have hquote : EndsLine c rest → c ≠ o.quote := by
      rintro hends rfl
      have hbreak := hends.isBreak
      rw [ho.quote_not_break] at hbreak
      cases hbreak
    rw [Progress.passedLines]
    by_cases hends : EndsLine c rest
    · rw [if_pos ⟨hp, hquote hends, hends⟩, if_pos hends]
    · rw [if_neg hends, if_neg]
      intro hc
      exact hends hc.2.2
  · have hplain : ¬ EndsLine c rest := by
      intro hends
      rw [Progress.move_break ho hp hends.isBreak] at h
      cases h
    rw [Progress.passedLines, if_neg hplain, if_neg]
    intro hc
    exact hp hc.1

/-- What refuses a character does not refuse the end of a line. -/
theorem not_break_of_refuses (ho : o.IsProper) {c : Char} (h : p.move o c = .refuses) :
    isBreak c = false := by
  rw [Bool.eq_false_iff]
  intro hc
  by_cases hp : p.place = .quoted
  · rw [Progress.move, hp] at h
    dsimp only at h
    split at h <;> cases h
  · rw [Progress.move_break ho hp hc] at h
    cases h

/-- **What one reading counts.** The lines that a reading adds to the count, and the lines after it,
are those of the source, but for the lines that could not be decoded. -/
theorem readOn_lineEnds (ho : o.IsProper) (start : Nat) (p : Progress) (line : Nat)
    (source : Source) :
    (readOn o start p line source).line + lineEnds (readOn o start p line source).rest +
        source.count .undecodable =
      line + lineEnds source + (readOn o start p line source).rest.count .undecodable := by
  fun_induction readOn o start p line source with
  | case1 | case2 | case3 => rfl
  | case4 p line rest =>
    show line + lineEnds rest + (Symbol.undecodable :: rest).count .undecodable =
      line + (lineEnds rest + 1) + rest.count .undecodable
    rw [List.count_cons_self]
    omega
  | case5 p line c rest q hm ih =>
    rw [passedLines_eq ho hm] at ih ⊢
    rw [lineEnds_char, List.count_cons_of_ne (by simp)]
    omega
  | case6 p line c rest hm _ hb ih =>
    rw [count_afterBreak] at ih
    rw [lineEnds_break (move_breaks hm).2, List.count_cons_of_ne (by simp)]
    omega
  | case7 p line c rest hm _ hb =>
    show line + 1 + lineEnds (afterBreak c rest) + (Symbol.char c :: rest).count .undecodable =
      line + lineEnds (.char c :: rest) + (afterBreak c rest).count .undecodable
    rw [lineEnds_break (move_breaks hm).2, List.count_cons_of_ne (by simp), count_afterBreak]
    omega
  | case8 p line c rest hm =>
    show line + lineEnds rest + (Symbol.char c :: rest).count .undecodable = _
    rw [lineEnds_plain (not_break_of_refuses ho hm), List.count_cons_of_ne (by simp)]

/-- **Where one reading stops.** It takes something if there is anything, and it stops at a place that
is not inside the end of a line. -/
theorem exists_taken (ho : o.IsProper) (start : Nat) (p : Progress) (line : Nat) (source : Source) :
    ∃ taken, source = taken ++ (readOn o start p line source).rest ∧
      Parts taken (readOn o start p line source).rest ∧ (taken = [] → source = []) := by
  fun_induction readOn o start p line source with
  | case1 | case2 | case3 => exact ⟨[], rfl, Parts.end [], fun _ => rfl⟩
  | case4 p line rest =>
    refine ⟨[.undecodable], rfl, ?_, fun h => absurd h (List.cons_ne_nil _ _)⟩
    intro hlast
    cases hlast
  | case5 p line c rest q hm ih =>
    obtain ⟨taken, hrest, hparts, hnil⟩ := ih
    refine ⟨.char c :: taken, ?_, ?_, fun h => absurd h (List.cons_ne_nil _ _)⟩
    · rw [List.cons_append, ← hrest]
    · show Parts ([.char c] ++ taken) _
      refine hparts.append fun htaken => ?_
      -- Nothing more is taken after this character only if the source is at its end.
      rw [hnil htaken, htaken, List.nil_append] at hrest
      rw [hnil htaken, ← hrest]
      exact Parts.end _
  | case6 p line c rest hm _ hb ih =>
    obtain ⟨taken, hrest, hparts, hnil⟩ := ih
    obtain ⟨ending, hending, hne, hends⟩ := exists_ending (move_breaks hm).2 rest
    refine ⟨ending ++ taken, ?_, ?_, fun h => absurd (List.append_eq_nil_iff.1 h).1 hne⟩
    · rw [List.append_assoc, ← hrest, ← hending]
    · refine Parts.append hparts fun htaken => ?_
      rw [htaken, List.nil_append] at hrest
      rw [← hrest]
      exact hends
  | case7 p line c rest hm _ hb =>
    obtain ⟨ending, hending, hne, hends⟩ := exists_ending (move_breaks hm).2 rest
    exact ⟨ending, hending, hends, fun h => absurd h hne⟩
  | case8 p line c rest hm =>
    refine ⟨[.char c], rfl, ?_, fun h => absurd h (List.cons_ne_nil _ _)⟩
    intro hlast
    cases hlast
    exact absurd (not_break_of_refuses ho hm) (by decide)

/-- A reading passes over blank lines and counts them; its record begins after them. -/
theorem readOn_ahead (ho : o.IsProper) (start line : Nat) (source : Source) :
    readOn o start .empty line source =
      readOn o start .empty (line + source.blank.lineEnds) source.ahead := by
  induction hn : source.length using Nat.strong_induction_on generalizing line source with
  | _ n ih =>
    subst hn
    cases source with
    | nil => rfl
    | cons symbol rest =>
      by_cases hbreak : symbol.isBreak = true
      · obtain ⟨c, rfl⟩ : ∃ c, symbol = .char c := by
          cases symbol with
          | char c => exact ⟨c, rfl⟩
          | undecodable => cases hbreak
        have hc : isBreak c = true := hbreak
        have hmove : Progress.empty.move o c = .breaks :=
          Progress.move_break ho Place.noConfusion hc
        have hlength := afterBreak_length c rest
        rw [readOn_blankLine hmove rfl,
          ih (afterBreak c rest).length (Nat.lt_succ_of_le hlength) _ _ rfl,
          ahead_afterBreak hc, ahead_cons hc, blank_afterBreak hc, blank_cons hc,
          lineEnds_break hc]
        congr 1
        omega
      · have hblank : blank (symbol :: rest) = [] := List.takeWhile_cons_of_neg hbreak
        have hahead : ahead (symbol :: rest) = symbol :: rest := List.dropWhile_cons_of_neg hbreak
        rw [hblank, hahead]
        rfl

end Counting

/-! ## Where readers stand -/

namespace Reader

open Source

/-- The reader has taken `before` of a source, up to a place between two symbols, and counts as many
lines as it has taken, but for those that could not be decoded. -/
structure Stands (o : Options) (source before : Source) (r : Reader) : Prop where
  options : r.options = o
  source_eq : source = before ++ r.rest
  parts : Parts before r.rest
  line : r.line + before.count .undecodable = before.lineEnds + 1

variable {o : Options} {source before : Source} {r : Reader}

theorem Stands.new (o : Options) (source : Source) : (new o source).Stands o source [] where
  options := rfl
  source_eq := rfl
  parts := by
    intro hlast
    cases hlast
  line := rfl

/-- What is known of the header is no part of the place. -/
theorem Stands.withHeader (h : r.Stands o source before) (headers : Option (List String))
    (headerRead : Bool) : Stands o source before { r with headers, headerRead } :=
  ⟨h.options, h.source_eq, h.parts, h.line⟩

/-- One reading, whatever it gives. -/
theorem Stands.parse (ho : o.IsProper) (h : r.Stands o source before) :
    ∃ more, r.parse.2.Stands o source (before ++ more) := by
  obtain ⟨rfl, hsource, hparts, hline⟩ := h
  obtain ⟨taken, hrest, htaken, hnil⟩ := exists_taken ho r.line .empty r.line r.rest
  have hcount := readOn_lineEnds ho r.line .empty r.line r.rest
  generalize ht : readOn r.options r.line .empty r.line r.rest = t at hrest htaken hcount
  have hparse : r.parse.2 = r.advance t := by rw [parse, readRecord, ht]
  have hbefore : Parts before taken := by
    cases taken with
    | nil => exact Parts.end before
    | cons symbol taken =>
      rw [hrest] at hparts
      exact hparts
  refine ⟨taken, ?_⟩
  rw [hparse]
  refine ⟨rfl, ?_, ?_, ?_⟩
  · show source = before ++ taken ++ t.rest
    rw [List.append_assoc, ← hrest, hsource]
  · refine htaken.append fun htaken => ?_
    rw [hnil htaken, htaken, List.nil_append] at hrest
    show Parts before t.rest
    rw [← hrest]
    exact Parts.end before
  · show t.line + (before ++ taken).count .undecodable = (before ++ taken).lineEnds + 1
    rw [hrest, lineEnds_append htaken, List.count_append] at hcount
    rw [lineEnds_append hbefore, List.count_append]
    omega

end Reader

end SqlWright.Delimited
