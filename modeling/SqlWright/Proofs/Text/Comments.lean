import Mathlib.Data.List.Chain
import SqlWright.Proofs.Text.Closed

/-!
# Where comments start

A server takes two characters next to each other for the start of a comment, unless they stand in a
literal or in a bracketed name. A text is clear if there are no such two in it. Two clear texts can
make up one that is not: the last character of the one and the first of the other decide.
-/

namespace SqlWright.Text

/-- The kinds of comments: up to the end of the line, and up to a closing mark. -/
inductive Comment where
  | line
  | block
deriving DecidableEq, Repr

/-- The first character of a comment. -/
def Comment.first : Comment → Char
  | .line => '-'
  | .block => '/'

/-- The second character of a comment. -/
def Comment.second : Comment → Char
  | .line => '-'
  | .block => '*'

/-- A comment starts somewhere in a text, outside its literals and names. -/
def Shows (c : Comment) (t : String) : Prop :=
  [Mark.code c.first, .code c.second] <:+: masked t

instance (c : Comment) (t : String) : Decidable (Shows c t) :=
  inferInstanceAs (Decidable (_ <:+: _))

/-- Two marks next to each other do not start a comment. -/
def Comment.Apart (c : Comment) (m n : Mark) : Prop :=
  m = .code c.first → n ≠ .code c.second

instance (c : Comment) (m n : Mark) : Decidable (c.Apart m n) :=
  inferInstanceAs (Decidable (_ → _))

/-- No comment of a kind starts in a text. -/
def Clear (c : Comment) (t : String) : Prop :=
  (masked t).IsChain c.Apart

instance (c : Comment) (t : String) : Decidable (Clear c t) :=
  inferInstanceAs (Decidable (List.IsChain _ _))

variable {c : Comment} {t u w : String}

theorem shows_iff_not_clear : Shows c t ↔ ¬ Clear c t := by
  rw [Shows, Clear, List.isChain_iff_forall_rel_of_append_cons_cons]
  constructor
  · rintro ⟨before, after, heq⟩ h
    rw [List.append_assoc] at heq
    exact h heq.symm rfl rfl
  · intro h
    by_contra hnone
    refine h fun m n before after heq hm hn => hnone ⟨before, after, ?_⟩
    rw [heq, hm, hn, List.append_assoc]
    rfl

/-- In a text without the first character of a comment none starts. -/
theorem Clear.of_not_mem (h : Mark.code c.first ∉ masked t) : Clear c t := by
  rw [Clear, List.isChain_iff_forall_rel_of_append_cons_cons]
  rintro m n before after heq rfl
  exact absurd (heq ▸ List.mem_append_right before List.mem_cons_self) h

/-! ## Texts one after the other -/

/-- No comment starts in two texts together just if none starts in either or between them. -/
theorem clear_append_iff (ht : isSealed t = true) (hu : Mark.code ']' ∉ masked u) :
    Clear c (t ++ u) ↔ Clear c t ∧ Clear c u ∧
      ∀ m ∈ (masked t).getLast?, ∀ n ∈ (masked u).head?, c.Apart m n := by
  have hliteral (n : Mark) : c.Apart .literal n := fun h => nomatch h
  rw [Clear, Clear, Clear, masked_append ht hu, List.isChain_append]
  by_cases hm : Mode.code.after t.toList = .atApostrophe
  · -- A literal at the start of the second text goes on with the one before it.
    have hlast : (masked t).getLast? = some .literal := Mode.getLast?_of_inString _ (.inr hm)
    rw [hm, hlast]
    cases masked u with
    | nil => rfl
    | cons n found =>
      cases n with
      | literal => simp [Mode.joined, List.isChain_cons, hliteral]
      | code d | name d => rfl
  · have hjoined (found : List Mark) : (Mode.code.after t.toList).joined found = found := by
      cases hmode : Mode.code.after t.toList with
      | atApostrophe => exact absurd hmode hm
      | code | inString | inName | atBracket => rfl
    rw [hjoined]

/-- Whether a text without quotes can stand between any two others: no comment starts in it, and
none where it meets them. -/
def isQuiet (w : String) : Bool :=
  w.toList.all Mode.isPlain && (w.toList.head?.any fun d => d != '-' && d != '*') &&
    (w.toList.getLast?.any fun d => d != '-' && d != '/') &&
    decide (Clear .line w) && decide (Clear .block w)

section Quiet

variable (hw : isQuiet w = true)
include hw

theorem isPlain_of_isQuiet : w.toList.all Mode.isPlain = true := by
  simp only [isQuiet, Bool.and_eq_true] at hw
  exact hw.1.1.1.1

theorem clear_of_isQuiet : Clear c w := by
  simp only [isQuiet, Bool.and_eq_true, decide_eq_true_eq] at hw
  cases c with
  | line => exact hw.1.2
  | block => exact hw.2

theorem head?_of_isQuiet : ∃ d, (masked w).head? = some (.code d) ∧ d ≠ c.second := by
  have hplain := isPlain_of_isQuiet hw
  simp only [isQuiet, Bool.and_eq_true, Option.any_eq_true, bne_iff_ne] at hw
  obtain ⟨⟨⟨⟨-, d, hd, hline, hblock⟩, -⟩, -⟩, -⟩ := hw
  refine ⟨d, by rw [masked_plain hplain, List.head?_map, hd]; rfl, ?_⟩
  cases c with
  | line => exact hline
  | block => exact hblock

theorem getLast?_of_isQuiet : ∃ d, (masked w).getLast? = some (.code d) ∧ d ≠ c.first := by
  have hplain := isPlain_of_isQuiet hw
  simp only [isQuiet, Bool.and_eq_true, Option.any_eq_true, bne_iff_ne] at hw
  obtain ⟨⟨⟨-, d, hd, hline, hblock⟩, -⟩, -⟩ := hw
  refine ⟨d, by rw [masked_plain hplain, List.getLast?_map, hd]; rfl, ?_⟩
  cases c with
  | line => exact hline
  | block => exact hblock

theorem clear_between (ht : isSealed t = true) (hu : Mark.code ']' ∉ masked u) :
    Clear c (t ++ w ++ u) ↔ Clear c t ∧ Clear c u := by
  obtain ⟨d, hhead, hd⟩ := head?_of_isQuiet (c := c) hw
  obtain ⟨e, hlast, he⟩ := getLast?_of_isQuiet (c := c) hw
  have hplain := isPlain_of_isQuiet hw
  have hbracket : Mark.code ']' ∉ masked w := not_mem_masked_plain hplain rfl
  have hsealed : isSealed (t ++ w) = true :=
    isSealed_append ht (Mode.after_plain rfl hplain) hbracket
  have hmarks : masked (t ++ w) = masked t ++ masked w :=
    masked_append_of_ne ht hbracket (by rw [hhead]; exact fun h => nomatch h)
  have hend : (masked (t ++ w)).getLast? = some (.code e) := by
    rw [hmarks, List.getLast?_append, hlast]
    rfl
  rw [clear_append_iff hsealed hu, clear_append_iff ht hbracket, hhead, hend]
  constructor
  · rintro ⟨⟨ht, -, -⟩, hu, -⟩
    exact ⟨ht, hu⟩
  · rintro ⟨ht, hu⟩
    refine ⟨⟨ht, clear_of_isQuiet hw, ?_⟩, hu, ?_⟩
    · rintro m - _ ⟨⟩ - h
      exact hd (Mark.code.inj h)
    · rintro _ ⟨⟩ n - h
      exact absurd (Mark.code.inj h) he

theorem clear_before (hu : Mark.code ']' ∉ masked u) : Clear c (w ++ u) ↔ Clear c u := by
  have hbetween := clear_between (c := c) hw (t := "") rfl hu
  rw [String.empty_append] at hbetween
  exact hbetween.trans (and_iff_right .nil)

theorem clear_behind (ht : isSealed t = true) : Clear c (t ++ w) ↔ Clear c t := by
  have hbetween := clear_between (c := c) hw (u := "") ht List.not_mem_nil
  rw [String.append_empty] at hbetween
  exact hbetween.trans (and_iff_left .nil)

end Quiet

/-! ## Parts of a statement -/

theorem clear_quoted (s : String) : Clear c (quoted s) := by
  rw [Clear, masked_quoted]
  exact .singleton _

theorem clear_bracketed (name : String) : Clear c (bracketed name) := by
  refine .of_not_mem ?_
  rw [masked_bracketed]
  simp

theorem clear_parenthesized (h : Closed t) : Clear c (parenthesized t) ↔ Clear c t := by
  have hopen : isSealed ("(" ++ t) = true := isSealed_append rfl h.isSealed h.no_bracket
  rw [parenthesized, clear_behind (by decide) hopen, clear_before (by decide) h.no_bracket]

theorem clear_grouped (h : Closed t) : Clear c (grouped t) ↔ Clear c t :=
  grouped_of (P := fun u => Clear c u ↔ Clear c t) Iff.rfl (clear_parenthesized h)

theorem clear_commas {texts : List String} (h : ∀ t ∈ texts, Closed t) :
    Clear c (String.intercalate "," texts) ↔ ∀ t ∈ texts, Clear c t := by
  induction texts with
  | nil =>
    rw [String.intercalate_nil]
    exact iff_of_true .nil (List.forall_mem_nil _)
  | cons t rest ih =>
    obtain ⟨ht, hrest⟩ := List.forall_mem_cons.1 h
    cases rest with
    | nil =>
      rw [String.intercalate_singleton, List.forall_mem_singleton]
    | cons u rest =>
      rw [String.intercalate_cons_cons, List.forall_mem_cons, ← ih hrest]
      exact clear_between (by decide) ht.isSealed (Closed.commas hrest).no_bracket

/-- Whether a text starts with a character that is no quote shows in what the reader finds. -/
theorem head?_masked_iff {d : Char} (hd : Mode.isPlain d = true) (t : String) :
    (masked t).head? = some (.code d) ↔ t.toList.head? = some d := by
  rw [masked]
  cases t.toList with
  | nil => simp [Mode.marks]
  | cons e cs =>
    rw [Mode.marks, Mode.step, Mode.enter]
    by_cases hq : e = '\''
    · subst hq
      have hne : '\'' ≠ d := fun h => absurd hd (by rw [← h]; decide)
      simp [hne]
    · by_cases hb : e = '['
      · subst hb
        have hne : '[' ≠ d := fun h => absurd hd (by rw [← h]; decide)
        simp [hne]
      · simp [hq, hb]

/-- A minus sign before a text starts a comment just if the text starts with one. -/
theorem clear_negated (h : Closed t) :
    Clear c (parenthesized ("-" ++ t)) ↔
      Clear c t ∧ ¬ (c = .line ∧ t.toList.head? = some '-') := by
  have hminus : Closed "-" := .of_inert (by decide)
  have hfound : (masked "-").getLast? = some (.code '-') := rfl
  rw [clear_parenthesized (hminus.append h), clear_append_iff rfl h.no_bracket, hfound,
    ← head?_masked_iff rfl]
  have hclear : Clear c "-" := .singleton _
  rw [and_iff_right hclear]
  refine and_congr_right fun _ => ?_
  cases c with
  | line =>
    constructor
    · rintro h ⟨-, hhead⟩
      exact h _ rfl _ hhead rfl rfl
    · rintro h _ ⟨⟩ n hn - hd
      exact h ⟨rfl, hd ▸ hn⟩
  | block =>
    refine iff_of_true ?_ fun h => nomatch h.1
    rintro _ ⟨⟩ n - h
    exact absurd h (by decide)

/-! ## Blanks at the ends -/

theorem Comment.apart_of_isBlank {m n : Mark} (h : m.isBlank = true ∨ n.isBlank = true) :
    c.Apart m n := by
  rintro rfl rfl
  cases c <;> exact absurd h (by decide)

theorem isChain_dropWhile (found : List Mark) :
    (found.dropWhile Mark.isBlank).IsChain c.Apart ↔ found.IsChain c.Apart := by
  induction found with
  | nil => rfl
  | cons m found ih =>
    by_cases hm : m.isBlank = true
    · rw [List.dropWhile_cons_of_pos hm, ih, List.isChain_cons]
      exact (and_iff_right fun n _ => Comment.apart_of_isBlank (.inl hm)).symm
    · rw [List.dropWhile_cons_of_neg hm]

theorem isChain_rdropWhile (found : List Mark) :
    (found.rdropWhile Mark.isBlank).IsChain c.Apart ↔ found.IsChain c.Apart := by
  induction found using List.reverseRecOn with
  | nil => rfl
  | append_singleton found m ih =>
    by_cases hm : m.isBlank = true
    · rw [List.rdropWhile_concat_pos _ _ _ hm, ih, List.isChain_append]
      refine (and_iff_left ⟨.singleton m, ?_⟩).symm
      rintro _ - _ ⟨⟩
      exact Comment.apart_of_isBlank (.inr hm)
    · rw [List.rdropWhile_concat_neg _ _ _ hm]

/-- Blanks at the ends of a text start no comment. -/
theorem clear_trim (h : isSealed t = true) : Clear c (trim t) ↔ Clear c t := by
  rw [Clear, Clear, masked_trim h, trimMarks, isChain_rdropWhile, isChain_dropWhile]

end SqlWright.Text
