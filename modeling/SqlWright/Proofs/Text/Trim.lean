import Mathlib.Data.List.DropRight
import SqlWright.Proofs.Text.Scan

/-!
# Blanks at the ends of a statement

What the reader of quoted text finds once the blanks at both ends are cut off. A blank is never a
quote, so in a text that ends outside its quotes the cut takes nothing but code.
-/

namespace SqlWright.Text

/-! ## Blanks -/

theorem trimBack_eq_rdropWhile (cs : List Char) : trimBack cs = cs.rdropWhile isBlank := rfl

theorem isPlain_of_isBlank {c : Char} (h : isBlank c = true) : Mode.isPlain c = true := by
  by_contra hp
  have hc : c = '\'' ∨ c = '[' ∨ c = ']' ∨ c = ';' := by
    simpa [Mode.isPlain, or_assoc, -not_and, Classical.not_and_iff_not_or_not] using hp
  rcases hc with rfl | rfl | rfl | rfl <;> exact absurd h (by decide)

/-- A text that is its own trimmed form does not begin with a blank. -/
theorem head?_not_blank {s : String} (h : trim s = s) :
    ∀ c ∈ s.toList.head?, ¬ isBlank c = true := by
  intro c hc hblank
  obtain ⟨cs, hs⟩ : ∃ cs, s.toList = c :: cs := by
    cases hcs : s.toList with
    | nil =>
      rw [hcs] at hc
      cases hc
    | cons d cs =>
      rw [hcs] at hc
      cases hc
      exact ⟨cs, rfl⟩
  have hsub : (trimBack (trimFront (c :: cs))).length ≤ cs.length := by
    rw [trimFront, List.dropWhile_cons_of_pos hblank]
    have hback := List.rdropWhile_prefix isBlank (cs.dropWhile isBlank)
    exact Nat.le_trans hback.length_le (List.dropWhile_sublist _).length_le
  have hlen : (trimBack (trimFront s.toList)).length = s.toList.length := by
    conv_rhs => rw [← h, trim, String.toList_ofList]
  rw [hs, List.length_cons] at hlen
  omega

/-- Whether a mark is a blank outside the quotes. -/
def Mark.isBlank : Mark → Bool
  | .code c => Text.isBlank c
  | .name _ | .literal => false

/-- Marks without the blanks at either end. -/
def trimMarks (found : List Mark) : List Mark :=
  (found.dropWhile Mark.isBlank).rdropWhile Mark.isBlank

theorem trimMarks_sublist (found : List Mark) : (trimMarks found).Sublist found :=
  ((List.rdropWhile_prefix _ _).sublist).trans (List.dropWhile_sublist _)

namespace Mode

/-! ## Blanks at the front -/

theorem enter_blank {c : Char} (h : isBlank c = true) : enter c = (.code, [.code c]) :=
  step_plain (m := .code) rfl (isPlain_of_isBlank h)

theorem head_enter_not_blank {c : Char} (h : ¬ isBlank c = true) :
    ∃ mark, (enter c).2 = [mark] ∧ ¬ mark.isBlank = true := by
  unfold enter
  split
  · exact ⟨.literal, rfl, Bool.false_ne_true⟩
  · split
    · exact ⟨.name c, rfl, Bool.false_ne_true⟩
    · exact ⟨.code c, rfl, h⟩

theorem after_trimFront (cs : List Char) : Mode.code.after (trimFront cs) = Mode.code.after cs := by
  induction cs with
  | nil => rfl
  | cons c cs ih =>
    rw [trimFront] at ih ⊢
    by_cases h : isBlank c = true
    · rw [List.dropWhile_cons_of_pos h, ih, after, step, enter_blank h]
    · rw [List.dropWhile_cons_of_neg h]

theorem marks_trimFront (cs : List Char) :
    Mode.code.marks (trimFront cs) = (Mode.code.marks cs).dropWhile Mark.isBlank := by
  induction cs with
  | nil => rfl
  | cons c cs ih =>
    rw [trimFront] at ih ⊢
    by_cases h : isBlank c = true
    · rw [List.dropWhile_cons_of_pos h, ih, marks, step, enter_blank h]
      exact (List.dropWhile_cons_of_pos (show (Mark.code c).isBlank = true from h)).symm
    · obtain ⟨mark, hm, hb⟩ := head_enter_not_blank h
      rw [List.dropWhile_cons_of_neg h, marks, step, hm]
      exact (List.dropWhile_cons_of_neg hb).symm

/-! ## Blanks at the back -/

/-- A step into a literal finds its placeholder, or goes on with a literal that was found before. -/
theorem step_inString {m : Mode} {c : Char}
    (h : (m.step c).1 = .inString ∨ (m.step c).1 = .atApostrophe) :
    (m.step c).2 = [.literal] ∨ ((m.step c).2 = [] ∧ (m = .inString ∨ m = .atApostrophe)) := by
  cases m with
  | inString => exact .inr ⟨rfl, .inl rfl⟩
  | inName => by_cases hb : c = ']' <;> simp [step, hb] at h
  | code =>
    by_cases hq : c = '\''
    · simp [step, enter, hq]
    · by_cases ho : c = '[' <;> simp [step, enter, hq, ho] at h
  | atApostrophe =>
    by_cases hq : c = '\''
    · simp [step, hq]
    · by_cases ho : c = '[' <;> simp [step, enter, hq, ho] at h
  | atBracket =>
    by_cases hb : c = ']'
    · simp [step, hb] at h
    · by_cases hq : c = '\''
      · simp [step, enter, hq]
      · by_cases ho : c = '[' <;> simp [step, enter, hb, hq, ho] at h

/-- Inside a literal, and right after the mark that may end it, the placeholder of that literal is
what was found last. -/
theorem getLast?_of_inString (cs : List Char)
    (h : Mode.code.after cs = .inString ∨ Mode.code.after cs = .atApostrophe) :
    (Mode.code.marks cs).getLast? = some .literal := by
  induction cs using List.reverseRecOn with
  | nil => rcases h with h | h <;> cases h
  | append_singleton cs c ih =>
    rw [after_append] at h
    rw [marks_append, marks, marks, List.append_nil]
    rcases step_inString h with hl | ⟨hn, hm⟩
    · rw [hl, List.getLast?_concat]
    · rw [hn, List.append_nil, ih hm]

theorem step_blank {m : Mode} {c : Char} (hc : isBlank c = true)
    (h : (m.step c).1.isOutside = true) : m.isOutside = true ∧ (m.step c).2 = [.code c] := by
  have hp := isPlain_of_isBlank hc
  cases m with
  | code | atApostrophe | atBracket => exact ⟨rfl, by rw [step_plain rfl hp]⟩
  | inString =>
    have hq : c ≠ '\'' := by
      intro he
      subst he
      exact absurd hp (by decide)
    rw [step, if_neg hq] at h
    cases h
  | inName =>
    have hb : c ≠ ']' := by
      intro he
      subst he
      exact absurd hp (by decide)
    rw [step, if_neg hb] at h
    cases h

/-- Where a text ends with something else than a blank, the last thing found is no blank. -/
theorem getLast?_not_blank {cs : List Char} {c : Char} (hc : ¬ isBlank c = true)
    (h : (Mode.code.after (cs ++ [c])).isOutside = true) :
    ∃ mark, (Mode.code.marks (cs ++ [c])).getLast? = some mark ∧ ¬ mark.isBlank = true := by
  rw [after_append] at h
  rw [marks_append, marks, marks, List.append_nil]
  have hlast (mark : Mark) (hb : ¬ mark.isBlank = true) :
      ∃ last, (Mode.code.marks cs ++ [mark]).getLast? = some last ∧ ¬ last.isBlank = true :=
    ⟨mark, List.getLast?_concat, hb⟩
  cases hm : Mode.code.after cs with
  | code =>
    obtain ⟨mark, hf, hb⟩ := head_enter_not_blank hc
    rw [step, hf]
    exact hlast mark hb
  | inString =>
    rw [step, List.append_nil, getLast?_of_inString cs (.inl hm)]
    exact ⟨.literal, rfl, Bool.false_ne_true⟩
  | atApostrophe =>
    rw [hm] at h
    by_cases hq : c = '\''
    · subst hq
      cases h
    · obtain ⟨mark, hf, hb⟩ := head_enter_not_blank hc
      rw [step, if_neg hq, hf]
      exact hlast mark hb
  | inName => exact hlast (.name c) Bool.false_ne_true
  | atBracket =>
    by_cases hb : c = ']'
    · rw [step, if_pos hb]
      exact hlast (.name c) Bool.false_ne_true
    · obtain ⟨mark, hf, hb'⟩ := head_enter_not_blank hc
      rw [step, if_neg hb, hf]
      exact hlast mark hb'

theorem trimBack_scan (cs : List Char) (h : (Mode.code.after cs).isOutside = true) :
    (Mode.code.after (trimBack cs)).isOutside = true ∧
      Mode.code.marks (trimBack cs) = (Mode.code.marks cs).rdropWhile Mark.isBlank := by
  rw [trimBack_eq_rdropWhile]
  induction cs using List.reverseRecOn with
  | nil => exact ⟨h, rfl⟩
  | append_singleton cs c ih =>
    by_cases hc : isBlank c = true
    · have hs := h
      rw [after_append] at hs
      obtain ⟨hm, hf⟩ := step_blank hc hs
      rw [List.rdropWhile_concat_pos _ _ _ hc, marks_append, marks, marks, List.append_nil, hf,
        List.rdropWhile_concat_pos _ _ _ (show (Mark.code c).isBlank = true from hc)]
      exact ih hm
    · rw [List.rdropWhile_concat_neg _ _ _ hc]
      refine ⟨h, (List.rdropWhile_eq_self_iff.2 fun hn => ?_).symm⟩
      obtain ⟨mark, hl, hb⟩ := getLast?_not_blank hc h
      rw [List.getLast?_eq_getLast_of_ne_nil hn, Option.some.injEq] at hl
      rwa [hl]

end Mode

/-! ## The cut text -/

/-- A text that ends outside its quotes does so without its outer blanks too. -/
theorem isSealed_trim {t : String} (h : isSealed t = true) : isSealed (trim t) = true := by
  rw [isSealed, trim, String.toList_ofList]
  exact (Mode.trimBack_scan _ (by rwa [Mode.after_trimFront])).1

theorem masked_trim {t : String} (h : isSealed t = true) :
    masked (trim t) = trimMarks (masked t) := by
  rw [masked, trim, String.toList_ofList,
    (Mode.trimBack_scan _ (by rwa [Mode.after_trimFront])).2, Mode.marks_trimFront]
  rfl

end SqlWright.Text
