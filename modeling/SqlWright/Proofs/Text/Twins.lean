import SqlWright.Proofs.Text.Closed

/-!
# Twin texts

Two texts that are the same once every string literal is replaced by a placeholder. What a compiler
does with a text by looking at it, it does with its twin too: no literal can pass for a keyword, for
nothing, or for a parenthesis.
-/

namespace SqlWright.Text

/-- Two texts that differ at most inside their string literals, that end outside their quotes, and
after which a reader stands in the same way. -/
structure Twins (t u : String) : Prop where
  after : Mode.code.after t.toList = Mode.code.after u.toList
  masked : masked t = masked u
  isSealed : isSealed t = true
  no_bracket : Mark.code ']' ∉ Text.masked t

namespace Twins

variable {t u v w : String}

theorem isSealed_right (h : Twins t u) : Text.isSealed u = true := by
  rw [Text.isSealed, ← h.after]
  exact h.isSealed

theorem symm (h : Twins t u) : Twins u t :=
  ⟨h.after.symm, h.masked.symm, h.isSealed_right, h.masked ▸ h.no_bracket⟩

theorem trans (h : Twins t u) (h' : Twins u v) : Twins t v :=
  ⟨h.after.trans h'.after, h.masked.trans h'.masked, h.isSealed, h.no_bracket⟩

/-- A closed text is its own twin. -/
theorem of_closed (h : Closed t) : Twins t t := ⟨rfl, rfl, h.isSealed, h.no_bracket⟩

/-- So is a text without quotes and semicolons. -/
theorem of_plain (h : t.toList.all Mode.isPlain = true) : Twins t t where
  after := rfl
  masked := rfl
  isSealed := Mode.after_plain rfl h
  no_bracket := by
    rw [Text.masked, Mode.marks_plain rfl h, List.mem_map]
    rintro ⟨c, hc, he⟩
    rw [Mark.code.inj he] at hc
    exact absurd (List.all_eq_true.1 h _ hc) (by decide)

/-- Any two string literals are twins. -/
theorem quoted (s s' : String) : Twins (quoted s) (quoted s') where
  after := by rw [after_quoted, after_quoted]
  masked := by rw [masked_quoted, masked_quoted]
  isSealed := (Closed.quoted s).isSealed
  no_bracket := (Closed.quoted s).no_bracket

/-! ## Tests on texts -/

/-- A text without quotes is told from all others by what a reader finds. -/
theorem eq_iff (h : Twins t u) (hw : w.toList.all Mode.isPlain = true) : t = w ↔ u = w := by
  have hcode {s : String} : Text.masked s = w.toList.map .code ↔ s = w := by
    constructor
    · intro hs
      exact String.toList_injective (Mode.eq_of_marks_eq_map hs)
    · intro he
      subst he
      exact Mode.marks_plain rfl hw
  rw [← hcode, h.masked, hcode]

theorem opensGroup_eq (h : Twins t u) : opensGroup t = opensGroup u := by
  have hi : t.toList.head? = some '(' ↔ u.toList.head? = some '(' := by
    rw [Mode.opens_iff, Mode.opens_iff]
    show (Text.masked t).head? = _ ↔ _
    rw [h.masked]
    rfl
  rw [opensGroup, opensGroup, Bool.eq_iff_iff, beq_iff_eq, beq_iff_eq]
  exact hi

/-! ## Twins put together -/

theorem append (h : Twins t u) (h' : Twins v w) : Twins (t ++ v) (u ++ w) := by
  have hb' : Mark.code ']' ∉ Text.masked w := h'.masked ▸ h'.no_bracket
  have hnil : v.toList = [] ↔ w.toList = [] := by
    rw [String.toList_eq_nil_iff, String.toList_eq_nil_iff]
    exact h'.eq_iff (by decide)
  refine ⟨?_, ?_, isSealed_append h.isSealed h'.isSealed h'.no_bracket, ?_⟩
  · rw [String.toList_append, String.toList_append, Mode.after_append, Mode.after_append]
    by_cases hv : v.toList = []
    · rw [hv, hnil.1 hv]
      exact h.after
    · rw [Mode.after_eq_after h.isSealed (Mode.head?_ne_of_not_mem h'.no_bracket) hv,
        Mode.after_eq_after h.isSealed_right (Mode.head?_ne_of_not_mem hb') (mt hnil.2 hv)]
      exact h'.after
  · rw [masked_append h.isSealed h'.no_bracket, masked_append h.isSealed_right hb', h.masked,
      h'.masked, h.after]
  · rw [masked_append h.isSealed h'.no_bracket, List.mem_append, not_or]
    exact ⟨h.no_bracket, fun hm => h'.no_bracket ((joined_sublist _ _).subset hm)⟩

theorem parenthesized (h : Twins t u) : Twins (parenthesized t) (parenthesized u) := by
  have ho : Twins "(" "(" := .of_plain (by decide)
  have hc : Twins ")" ")" := .of_plain (by decide)
  exact (ho.append h).append hc

theorem grouped (h : Twins t u) : Twins (grouped t) (grouped u) := by
  rw [Text.grouped, Text.grouped, h.opensGroup_eq]
  split
  · exact h
  · exact h.parenthesized

theorem intercalate {separator : String} (hs : Twins separator separator)
    {ts us : List String} (h : List.Forall₂ Twins ts us) :
    Twins (String.intercalate separator ts) (String.intercalate separator us) := by
  induction h with
  | nil =>
    rw [String.intercalate_nil]
    exact of_closed .empty
  | @cons t u ts us ht hrest ih =>
    cases hrest with
    | nil =>
      rw [String.intercalate_singleton, String.intercalate_singleton]
      exact ht
    | cons _ _ =>
      rw [String.intercalate_cons_cons, String.intercalate_cons_cons]
      exact (ht.append hs).append ih

/-- Blanks at the ends of twins are cut off alike. -/
theorem masked_trim_eq (h : Twins t u) : Text.masked (trim t) = Text.masked (trim u) := by
  rw [Text.masked_trim h.isSealed, Text.masked_trim h.isSealed_right, h.masked]

end Twins

end SqlWright.Text
