import SqlWright.Proofs.Text.Surface
import SqlWright.Proofs.Text.Trim
import SqlWright.Proofs.Value.Closed

/-!
# Literals and blanks at their ends

No literal begins or ends with a blank, whatever the value is, coerced or not. Blanks inside a
string stand between its apostrophes, so cutting off the blanks at the ends of a compiled value
takes nothing away from it.
-/

namespace SqlWright

open Text

/-! ## Texts that are their own trimmed forms -/

theorem isBlank_of_isDigit {c : Char} (h : c.isDigit = true) : isBlank c = false := by
  simp only [Char.isDigit, ge_iff_le, Bool.and_eq_true, decide_eq_true_eq,
    UInt32.le_iff_toNat_le] at h
  have hrange : 48 ≤ c.toNat ∧ c.toNat ≤ 57 := h
  simp only [isBlank, Bool.or_eq_false_iff, Bool.and_eq_false_iff, decide_eq_false_iff_not,
    beq_eq_false_iff_ne]
  omega

theorem Numeral.not_blank {cs : List Char} (h : Numeral cs) : ∀ c ∈ cs, isBlank c = false := by
  intro c hc
  rcases h c hc with hdigit | hmark
  · exact isBlank_of_isDigit hdigit
  · have hmarks : ∀ d ∈ numeralMarks, isBlank d = false := by
      simp [numeralMarks, isBlank]
    exact hmarks c hmark

theorem Text.trim_numeral {t : String} (h : Numeral t.toList) : trim t = t :=
  trim_eq_self (fun c hc => h.not_blank c (List.mem_of_mem_head? hc))
    fun c hc => h.not_blank c (List.mem_of_mem_getLast? hc)

theorem Text.trim_quoted (s : String) : trim (quoted s) = quoted s := by
  have hlist : (quoted s).toList = '\'' :: (doubled '\'' s.toList ++ ['\'']) :=
    String.toList_ofList
  exact trim_enclosed hlist (by decide) (by decide)

theorem Text.trim_apostrophe : trim "'" = "'" := by decide

/-- A comma between two such texts makes another one, even if one of them is empty. -/
theorem Text.trim_link {t u : String} (ht : trim t = t) (hu : trim u = u) :
    trim (t ++ "," ++ u) = t ++ "," ++ u := by
  have hlist : (t ++ "," ++ u).toList = t.toList ++ ',' :: u.toList := by simp
  refine trim_eq_self ?_ ?_
  · intro c hc
    rw [hlist, List.head?_append] at hc
    cases hhead : t.toList.head? with
    | none =>
      rw [hhead] at hc
      cases hc
      decide
    | some d =>
      rw [hhead] at hc
      cases hc
      exact Bool.eq_false_iff.2 (head?_not_blank ht _ hhead)
  · intro c hc
    rw [hlist, List.getLast?_append] at hc
    cases hlast : u.toList.getLast? with
    | none =>
      rw [List.getLast?_eq_none_iff.1 hlast] at hc
      cases hc
      decide
    | some d =>
      rw [List.getLast?_cons, hlast] at hc
      cases hc
      rw [← hu] at hlast
      exact getLast?_trim u _ hlast

theorem Text.trim_commas {texts : List String} (h : ∀ t ∈ texts, trim t = t) :
    trim (String.intercalate "," texts) = String.intercalate "," texts :=
  separated_induction (P := fun t => trim t = t) (by decide) trim_link h

/-! ## Literals -/

theorem OfLiterals.trimmed : OfLiterals fun t => trim t = t where
  numeral h := trim_numeral h.numeral
  quoted := trim_quoted
  null := by decide
  commas := trim_commas

namespace Value

mutual
theorem trim_literal (mode : EnumMode) : (v : Value) → trim (v.literal mode) = v.literal mode
  | .offsetDateTime _ | .time _ => trim_apostrophe
  | .list items => trim_commas (trim_literals mode items)
  | .null | .bool _ | .int _ | .float _ | .decimal _ | .string _ | .guid _ | .dateTime _ | .date _
  | .binary _ | .json _ | .enumerated _ => OfLiterals.trimmed.literal mode _ rfl

theorem trim_literals (mode : EnumMode) :
    (items : List Value) → ∀ t ∈ literals mode items, trim t = t
  | [] => List.forall_mem_nil _
  | v :: rest => List.forall_mem_cons.2 ⟨trim_literal mode v, trim_literals mode rest⟩
end

mutual
theorem trim_literalAs (column : EnumColumn) :
    (v : Value) → trim (v.literalAs column) = v.literalAs column
  | .offsetDateTime _ | .time _ => trim_apostrophe
  | .list items => trim_commas (trim_literalsAs column items)
  | .null | .bool _ | .int _ | .float _ | .decimal _ | .string _ | .guid _ | .dateTime _ | .date _
  | .binary _ | .json _ | .enumerated _ => OfLiterals.trimmed.literalAs column _ rfl

theorem trim_literalsAs (column : EnumColumn) :
    (items : List Value) → ∀ t ∈ literalsAs column items, trim t = t
  | [] => List.forall_mem_nil _
  | v :: rest => List.forall_mem_cons.2 ⟨trim_literalAs column v, trim_literalsAs column rest⟩
end

/-- **No literal begins or ends with a blank.** -/
theorem trim_literalFor (column : Option EnumColumn) (mode : EnumMode) (v : Value) :
    trim (v.literalFor column mode) = v.literalFor column mode := by
  cases column with
  | none => exact trim_literal mode v
  | some c => exact trim_literalAs c v

end Value

end SqlWright
