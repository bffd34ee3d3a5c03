import SqlWright.Proofs.Expr.Closed
import SqlWright.Proofs.Text.Words

/-!
# Compiled expressions are unlinked

No expression shows a connective outside its quotes and parentheses, so what is written around it
cannot be taken apart in another way than it was put together. Operators, tests and functions are
written with parentheses; what is written without them is made of literals, columns and keywords
that are no connectives.
-/

namespace SqlWright

open Text Outcome

/-! ## Literals and columns -/

theorem toUpper_of_isDigit {c : Char} (h : c.isDigit = true) : c.toUpper = c := by
  have hlower : ¬ ('a'.val ≤ c.val ∧ c.val ≤ 'z'.val) := by
    rw [Char.isDigit_iff_toNat] at h
    simp only [UInt32.le_iff_toNat_le, Char.toNat_val, Char.reduceToNat] at h ⊢
    omega
  exact dif_neg hlower

/-- Numbers are written without the letters that tell keywords from them. -/
theorem Numeral.letters {c : Char} (h : c.isDigit = true ∨ c ∈ numeralMarks) :
    c.toUpper ∉ ['N', 'O', 'R'] := by
  rcases h with hdigit | hmark
  · have hne {d : Char} (hd : d.isDigit = false) : c ≠ d := ne_of_isDigit hdigit hd
    rw [toUpper_of_isDigit hdigit]
    simp [hne]
  · have hall : numeralMarks.all (fun d => d.toUpper ∉ ['N', 'O', 'R']) = true := by decide
    exact of_decide_eq_true (List.all_eq_true.1 hall c hmark)

theorem Numeral.all_isInert {cs : List Char} (h : Numeral cs) : cs.all Closed.isInert = true :=
  List.all_eq_true.2 fun c hc => (isWord_iff.1 (h.inert c hc)).1

theorem Numeral.simple {t : String} (h : Numeral t.toList) : Simple t :=
  .of_letters h.all_isInert fun c hc => letters (h c hc)

theorem Simple.ofLiterals : OfLiterals Simple where
  numeral h := Numeral.simple h.numeral
  quoted := .quoted
  null := .plain (by decide) (by decide) (by decide)
  commas := .commas

theorem Registry.aliasAt_simple (k : Nat) : Simple (aliasAt k) := by
  have hdigits := Decimal.numeral_toDigits k
  refine .of_letters ?_ ?_
  · rw [toList_aliasAt, List.all_cons, hdigits.all_isInert]
    decide
  · rw [toList_aliasAt]
    exact List.forall_mem_cons.2 ⟨by decide, fun c hc => Numeral.letters (hdigits c hc)⟩

/-- A column under an alias of a chain of mentions. -/
theorem Registry.Numbered.qualified_simple {r : Registry} (hr : r.Numbered) {t : MappedType}
    {name : String} (h : r.aliasOf? t = some name) (c : Column) :
    Simple (name ++ "." ++ c.quoted) := by
  obtain ⟨e, he, rfl⟩ := Option.map_eq_some_iff.1 h
  obtain ⟨k, -, hk⟩ := hr.exists_aliasAt (List.mem_of_find?_eq_some he)
  have hdot : Simple "." := .plain (by decide) (by decide) (by decide)
  have hends : endsApart (e.aliasName ++ ".") = true := by
    rw [endsApart_append _ (by decide)]
    decide
  have halias : Simple e.aliasName := hk ▸ aliasAt_simple k
  exact (halias.append hdot (.inr (by decide))).append (.bracketed c.name) (.inl hends)

theorem Scope.column_simple {s : Scope} (hs : s.Numbered) {t : MappedType} {member text : String}
    (h : s.column t member = .ok text) : Simple text := by
  obtain ⟨name, hn, h⟩ := bind_eq_ok.1 h
  obtain ⟨c, -, h⟩ := bind_eq_ok.1 h
  cases h
  obtain ⟨u, hu⟩ := aliasOf_eq_ok hn
  exact hs.qualified_simple hu c

namespace Expr

/-! ## Texts at a node -/

section Texts

variable {l r t u v items : String}

theorem binaryText_unlinked (op : BinaryOp) {keyword : String} (hk : op.keyword? = some keyword)
    (hl : Closed l) (hr : Closed r) : Unlinked (binaryText op keyword l r) := by
  refine .parenthesized (Closed.spaced hl ?_ hr)
  split
  · split <;> exact .of_inert (by decide)
  · exact (op.keyword_scoped (n := 0) hk).closed

theorem unaryText_unlinked (op : UnaryOp) (h : Unlinked t) : Unlinked (unaryText op t) := by
  cases op with
  | negate =>
    have hminus : Closed "-" := .of_inert (by decide)
    exact .parenthesized (hminus.append h.closed)
  | not =>
    have hnot : Unlinked "NOT " := .plain (by decide) (by decide)
    exact hnot.append h (.inl (by decide))
  | convert => exact h

/-- A keyword with blanks around it may stand between two texts. -/
theorem unlinked_between {keyword : String} (ht : Unlinked t) (hk : Unlinked keyword)
    (hu : Unlinked u) (hne : keyword ≠ "") (hopens : opensApart keyword = true)
    (hends : endsApart keyword = true) : Unlinked (t ++ keyword ++ u) :=
  (ht.append hk (.inr hopens)).append hu (.inl ((endsApart_append t hne).trans hends))

theorem conditionalText_unlinked (ht : Unlinked t) (hu : Unlinked u) (hv : Unlinked v) :
    Unlinked (conditionalText t u v) := by
  have hwhen : Unlinked "CASE WHEN " := .plain (by decide) (by decide)
  have hthen : Unlinked " THEN " := .plain (by decide) (by decide)
  have helse : Unlinked " ELSE " := .plain (by decide) (by decide)
  have hend : Unlinked " END" := .plain (by decide) (by decide)
  have htest := hwhen.append ht.grouped (.inl (by decide))
  have hchoice := unlinked_between htest hthen hu (by decide) (by decide) (by decide)
  have hother := unlinked_between hchoice helse hv (by decide) (by decide) (by decide)
  exact hother.append hend (.inr (by decide))

theorem membershipText_eq (v items : String) :
    membershipText v items =
      if items = "" then Text.parenthesized "1=0" else v ++ " IN " ++ Text.parenthesized items := by
  have hempty : "(1=0)" = Text.parenthesized "1=0" := by decide
  have hopen : " IN (" = " IN " ++ "(" := by decide
  rw [membershipText, hempty, hopen, Text.parenthesized, Text.parenthesized]
  simp only [String.append_assoc]

theorem membershipText_unlinked (hv : Unlinked v) (hi : Closed items) :
    Unlinked (membershipText v items) := by
  have hin : Unlinked " IN " := .plain (by decide) (by decide)
  rw [membershipText_eq]
  split
  · exact .parenthesized (.of_inert (by decide))
  · exact unlinked_between hv hin (.parenthesized hi) (by decide) (by decide) (by decide)

theorem memberTexts_unlinked (named : Bool) (names : List String) {texts : List String}
    (h : ∀ t ∈ texts, Unlinked t) : ∀ t ∈ memberTexts named names texts, Unlinked t := by
  intro t ht
  obtain ⟨m, hm, rfl⟩ := List.mem_map.1 ht
  have hm := List.of_mem_zip (List.mem_of_mem_filter hm)
  have has : Unlinked " AS " := .plain (by decide) (by decide)
  rw [memberText]
  split
  · exact unlinked_between (h m.2 hm.2) has (Simple.bracketed m.1).toUnlinked (by decide)
      (by decide) (by decide)
  · exact h m.2 hm.2

theorem callText_unlinked {method text : String} {texts : List String}
    (h : ∀ t ∈ texts, Unlinked t) (hc : callText method texts = .ok text) : Unlinked text := by
  have hfunction (a : Aggregate) {t : String} (ht : Closed t) :
      Unlinked (a.keyword ++ Text.parenthesized t) := by
    have ha : Unlinked a.keyword := by cases a <;> exact .plain (by decide) (by decide)
    have hopens : opensApart (Text.parenthesized t) = true := by
      simp [opensApart, Text.parenthesized, Identifier.isNameRest]
    exact ha.append (.parenthesized ht) (.inr hopens)
  unfold callText at hc
  split at hc
  · split at hc
    · cases hc
      exact membershipText_unlinked (h _ (by simp)) (h _ (by simp)).closed
    · cases hc
  · split at hc
    · next a _ _ =>
      cases hc
      exact hfunction a (h _ List.mem_cons_self).closed
    · split at hc
      · cases hc
        exact hfunction .count (.of_inert (t := "*") (by decide))
      · cases hc
    · unfold onlyText at hc
      split at hc
      · cases hc
        exact h _ List.mem_cons_self
      · cases hc

end Texts

/-- A node shows no connective if its operands show none. -/
theorem assemble_unlinked {s : Scope} (hs : s.Numbered) {named : Bool} {hint : Option EnumColumn}
    {e : Expr} (he : e.isTimeless = true) {texts : List String} (h : ∀ t ∈ texts, Unlinked t)
    {text : String} (ha : assemble s named hint e texts = .ok text) : Unlinked text := by
  unfold assemble at ha
  split at ha
  · cases ha
    exact Simple.empty.toUnlinked
  · exact (Scope.column_simple hs ha).toUnlinked
  · exact (memberValue_of_literals Simple.ofLiterals he ha).toUnlinked
  · cases ha
  · cases ha
    exact (Simple.ofLiterals.literalFor hint _ he).toUnlinked
  · cases ha
    exact (Simple.ofLiterals.literalFor hint _ he).toUnlinked
  · split at ha
    · next hk =>
      cases ha
      exact binaryText_unlinked _ hk (h _ (by simp)).closed (h _ (by simp)).closed
    · cases ha
  · cases ha
    exact unaryText_unlinked _ (h _ (by simp))
  · cases ha
    exact conditionalText_unlinked (h _ (by simp)) (h _ (by simp)) (h _ (by simp))
  · cases ha
    exact .commas (memberTexts_unlinked named _ h)
  · exact callText_unlinked h ha
  · cases ha
    exact Simple.empty.toUnlinked

/-! ## Whole expressions -/

theorem render_unlinked {s : Scope} (hs : s.Numbered) {named : Bool} (hint : Option EnumColumn)
    (e : Expr) (he : e.isTimeless = true) {text : String} (h : render s named hint e = .ok text) :
    Unlinked text := by
  induction hint, e using operands_induction generalizing text with
  | node hint e ih =>
    rw [render_eq_assemble] at h
    obtain ⟨texts, ht, ha⟩ := bind_eq_ok.1 h
    have hunlinked : ∀ t ∈ texts, Unlinked t :=
      forall_mem_of_mapM ht fun o ho t hot => ih o ho (allOf_of_mem_operands he ho) hot
    exact assemble_unlinked hs he hunlinked ha

theorem compile_unlinked {s : Scope} (hs : s.Numbered) {named : Bool} {e : Expr}
    (he : e.isTimeless = true) {text : String} (h : e.compile s named = .ok text) :
    Unlinked text := by
  obtain ⟨t, ht, rfl⟩ := map_eq_ok.1 h
  exact (render_unlinked hs none e he ht).trim

end Expr

end SqlWright
