import SqlWright.Proofs.Expr.Closed
import SqlWright.Proofs.Text.Comments

/-!
# Comments in compiled expressions

A minus sign is written right before the text of what it negates. If that text starts with a minus
sign itself, because it starts with a negative number, the two start a comment, and the server skips
the rest of the line. No other comment ever starts in a compiled expression, whatever the names and
values in it are.
-/

namespace SqlWright

open Text Outcome

/-! ## Literals and columns -/

/-- A closed text in which no comment starts. -/
structure Text.Uncommented (t : String) : Prop where
  closed : Closed t
  clear : ∀ c, Clear c t

namespace Text

/-- No comment starts in characters of which none but the first can be the second of a comment. -/
theorem Clear.of_tail {c : Comment} {t : String} (hplain : t.toList.all Mode.isPlain = true)
    (h : c.second ∉ t.toList.tail) : Clear c t := by
  rw [Clear, masked_plain hplain, List.isChain_map, List.isChain_iff_forall_rel_of_append_cons_cons]
  intro d e before after heq _ he
  refine h ?_
  rw [heq, ← Mark.code.inj he]
  cases before with
  | nil => exact List.mem_cons_self
  | cons _ before => simp

namespace Uncommented

variable {t : String}

/-- In a number a minus sign has nothing before it. -/
theorem signed (h : Signed t.toList) : Uncommented t where
  closed := (h.numeral.inert.isScoped (n := 0)).closed
  clear c := by
    refine .of_tail (List.all_eq_true.2 fun d hd => isPlain_of_isWord (h.numeral.inert d hd)) ?_
    cases c with
    | line => exact h.minus
    | block =>
      intro hm
      have hnone : ¬ ('*'.isDigit = true ∨ '*' ∈ numeralMarks) := by decide
      exact hnone (h.numeral _ (List.mem_of_mem_tail hm))

theorem quoted (s : String) : Uncommented (quoted s) :=
  ⟨.quoted s, fun _ => clear_quoted s⟩

theorem commas {texts : List String} (h : ∀ t ∈ texts, Uncommented t) :
    Uncommented (String.intercalate "," texts) where
  closed := .commas fun t ht => (h t ht).closed
  clear c := (clear_commas fun t ht => (h t ht).closed).2 fun t ht => (h t ht).clear c

theorem ofLiterals : OfLiterals Uncommented where
  numeral := signed
  quoted := quoted
  null := ⟨.of_inert (by decide), fun c => by cases c <;> decide⟩
  commas := commas

end Uncommented

end Text

theorem Registry.qualified_clear {c : Comment} (k : Nat) (column : Column) :
    Clear c (aliasAt k ++ "." ++ column.quoted) := by
  obtain ⟨hplain, hmarks⟩ := masked_qualifier k
  refine .of_not_mem ?_
  rw [Column.quoted, masked_append_of_ne (Mode.after_plain rfl hplain)
    (Closed.bracketed _).no_bracket (Scopes.head?_bracketed _), hmarks, masked_bracketed]
  have hdigits : c.first ∉ Nat.toDigits 10 k := fun hd =>
    absurd (Nat.isDigit_of_mem_toDigits (by omega) (by omega) hd) (by cases c <;> decide)
  have hletter : c.first ≠ 't' := by cases c <;> decide
  have hdot : c.first ≠ '.' := by cases c <;> decide
  simp [qualifierRest, hdigits, hletter, hdot]

theorem Scope.column_clear {s : Scope} (hs : s.Numbered) {c : Comment} {t : MappedType}
    {member text : String} (h : s.column t member = .ok text) : Clear c text := by
  obtain ⟨name, hn, h⟩ := bind_eq_ok.1 h
  obtain ⟨column, -, h⟩ := bind_eq_ok.1 h
  cases h
  obtain ⟨u, hu⟩ := aliasOf_eq_ok hn
  obtain ⟨e, he, rfl⟩ := Option.map_eq_some_iff.1 hu
  obtain ⟨k, -, hk⟩ := hs.exists_aliasAt (List.mem_of_find?_eq_some he)
  rw [hk]
  exact Registry.qualified_clear k column

namespace Expr

/-! ## Texts at a node -/

section Texts

variable {c : Comment} {l r t u v items : String}

/-- A keyword with a blank on either side keeps apart what stands around it. -/
theorem clear_spaced {keyword : String} (hk : isQuiet (" " ++ keyword ++ " ") = true)
    (hl : Closed l) (hr : Closed r) :
    Clear c (l ++ " " ++ keyword ++ " " ++ r) ↔ Clear c l ∧ Clear c r := by
  have hbetween := clear_between (c := c) hk hl.isSealed hr.no_bracket
  simpa only [String.append_assoc] using hbetween

theorem binaryText_clear (op : BinaryOp) {keyword : String} (hk : op.keyword? = some keyword)
    (hl : Closed l) (hr : Closed r) :
    Clear c (binaryText op keyword l r) ↔ Clear c l ∧ Clear c r := by
  have hspaced {k : String} (hclosed : Closed k) (hquiet : isQuiet (" " ++ k ++ " ") = true) :
      Clear c (Text.parenthesized (l ++ " " ++ k ++ " " ++ r)) ↔ Clear c l ∧ Clear c r :=
    (clear_parenthesized (hl.spaced hclosed hr)).trans (clear_spaced hquiet hl hr)
  rw [binaryText]
  split
  · split
    · exact hspaced (.of_inert (by decide)) (by decide)
    · exact hspaced (.of_inert (by decide)) (by decide)
  · refine hspaced (op.keyword_scoped (n := 0) hk).closed ?_
    cases op <;> cases hk <;> decide

theorem conditionalText_clear (ht : Closed t) (hu : Closed u) (hv : Closed v) :
    Clear c (conditionalText t u v) ↔ Clear c t ∧ Clear c u ∧ Clear c v := by
  have hwhen : Closed "CASE WHEN " := .of_inert (by decide)
  have hthen : Closed " THEN " := .of_inert (by decide)
  have helse : Closed " ELSE " := .of_inert (by decide)
  have htest := hwhen.append ht.grouped
  have hchoice := (htest.append hthen).append hu
  have hother := (hchoice.append helse).append hv
  rw [conditionalText, clear_behind (by decide) hother.isSealed,
    clear_between (by decide) hchoice.isSealed hv.no_bracket,
    clear_between (by decide) htest.isSealed hu.no_bracket,
    clear_before (by decide) ht.grouped.no_bracket, clear_grouped ht, and_assoc]

theorem membershipText_clear (hv : Closed v) (hi : Closed items)
    (hne : membershipText v items ≠ "(1=0)") :
    Clear c (membershipText v items) ↔ Clear c v ∧ Clear c items := by
  rw [membershipText] at hne ⊢
  split at hne
  · exact absurd rfl hne
  · next hitems =>
    have hin : Spans 0 1 " IN (" := .plain (by decide) (by decide)
    have hopen := ((Spans.append hv hin).append (hi.under 1)).isSealed
    rw [if_neg hitems, clear_behind (by decide) hopen,
      clear_between (by decide) hv.isSealed hi.no_bracket]

theorem memberText_clear (named : Bool) (name : String) (ht : Closed t) :
    Clear c (memberText named name t) ↔ Clear c t := by
  rw [memberText]
  split
  · rw [clear_between (by decide) ht.isSealed (Closed.bracketed name).no_bracket]
    exact and_iff_left (clear_bracketed name)
  · exact Iff.rfl

theorem memberTexts_clear (named : Bool) (names : List String) {texts : List String}
    (hl : names.length = texts.length) (h : ∀ t ∈ texts, Closed t) :
    (∀ t ∈ memberTexts named names texts, Clear c t) ↔ ∀ t ∈ texts, Clear c t := by
  constructor
  · intro hclear t ht
    by_cases hne : t = ""
    · rw [hne]
      exact .nil
    · obtain ⟨i, hi, rfl⟩ := List.getElem_of_mem ht
      have hmem : (names[i], texts[i]) ∈ names.zip texts := by
        have hzip : i < (names.zip texts).length := by rw [List.length_zip]; omega
        exact List.getElem_zip (h := hzip) ▸ List.getElem_mem hzip
      refine (memberText_clear named names[i] (h _ ht)).1 (hclear _ ?_)
      exact List.mem_map.2 ⟨_, List.mem_filter.2 ⟨hmem, by simpa using hne⟩, rfl⟩
  · intro hclear t ht
    obtain ⟨m, hm, rfl⟩ := List.mem_map.1 ht
    have hm := (List.of_mem_zip (List.mem_of_mem_filter hm)).2
    exact (memberText_clear named m.1 (h _ hm)).2 (hclear _ hm)

/-- An aggregate has one operand or, to count all rows, none. -/
theorem length_callOperands_le {method : String} {a : Aggregate}
    (ha : Aggregate.ofName? method = some a) (target : Option Expr) (args : List Expr) :
    (callOperands method target args).length ≤ 1 := by
  have hmethod : method ≠ "Contains" := by
    rintro rfl
    cases ha
  simp only [callOperands, if_neg hmethod, ha, List.length_map]
  cases target.or args.head? <;> simp

theorem functionText_clear (a : Aggregate) (ht : Closed t) :
    Clear c (a.keyword ++ Text.parenthesized t) ↔ Clear c t := by
  have hquiet : isQuiet (a.keyword ++ "(") = true := by cases a <;> decide
  have hplain := isPlain_of_isQuiet hquiet
  have hopen : isSealed (a.keyword ++ "(" ++ t) = true :=
    isSealed_append (Mode.after_plain rfl hplain) ht.isSealed ht.no_bracket
  rw [Text.parenthesized, ← String.append_assoc, ← String.append_assoc,
    clear_behind (by decide) hopen, clear_before hquiet ht.no_bracket]

theorem callText_clear {method text : String} {texts : List String}
    (hl : ∀ a, Aggregate.ofName? method = some a → texts.length ≤ 1)
    (h : ∀ t ∈ texts, Closed t) (hc : callText method texts = .ok text) (hne : text ≠ "(1=0)") :
    Clear c text ↔ ∀ t ∈ texts, Clear c t := by
  unfold callText at hc
  split at hc
  · split at hc
    · cases hc
      rw [membershipText_clear (h _ (by simp)) (h _ (by simp)) hne]
      simp
    · cases hc
  · split at hc
    · next a _ _ =>
      cases hc
      rw [functionText_clear a (h _ List.mem_cons_self), List.forall_mem_singleton]
    · next a ha hmany =>
      split at hc
      · cases hc
        refine iff_of_true (by cases c <;> decide) fun t ht => ?_
        have hpos := List.length_pos_of_mem ht
        obtain ⟨u, hu⟩ := List.length_eq_one_iff.1 (Nat.le_antisymm (hl a ha) hpos)
        exact (hmany u hu).elim
      · cases hc
    · unfold onlyText at hc
      split at hc
      · cases hc
        rw [List.forall_mem_singleton]
      · cases hc

end Texts

/-! ## Nodes -/

/-- Between the operands of a node and what the node writes around them no comment starts, unless it
is a minus sign that the node writes. -/
theorem assemble_clear {s : Scope} (hs : s.Numbered) {named : Bool} {hint : Option EnumColumn}
    {e : Expr} (he : e.isTimeless = true) (hnot : ∀ operand, e ≠ .unary .negate operand)
    {texts : List String} (hl : texts.length = (e.operands hint).length)
    (hscoped : ∀ t ∈ texts, s.registry.Scopes t) {text : String}
    (ha : assemble s named hint e texts = .ok text) (hne : text ≠ "(1=0)") {c : Comment} :
    Clear c text ↔ ∀ t ∈ texts, Clear c t := by
  have h : ∀ t ∈ texts, Closed t := fun t ht => (hscoped t ht).closed
  have hleaf (hnone : texts.length = 0) (htext : Clear c text) :
      Clear c text ↔ ∀ t ∈ texts, Clear c t := by
    rw [List.eq_nil_of_length_eq_zero hnone]
    exact iff_of_true htext (List.forall_mem_nil _)
  cases e with
  | parameter t =>
    cases ha
    exact hleaf hl .nil
  | member owner name =>
    refine hleaf hl ?_
    cases owner with
    | parameter t => exact Scope.column_clear hs ha
    | _ =>
      simp only [assemble] at ha
      exact (memberValue_of_literals Uncommented.ofLiterals he ha).clear c
  | captured object => cases ha
  | fixed _ _ value | constant value =>
    cases ha
    exact hleaf hl ((Uncommented.ofLiterals.literalFor hint _ he).clear c)
  | binary op left right =>
    cases hk : op.keyword? with
    | none => simp [assemble, hk] at ha
    | some keyword =>
      rw [operands, hk] at hl
      obtain ⟨l, r, rfl⟩ := List.length_eq_two.1 hl
      simp only [assemble, hk] at ha
      cases ha
      rw [binaryText_clear op hk (h _ (by simp)) (h _ (by simp))]
      simp
  | unary op operand =>
    obtain ⟨t, rfl⟩ := List.length_eq_one_iff.1 hl
    cases ha
    rw [List.forall_mem_singleton] at h ⊢
    cases op with
    | negate => exact absurd rfl (hnot operand)
    | not => exact clear_before (by decide) h.no_bracket
    | convert => exact Iff.rfl
  | conditional test ifTrue ifFalse =>
    obtain ⟨t, u, v, rfl⟩ := List.length_eq_three.1 hl
    cases ha
    rw [conditionalText_clear (h _ (by simp)) (h _ (by simp)) (h _ (by simp))]
    simp
  | projection members =>
    cases ha
    have hlength : (members.map (·.1)).length = texts.length := by
      rw [hl, operands, List.length_map, List.length_map]
    rw [← memberTexts_clear named _ hlength h]
    exact clear_commas fun t ht => (memberTexts_scoped named _ hscoped t ht).closed
  | call method target args =>
    exact callText_clear (fun a hm => hl ▸ length_callOperands_le hm target args) h ha hne

/-! ## Whole expressions -/

/-- Somewhere in an expression a minus sign is written before a text that starts with a minus sign.
A membership test in an empty list does not count: none of its operands is written. -/
inductive NegatesMinus (s : Scope) (named : Bool) : Option EnumColumn → Expr → Prop
  | here {hint : Option EnumColumn} {operand : Expr} {text : String} :
      render s named none operand = .ok text → text.toList.head? = some '-' →
      NegatesMinus s named hint (.unary .negate operand)
  | inside {hint : Option EnumColumn} {e : Expr} {o : Expr × Option EnumColumn} :
      o ∈ e.operands hint → NegatesMinus s named o.2 o.1 → render s named hint e ≠ .ok "(1=0)" →
      NegatesMinus s named hint e

/-- The test in an empty list is clear. -/
theorem clear_false (c : Comment) : Clear c "(1=0)" := by
  cases c <;> decide

theorem parenthesized_minus_ne_false (t : String) : Text.parenthesized ("-" ++ t) ≠ "(1=0)" := by
  intro h
  have hlists := congrArg String.toList h
  simp [Text.parenthesized] at hlists

theorem render_negation {s : Scope} {named : Bool} {hint : Option EnumColumn} {operand : Expr}
    {text : String} : render s named hint (.unary .negate operand) = .ok text ↔
      ∃ t, render s named none operand = .ok t ∧ Text.parenthesized ("-" ++ t) = text := by
  rw [render, if_neg (by decide), bind_eq_ok]
  simp [unaryText]

theorem negatesMinus_negation_iff {s : Scope} {named : Bool} {hint : Option EnumColumn}
    {operand : Expr} {t : String} (h : render s named none operand = .ok t) :
    NegatesMinus s named hint (.unary .negate operand) ↔
      NegatesMinus s named none operand ∨ t.toList.head? = some '-' := by
  constructor
  · intro hn
    cases hn with
    | here hoperand hhead =>
      rw [h] at hoperand
      cases hoperand
      exact .inr hhead
    | inside ho hn _ =>
      rw [operands, List.mem_singleton] at ho
      subst ho
      exact .inl hn
  · rintro (hn | hhead)
    · refine .inside (o := (operand, none)) List.mem_cons_self hn fun hfalse => ?_
      obtain ⟨u, -, hu⟩ := render_negation.1 hfalse
      exact parenthesized_minus_ne_false u hu
    · exact .here h hhead

/-- Comments start in the text of an expression just where it negates a text that starts with a
minus sign, and they are comments up to the end of the line. -/
theorem render_clear_iff {s : Scope} (hs : s.Numbered) {named : Bool} (hint : Option EnumColumn)
    (e : Expr) (he : e.isTimeless = true) {text : String} (h : render s named hint e = .ok text)
    {c : Comment} : Clear c text ↔ ¬ (c = .line ∧ NegatesMinus s named hint e) := by
  induction hint, e using operands_induction generalizing text with
  | node hint e ih =>
    have hoperand {o : Expr × Option EnumColumn} (ho : o ∈ e.operands hint) {t : String}
        (ht : render s named o.2 o.1 = .ok t) :
        Clear c t ↔ ¬ (c = .line ∧ NegatesMinus s named o.2 o.1) :=
      ih o ho (allOf_of_mem_operands he ho) ht
    by_cases hnegation : ∃ operand, e = .unary .negate operand
    · obtain ⟨operand, rfl⟩ := hnegation
      obtain ⟨t, ht, rfl⟩ := render_negation.1 h
      have hmem : (operand, none) ∈ operands hint (.unary .negate operand) := List.mem_cons_self
      have hclosed := (render_scoped hs none operand (allOf_of_mem_operands he hmem) ht).closed
      rw [clear_negated hclosed, hoperand hmem ht, negatesMinus_negation_iff ht, ← not_or,
        ← and_or_left]
    have hnot (operand : Expr) : e ≠ .unary .negate operand := fun ho => hnegation ⟨operand, ho⟩
    by_cases hfalse : text = "(1=0)"
    · subst hfalse
      refine iff_of_true (clear_false c) fun hn => ?_
      cases hn.2 with
      | here => exact hnot _ rfl
      | inside _ _ hkept => exact hkept h
    · have hrender := h
      rw [render_eq_assemble] at hrender
      obtain ⟨texts, ht, ha⟩ := bind_eq_ok.1 hrender
      have hscoped : ∀ t ∈ texts, s.registry.Scopes t :=
        forall_mem_of_mapM ht fun o ho t hot =>
          render_scoped hs o.2 o.1 (allOf_of_mem_operands he ho) hot
      rw [assemble_clear hs he hnot (mapM_eq_ok.1 ht).length_eq.symm hscoped ha hfalse]
      constructor
      · rintro hclear ⟨hc, hn⟩
        cases hn with
        | here => exact hnot _ rfl
        | inside ho hn _ =>
          obtain ⟨t, hmem, hot⟩ := exists_mem_of_mapM ht ho
          exact (hoperand ho hot).1 (hclear t hmem) ⟨hc, hn⟩
      · intro hnone
        refine forall_mem_of_mapM ht fun o ho t hot => ?_
        refine (hoperand ho hot).2 fun hn => hnone ⟨hn.1, .inside ho hn.2 fun hkept => hfalse ?_⟩
        rw [h] at hkept
        exact Except.ok.inj hkept

/-- **Where comments start in a compiled expression.** For every expression without times of day and
times with an offset, whatever the names and values in it are: no comment up to a closing mark ever
starts in its text, and a comment up to the end of the line starts there just if somewhere in the
expression a minus sign is written before a text that starts with a minus sign. -/
theorem compile_shows_iff {s : Scope} (hs : s.Numbered) {named : Bool} {e : Expr}
    (he : e.isTimeless = true) {text : String} (h : e.compile s named = .ok text) (c : Comment) :
    Shows c text ↔ c = .line ∧ NegatesMinus s named none e := by
  obtain ⟨t, ht, rfl⟩ := map_eq_ok.1 h
  have hsealed := (render_scoped hs none e he ht).closed.isSealed
  rw [shows_iff_not_clear, clear_trim hsealed, render_clear_iff hs none e he ht, not_not]

theorem compile_shows_iff_compared :
    let city : MappedType := ⟨"City", "City", none, [Column.plain "Id" "Id"]⟩
    let s : Scope := ⟨(Registry.empty "dbo").add city true, [city], .asInt⟩
    let negated : Expr := .unary .negate (.constant (.int (-5)))
    let e : Expr := .binary .equal negated (.constant (.string "/*"))
    let text := "((--5) = '/*')"
    e.isTimeless = true ∧ e.compile s false = .ok text ∧ Shows .line text ∧
      ¬ Shows .block text := by
  intro city s negated e text
  have hs : s.Numbered := .add (.empty "dbo") city true
  have he : e.isTimeless = true := by decide
  have hcompile : e.compile s false = .ok text := by decide +kernel
  have hminus : render s false none (.constant (.int (-5))) = .ok "-5" := by decide +kernel
  have hnegated : NegatesMinus s false none negated := .here hminus (by decide)
  have hrender : render s false none e ≠ .ok "(1=0)" := by decide +kernel
  refine ⟨he, hcompile, ?_, fun hblock => ?_⟩
  · exact (compile_shows_iff hs he hcompile .line).2
      ⟨rfl, .inside (o := (negated, none)) List.mem_cons_self hnegated hrender⟩
  · exact absurd ((compile_shows_iff hs he hcompile .block).1 hblock).1 (by decide)

/-- A comment starts in a negated negative number. -/
theorem compile_negative_shows_line :
    let city : MappedType := ⟨"City", "City", none, [Column.plain "Id" "Id"]⟩
    let s : Scope := ⟨(Registry.empty "dbo").add city true, [city], .asInt⟩
    let e : Expr := .unary .negate (.constant (.int (-5)))
    e.isTimeless = true ∧ e.compile s false = .ok "(--5)" ∧ Shows .line "(--5)" := by
  intro city s e
  exact ⟨by decide, by decide +kernel, by decide⟩

end Expr

end SqlWright
