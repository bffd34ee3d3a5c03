import SqlWright.Proofs.Expr.Contents
import SqlWright.Proofs.Registry

/-!
# Compiled expressions are closed

The SQL of an expression can stand anywhere in a statement, whatever names and values are in it,
provided that it holds no times of day and no times with an offset. Every node closes what it opens
around the texts of its operands, and the only aliases it names are those of the registry.
-/

namespace SqlWright

open Text Outcome

/-! ## Keywords and columns -/

theorem BinaryOp.keyword_scoped {n : Nat} (op : BinaryOp) {keyword : String}
    (h : op.keyword? = some keyword) : Scoped n keyword := by
  cases op <;> cases h <;> exact .word (by decide)

theorem Aggregate.keyword_scoped {n : Nat} (a : Aggregate) : Scoped n a.keyword := by
  cases a <;> exact .word (by decide)

/-- The aliases in scope are those of a chain of mentions. -/
abbrev Scope.Numbered (s : Scope) : Prop := s.registry.Numbered

/-- A closed text with no aliases but those of the registry. -/
abbrev Registry.Scopes (r : Registry) (t : String) : Prop := Scoped r.entries.length t

/-- An alias for a type is that of some type in the registry. -/
theorem Scope.aliasOf_eq_ok {s : Scope} {t : MappedType} {name : String}
    (h : s.aliasOf t = .ok name) : ∃ u, s.registry.aliasOf? u = some name := by
  unfold aliasOf at h
  split at h
  · next found hn =>
    cases h
    exact ⟨t, hn⟩
  · split at h
    · next found hn =>
      cases h
      obtain ⟨p, -, hp⟩ := List.exists_of_findSome?_eq_some hn
      exact ⟨p, hp⟩
    · cases h

theorem Scope.column_scoped {s : Scope} (hs : s.Numbered) {t : MappedType} {member text : String}
    (h : s.column t member = .ok text) : s.registry.Scopes text := by
  obtain ⟨name, hn, h⟩ := bind_eq_ok.1 h
  obtain ⟨c, -, h⟩ := bind_eq_ok.1 h
  cases h
  obtain ⟨u, hu⟩ := aliasOf_eq_ok hn
  exact hs.qualified_scoped hu c

namespace Expr

/-! ## Texts at a node -/

section Texts

variable {n : Nat}

theorem binaryText_scoped (op : BinaryOp) {keyword l r : String}
    (hk : op.keyword? = some keyword) (hl : Scoped n l) (hr : Scoped n r) :
    Scoped n (binaryText op keyword l r) := by
  have htext {k : String} (h : Scoped n k) :
      Scoped n (Text.parenthesized (l ++ " " ++ k ++ " " ++ r)) :=
    Scoped.parenthesized ((((hl.append .space).append h).append .space).append hr)
  rw [binaryText]
  split
  · split
    · exact htext (.word (by decide))
    · exact htext (.word (by decide))
  · exact htext (op.keyword_scoped hk)

theorem unaryText_scoped (op : UnaryOp) {t : String} (h : Scoped n t) :
    Scoped n (unaryText op t) := by
  cases op with
  | negate =>
    have hminus : Scoped n "-" := .word (by decide)
    exact Scoped.parenthesized (hminus.append h)
  | not =>
    have hnot : Scoped n "NOT " := .word (by decide)
    exact hnot.append h
  | convert => exact h

theorem conditionalText_scoped {c a b : String} (hc : Scoped n c) (ha : Scoped n a)
    (hb : Scoped n b) : Scoped n (conditionalText c a b) := by
  have hwhen : Scoped n "CASE WHEN " := .word (by decide)
  have hthen : Scoped n " THEN " := .word (by decide)
  have helse : Scoped n " ELSE " := .word (by decide)
  have hend : Scoped n " END" := .word (by decide)
  exact (((((hwhen.append hc.grouped).append hthen).append ha).append helse).append hb).append hend

theorem membershipText_scoped {v items : String} (hv : Scoped n v) (hi : Scoped n items) :
    Scoped n (membershipText v items) := by
  have hin : Scopes n 0 1 " IN (" := .bare (by decide) (by decide)
  rw [membershipText]
  split
  · exact .bare (by decide) (by decide)
  · exact Scoped.inside (Scopes.append hv hin) hi

theorem memberTexts_scoped (named : Bool) (names : List String) {texts : List String}
    (h : ∀ t ∈ texts, Scoped n t) : ∀ t ∈ memberTexts named names texts, Scoped n t := by
  intro t ht
  obtain ⟨m, hm, rfl⟩ := List.mem_map.1 ht
  have hm := List.of_mem_zip (List.mem_of_mem_filter hm)
  have has : Scoped n " AS " := .word (by decide)
  rw [memberText]
  split
  · have htext := h m.2 hm.2
    exact (htext.append has).named (.ends htext.closed.isSealed (by decide)) m.1
  · exact h m.2 hm.2

theorem onlyText_scoped {method text : String} {texts : List String}
    (h : ∀ t ∈ texts, Scoped n t) (ho : onlyText method texts = .ok text) : Scoped n text := by
  unfold onlyText at ho
  split at ho
  · cases ho
    exact h _ List.mem_cons_self
  · cases ho

theorem callText_scoped {method text : String} {texts : List String}
    (h : ∀ t ∈ texts, Scoped n t) (hc : callText method texts = .ok text) : Scoped n text := by
  unfold callText at hc
  split at hc
  · split at hc
    · cases hc
      exact membershipText_scoped (h _ (by simp)) (h _ (by simp))
    · cases hc
  · split at hc
    · next a _ _ =>
      cases hc
      exact a.keyword_scoped.append (Scoped.parenthesized (h _ List.mem_cons_self))
    · split at hc
      · cases hc
        exact .bare (by decide) (by decide)
      · cases hc
    · exact onlyText_scoped h hc

/-- A captured member is written as the literal of its value. -/
theorem memberValue_of_literals {P : String → Prop} (hP : OfLiterals P) {mode : EnumMode}
    {hint : Option EnumColumn} {owner : Expr} {name text : String} {type : MappedType → Bool}
    (h : (Expr.member owner name).allOf Value.timeless type = true)
    (ht : memberValue mode hint owner name = .ok text) : P text := by
  unfold memberValue at ht
  split at ht
  · next v hv =>
    cases ht
    exact hP.literalFor hint mode (allValues_of_captured? h hv)
  · cases ht
  · cases ht
  · split at ht <;> cases ht

end Texts

/-- A node closes what it opens around its operands and names columns under aliases in scope. -/
theorem assemble_scoped {s : Scope} (hs : s.Numbered) {named : Bool} {hint : Option EnumColumn}
    {e : Expr} {type : MappedType → Bool} (he : e.allOf Value.timeless type = true)
    {texts : List String} (h : ∀ t ∈ texts, s.registry.Scopes t) {text : String}
    (ha : assemble s named hint e texts = .ok text) : s.registry.Scopes text := by
  unfold assemble at ha
  split at ha
  · cases ha
    exact .empty
  · exact Scope.column_scoped hs ha
  · exact memberValue_of_literals (Scoped.ofLiterals _) he ha
  · cases ha
  · cases ha
    exact Value.literalFor_scoped hint _ he
  · cases ha
    exact Value.literalFor_scoped hint _ he
  · split at ha
    · next hk =>
      cases ha
      exact binaryText_scoped _ hk (h _ (by simp)) (h _ (by simp))
    · cases ha
  · cases ha
    exact unaryText_scoped _ (h _ (by simp))
  · cases ha
    exact conditionalText_scoped (h _ (by simp)) (h _ (by simp)) (h _ (by simp))
  · cases ha
    exact .commas (memberTexts_scoped named _ h)
  · exact callText_scoped h ha
  · cases ha
    exact .empty

/-! ## Whole expressions -/

/-- Whether an expression holds no time of day and no time with an offset. -/
def isTimeless (e : Expr) : Bool :=
  e.allOf Value.timeless fun _ => true

theorem render_scoped {s : Scope} (hs : s.Numbered) {named : Bool} (hint : Option EnumColumn)
    (e : Expr) (he : e.isTimeless = true) {text : String} (h : render s named hint e = .ok text) :
    s.registry.Scopes text := by
  induction hint, e using operands_induction generalizing text with
  | node hint e ih =>
    rw [render_eq_assemble] at h
    obtain ⟨texts, ht, ha⟩ := bind_eq_ok.1 h
    have hscoped : ∀ t ∈ texts, s.registry.Scopes t :=
      forall_mem_of_mapM ht fun o ho t hot => ih o ho (allOf_of_mem_operands he ho) hot
    exact assemble_scoped hs he hscoped ha

theorem compile_scoped {s : Scope} (hs : s.Numbered) {named : Bool} {e : Expr}
    (he : e.isTimeless = true) {text : String} (h : e.compile s named = .ok text) :
    s.registry.Scopes text := by
  obtain ⟨t, ht, rfl⟩ := map_eq_ok.1 h
  exact Scoped.trim (render_scoped hs none e he ht)

end Expr

end SqlWright
