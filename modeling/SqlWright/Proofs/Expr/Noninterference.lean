import SqlWright.Proofs.Expr.Closed
import SqlWright.Proofs.Registry
import SqlWright.Proofs.Text.Twins

/-!
# Strings do not reach the statement around them

Two expressions of one shape whose values differ only in what their strings hold are compiled side
by side: both fail or both give twin texts, which are the same text once every literal is replaced
by a placeholder. Enumerated columns are left out, since they look a string up by what it holds;
times of day and times with an offset are left out, since their literal is a lone apostrophe.
-/

namespace SqlWright

open Text Outcome

/-! ## Values without their strings -/

namespace Value

mutual
/-- A value with every string in it emptied. -/
def blanked : Value → Value
  | .string _ => .string ""
  | .list items => .list (blankedAll items)
  | v => v

/-- The items of a list with every string in them emptied. -/
def blankedAll : List Value → List Value
  | [] => []
  | v :: rest => blanked v :: blankedAll rest
end

mutual
/-- A literal depends on the strings in its value only inside its own literals. -/
theorem literal_twins (mode : EnumMode) :
    (v : Value) → v.timeless = true → Twins (v.literal mode) (v.blanked.literal mode)
  | .string s, _ => .quoted s ""
  | .list items, h => .intercalate (.of_plain (by decide)) (literals_twins mode items h)
  | .null, h | .bool _, h | .int _, h | .float _, h | .decimal _, h | .guid _, h | .dateTime _, h
  | .date _, h | .binary _, h | .json _, h | .enumerated _, h =>
    .of_closed (literal_closed mode _ h)

theorem literals_twins (mode : EnumMode) :
    (items : List Value) → timelessAll items = true →
      List.Forall₂ Twins (literals mode items) (literals mode (blankedAll items))
  | [], _ => .nil
  | v :: rest, h => by
    rw [timelessAll, Bool.and_eq_true] at h
    exact .cons (literal_twins mode v h.1) (literals_twins mode rest h.2)
end

mutual
theorem timeless_blanked : (v : Value) → v.blanked.timeless = v.timeless
  | .list items => timelessAll_blanked items
  | .null | .bool _ | .int _ | .float _ | .decimal _ | .string _ | .guid _ | .dateTime _
  | .offsetDateTime _ | .date _ | .time _ | .binary _ | .json _ | .enumerated _ => rfl

theorem timelessAll_blanked :
    (items : List Value) → timelessAll (blankedAll items) = timelessAll items
  | [] => rfl
  | v :: rest => by
    rw [blankedAll, timelessAll, timelessAll, timeless_blanked v, timelessAll_blanked rest]
end

end Value

namespace Expr

/-- An expression with every string among its constants and fixed values emptied. -/
def blanked (e : Expr) : Expr :=
  e.mapConstants Value.blanked

/-- Whether an expression has only values and types for which strings are kept apart from code. -/
def isSeparable (e : Expr) : Bool :=
  e.allOf Value.timeless hasNoEnumeration

/-! ## Twins at a node -/

theorem binaryText_twins (op : BinaryOp) {keyword l l' r r' : String}
    (hk : op.keyword? = some keyword) (hl : Twins l l') (hr : Twins r r') :
    Twins (binaryText op keyword l r) (binaryText op keyword l' r') := by
  have hspace : Twins " " " " := .of_plain (by decide)
  have htext {k : String} (h : Twins k k) :
      Twins (Text.parenthesized (l ++ " " ++ k ++ " " ++ r))
        (Text.parenthesized (l' ++ " " ++ k ++ " " ++ r')) :=
    ((((hl.append hspace).append h).append hspace).append hr).parenthesized
  have hnull : r = "NULL" ↔ r' = "NULL" := hr.eq_iff (by decide)
  have hkeyword : Twins keyword keyword := .of_closed (op.keyword_scoped (n := 0) hk).closed
  rw [binaryText, binaryText]
  by_cases h : r = "NULL"
  · rw [if_pos h, if_pos (hnull.1 h)]
    split
    · exact htext (.of_plain (by decide))
    · exact htext (.of_plain (by decide))
  · rw [if_neg h, if_neg (mt hnull.2 h)]
    exact htext hkeyword

theorem unaryText_twins (op : UnaryOp) {t u : String} (h : Twins t u) :
    Twins (unaryText op t) (unaryText op u) := by
  cases op with
  | negate => exact (Twins.append (.of_plain (by decide)) h).parenthesized
  | not => exact Twins.append (.of_plain (by decide)) h
  | convert => exact h

theorem conditionalText_twins {c c' a a' b b' : String} (hc : Twins c c') (ha : Twins a a')
    (hb : Twins b b') : Twins (conditionalText c a b) (conditionalText c' a' b') := by
  have hwhen : Twins "CASE WHEN " "CASE WHEN " := .of_plain (by decide)
  have hthen : Twins " THEN " " THEN " := .of_plain (by decide)
  have helse : Twins " ELSE " " ELSE " := .of_plain (by decide)
  have hend : Twins " END" " END" := .of_plain (by decide)
  exact (((((hwhen.append hc.grouped).append hthen).append ha).append helse).append hb).append hend

theorem membershipText_twins {v v' items items' : String} (hv : Twins v v')
    (hi : Twins items items') : Twins (membershipText v items) (membershipText v' items') := by
  have hempty : items = "" ↔ items' = "" := hi.eq_iff (by decide)
  have hin : Twins " IN (" " IN (" := .of_plain (by decide)
  have hend : Twins ")" ")" := .of_plain (by decide)
  rw [membershipText, membershipText]
  by_cases h : items = ""
  · rw [if_pos h, if_pos (hempty.1 h)]
    exact .of_plain (by decide)
  · rw [if_neg h, if_neg (mt hempty.2 h)]
    exact ((hv.append hin).append hi).append hend

theorem memberText_twins (named : Bool) (name : String) {t u : String} (h : Twins t u) :
    Twins (memberText named name t) (memberText named name u) := by
  have has : Twins " AS " " AS " := .of_plain (by decide)
  rw [memberText, memberText]
  split
  · exact (h.append has).append (.of_closed (.bracketed name))
  · exact h

theorem memberTexts_twins (named : Bool) (names : List String) {ts us : List String}
    (h : List.Forall₂ Twins ts us) :
    List.Forall₂ Twins (memberTexts named names ts) (memberTexts named names us) := by
  induction h generalizing names with
  | nil => simp [memberTexts]
  | @cons t u ts us ht _ ih =>
    cases names with
    | nil => exact .nil
    | cons name names =>
      have hempty : t = "" ↔ u = "" := ht.eq_iff (by decide)
      have hrest := ih names
      unfold memberTexts at hrest ⊢
      by_cases h : t = ""
      · simpa [h, hempty.1 h] using hrest
      · have hu : u ≠ "" := mt hempty.2 h
        simp only [List.zip_cons_cons, ne_eq, h, not_false_eq_true, decide_true,
          List.filter_cons_of_pos, List.map_cons, hu]
        exact .cons (memberText_twins named name ht) hrest

theorem onlyText_twins (method : String) {ts us : List String} (h : List.Forall₂ Twins ts us) :
    Agree Twins (onlyText method ts) (onlyText method us) := by
  cases h with
  | nil => trivial
  | cons ht hrest =>
    cases hrest with
    | nil => exact ht
    | cons _ _ => trivial

theorem callText_twins (method : String) {ts us : List String} (h : List.Forall₂ Twins ts us) :
    Agree Twins (callText method ts) (callText method us) := by
  unfold callText
  by_cases hc : method = "Contains"
  · rw [if_pos hc, if_pos hc]
    rcases h with _ | ⟨hv, _ | ⟨hi, _ | _⟩⟩
    · trivial
    · trivial
    · exact membershipText_twins hv hi
    · trivial
  · rw [if_neg hc, if_neg hc]
    have hcount (a : Aggregate) :
        Agree Twins
          (if a = .count then .ok "COUNT(*)" else .error (.unsupported (.aggregateOperand a.name)))
          (if a = .count then .ok "COUNT(*)"
            else .error (.unsupported (.aggregateOperand a.name))) := by
      split
      · exact .of_plain (by decide)
      · trivial
    cases Aggregate.ofName? method with
    | none => exact onlyText_twins method h
    | some a =>
      rcases h with _ | ⟨ht, _ | _⟩
      · exact hcount a
      · exact Twins.append (.of_closed (a.keyword_scoped (n := 0)).closed) ht.parenthesized
      · exact hcount a

/-! ## Whole expressions -/

theorem agree_of_closed {x : Outcome String} (h : ∀ t, x = .ok t → Closed t) :
    Agree Twins x x := by
  cases x with
  | error e => trivial
  | ok t => exact .of_closed (h t rfl)

theorem memberValue_twins (mode : EnumMode) {owner : Expr} (name : String)
    (h : (Expr.member owner name).isSeparable = true) :
    Agree Twins (memberValue mode none owner name) (memberValue mode none owner.blanked name) := by
  have hsame : captured? (.member owner.blanked name) = captured? (.member owner name) :=
    captured?_mapConstants Value.blanked (.member owner name)
  cases hc : captured? (.member owner name) with
  | none =>
    obtain ⟨e, he⟩ := memberValue_error mode none hc
    obtain ⟨e', he'⟩ := memberValue_error mode none (hsame.trans hc)
    rw [he, he']
    trivial
  | some outcome =>
    have heq : memberValue mode none owner.blanked name = memberValue mode none owner name := by
      unfold memberValue
      rw [hsame, hc]
      cases outcome with
      | error e => rfl
      | ok f => cases f <;> rfl
    rw [heq]
    exact agree_of_closed fun t ht => (memberValue_of_literals (Scoped.ofLiterals 0) h ht).closed

/-- Twin operands make twins of a node, whatever its own strings hold. -/
theorem assemble_twins {s : Scope} (hs : s.Numbered) (named : Bool) {e : Expr}
    (he : e.isSeparable = true) {ts us : List String} (h : List.Forall₂ Twins ts us) :
    Agree Twins (assemble s named none e ts) (assemble s named none e.blanked us) := by
  cases e with
  | parameter t => exact .of_closed .empty
  | member owner name =>
    have hm := memberValue_twins s.enumMode name he
    cases owner with
    | parameter t => exact agree_of_closed fun text ht => (Scope.column_scoped hs ht).closed
    | _ => exact hm
  | captured object => trivial
  | fixed owner name v => exact v.literal_twins s.enumMode he
  | constant v => exact v.literal_twins s.enumMode he
  | binary op left right =>
    rw [blanked, mapConstants]
    cases hk : op.keyword? with
    | none => simp only [assemble, hk]; trivial
    | some keyword =>
      rcases h with _ | ⟨hl, _ | ⟨hr, _ | _⟩⟩ <;> simp only [assemble, hk]
      · trivial
      · trivial
      · exact binaryText_twins op hk hl hr
      · trivial
  | unary op operand =>
    rcases h with _ | ⟨ht, _ | _⟩
    · exact .of_closed .empty
    · exact unaryText_twins op ht
    · exact .of_closed .empty
  | conditional test ifTrue ifFalse =>
    rcases h with _ | ⟨hc, _ | ⟨ha, _ | ⟨hb, _ | _⟩⟩⟩
    · exact .of_closed .empty
    · exact .of_closed .empty
    · exact .of_closed .empty
    · exact conditionalText_twins hc ha hb
    · exact .of_closed .empty
  | projection members =>
    have hnames : (mapConstantsMembers Value.blanked members).map (·.1) = members.map (·.1) := by
      rw [mapConstantsMembers_eq, List.map_map]
      rfl
    rw [blanked, mapConstants, assemble, assemble, hnames]
    exact Twins.intercalate (.of_plain (by decide)) (memberTexts_twins named _ h)
  | call method target args => exact callText_twins method h

theorem render_twins {s : Scope} (hs : s.Numbered) (named : Bool) {e : Expr}
    (he : e.isSeparable = true) :
    Agree Twins (render s named none e) (render s named none e.blanked) := by
  generalize hhint : (none : Option EnumColumn) = hint
  induction hint, e using operands_induction with
  | node hint e ih =>
    subst hhint
    rw [render_eq_assemble, render_eq_assemble, blanked, operands_mapConstants, List.mapM_map]
    refine Agree.bind (Agree.mapM (List.forall₂_same.2 fun o ho => ?_)) fun ts us h =>
      assemble_twins hs named he h
    show Agree Twins (render s named o.2 o.1) (render s named o.2 o.1.blanked)
    exact ih o ho (allOf_of_mem_operands he ho) (operands_unhinted he ho).symm

/-- Strings are kept apart from code: of two expressions of one shape that differ only in what their
strings hold, both are refused or both compile, and then to the same text around the literals. -/
theorem compile_noninterference (schema : String) (mentions : List (MappedType × Bool))
    (parameters : List MappedType) (mode : EnumMode) (named : Bool) {e e' : Expr}
    (hshape : e.blanked = e'.blanked) (he : e.isSeparable = true) :
    Agree (fun t u => masked t = masked u ∧ isSealed t = true ∧ isSealed u = true)
      (e.compile ⟨(Registry.empty schema).addAll mentions, parameters, mode⟩ named)
      (e'.compile ⟨(Registry.empty schema).addAll mentions, parameters, mode⟩ named) := by
  have hs := (Registry.Numbered.empty schema).addAll mentions
  generalize (Registry.empty schema).addAll mentions = r at hs
  have hs : Scope.Numbered ⟨r, parameters, mode⟩ := hs
  have he' : e'.isSeparable = true := by
    have hb (x : Expr) : x.blanked.isSeparable = x.isSeparable :=
      allOf_mapConstants Value.timeless_blanked x
    rw [← hb e', ← hshape, hb e, he]
  have h := render_twins hs named he
  have h' := render_twins hs named he'
  rw [hshape] at h
  refine Agree.map (h.join h' fun t u v ht hu => ht.trans hu.symm) fun t u htu => ?_
  exact ⟨htu.masked_trim_eq, isSealed_trim htu.isSealed, isSealed_trim htu.isSealed_right⟩

/-- Names that look like code, in place of plain ones, stay inside their literals. -/
theorem compile_noninterference_names :
    let staff : MappedType := ⟨"Staff", "Staff", some "dbo", [Column.plain "Name" "Name"]⟩
    let scope : Scope := ⟨(Registry.empty "dbo").addAll [(staff, true)], [staff], .asInt⟩
    let test (first second : String) : Expr := .binary .and
      (.isIn (.column staff "Name") (.constant (.list [.string first, .null])))
      (.binary .notEqual (.column staff "Name") (.fixed "Names" "Second" (.string second)))
    let plain := test "Ada" "Bob"
    let hostile := test "') OR 1=1 --" "NULL"
    plain.blanked = hostile.blanked ∧ plain.isSeparable = true ∧
      Agree (fun t u => masked t = masked u ∧ isSealed t = true ∧ isSealed u = true)
        (plain.compile scope false) (hostile.compile scope false) ∧
      hostile.compile scope false =
        .ok "(t0.[Name] IN (''') OR 1=1 --',NULL) AND (t0.[Name] <> 'NULL'))" := by
  intro staff scope test plain hostile
  have hshape : plain.blanked = hostile.blanked := rfl
  have hplain : plain.isSeparable = true := by decide
  refine ⟨hshape, hplain, ?_, by decide⟩
  exact compile_noninterference "dbo" [(staff, true)] [staff] .asInt false hshape hplain

end Expr

end SqlWright
