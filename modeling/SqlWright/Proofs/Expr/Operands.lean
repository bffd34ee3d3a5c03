import SqlWright.Expr.Compile
import SqlWright.Proofs.Outcome

/-!
# The operands of an expression

Compilation seen from one node: which expressions are compiled below it, in which order and under
which enumeration, and how their texts are put together. Every node is compiled by these two parts
and nothing else passes between a node and its operands, so a property of compiled texts is proved
once for a node (`operands_induction`) and never by a walk through all kinds of calls.
-/

namespace SqlWright.Expr

open Outcome

/-! ## Enumerations that meet values -/

/-- The enumeration that an operand takes from the other side of a comparison: only a value takes
one, and only from an enumerated column. -/
def takenFrom (operand other : Expr) : Option EnumColumn :=
  if operand.isValue then other.enumColumn? else none

/-- A value is no column. -/
theorem enumColumn?_of_isValue (e : Expr) (h : e.isValue = true) : e.enumColumn? = none := by
  match e with
  | .constant _ | .fixed _ _ _ => rfl
  | .member owner name =>
    cases owner with
    | parameter t => simp [isValue, isCaptured] at h
    | _ => rfl
  | .unary op operand =>
    cases op with
    | convert => exact enumColumn?_of_isValue operand h
    | negate | not => simp [isValue] at h
  | .parameter _ | .captured _ | .binary _ _ _ | .conditional _ _ _ | .projection _ | .call _ _ _ =>
    simp [isValue] at h

theorem hintFor_comparison_left (op : BinaryOp) (left right : Expr) :
    hintFor (comparisonHint op left right) left =
      if op.isComparison then takenFrom left right else none := by
  unfold hintFor comparisonHint takenFrom
  by_cases hv : left.isValue = true
  · simp only [hv, if_true, enumColumn?_of_isValue left hv, Option.none_or]
  · simp only [hv, if_false, Bool.false_eq_true, ite_self]

theorem hintFor_comparison_right (op : BinaryOp) (left right : Expr) :
    hintFor (comparisonHint op left right) right =
      if op.isComparison then takenFrom right left else none := by
  unfold hintFor comparisonHint takenFrom
  by_cases hv : right.isValue = true
  · simp only [hv, if_true, enumColumn?_of_isValue right hv, Option.or_none]
  · simp only [hv, if_false, Bool.false_eq_true, ite_self]

/-! ## Operands -/

/-- The operands of a call. A membership test compiles the value before the collection, an aggregate
compiles one operand, and any other method compiles all of them. -/
def callOperands (method : String) (target : Option Expr) (args : List Expr) :
    List (Expr × Option EnumColumn) :=
  if method = "Contains" then
    match target, args with
    | some collection, [value] | none, [collection, value] =>
      [(value, none), (collection, takenFrom collection value)]
    | _, _ => []
  else
    match Aggregate.ofName? method with
    | some _ => (target.or args.head?).toList.map fun e => (e, none)
    | none => (target.toList ++ args).map fun e => (e, none)

/-- The operands of an expression that itself takes the enumeration `hint`, in the order in which
they are compiled, each with the enumeration that it takes. -/
def operands (hint : Option EnumColumn) : Expr → List (Expr × Option EnumColumn)
  | .binary op left right =>
    if op.keyword?.isSome then
      [(left, if op.isComparison then takenFrom left right else none),
        (right, if op.isComparison then takenFrom right left else none)]
    else []
  | .unary op operand => [(operand, if op = .convert then hint else none)]
  | .conditional test ifTrue ifFalse => [(test, none), (ifTrue, none), (ifFalse, none)]
  | .projection members => members.map fun m => (m.2, none)
  | .call method target args => callOperands method target args
  | _ => []

/-! ## The text of a node -/

/-- The texts of the members of a projection, those without any text left out. -/
def memberTexts (named : Bool) (names texts : List String) : List String :=
  ((names.zip texts).filter fun m => m.2 ≠ "").map fun m => memberText named m.1 m.2

/-- The text of a call that is made of the texts of its operands. -/
def callText (method : String) (texts : List String) : Outcome String :=
  if method = "Contains" then
    match texts with
    | [value, items] => .ok (membershipText value items)
    | _ => .error (.unsupported .containsOperands)
  else
    match Aggregate.ofName? method, texts with
    | some a, [text] => .ok (a.keyword ++ Text.parenthesized text)
    | some a, _ =>
      if a = .count then .ok "COUNT(*)" else .error (.unsupported (.aggregateOperand a.name))
    | none, texts => onlyText method texts

theorem memberValue_error (mode : EnumMode) (hint : Option EnumColumn) {owner : Expr}
    {name : String} (h : captured? (.member owner name) = none) :
    ∃ e, memberValue mode hint owner name = .error e := by
  unfold memberValue
  rw [h]
  cases owner <;> exact ⟨_, rfl⟩

/-- The text of a node that is made of the texts of its operands. The last case is for lists of
texts that no node has. -/
def assemble (s : Scope) (named : Bool) (hint : Option EnumColumn) :
    Expr → List String → Outcome String
  | .parameter _, _ => .ok ""
  | .member (.parameter t) name, _ => s.column t name
  | .member owner name, _ => memberValue s.enumMode hint owner name
  | .captured object, _ => .error (.unsupported (.capturedObject object.label))
  | .fixed _ _ value, _ => .ok (value.literalFor hint s.enumMode)
  | .constant value, _ => .ok (value.literalFor hint s.enumMode)
  | .binary op _ _, texts =>
    match op.keyword?, texts with
    | some keyword, [left, right] => .ok (binaryText op keyword left right)
    | _, _ => .error (.unsupported (.binaryOperator op))
  | .unary op _, [operand] => .ok (unaryText op operand)
  | .conditional _ _ _, [test, ifTrue, ifFalse] => .ok (conditionalText test ifTrue ifFalse)
  | .projection members, texts =>
    .ok (String.intercalate "," (memberTexts named (members.map (·.1)) texts))
  | .call method _ _, texts => callText method texts
  | _, _ => .ok ""

/-! ## Compilation by operands -/

theorem renderAll_eq_mapM (s : Scope) (named : Bool) (es : List Expr) :
    renderAll s named es = es.mapM (render s named none) := by
  induction es with
  | nil => rfl
  | cons e rest ih =>
    rw [renderAll, List.mapM_cons, ih]

theorem renderMembers_eq_mapM (s : Scope) (named : Bool) (members : List (String × Expr)) :
    renderMembers s named members =
      (members.mapM fun m => render s named none m.2) >>= fun texts =>
        .ok (memberTexts named (members.map (·.1)) texts) := by
  induction members with
  | nil => rfl
  | cons m rest ih =>
    obtain ⟨name, e⟩ := m
    rw [renderMembers, List.mapM_cons, ih]
    simp only [bind_assoc, pure_eq_ok, ok_bind]
    refine bind_congr fun text => bind_congr fun texts => ?_
    by_cases h : text = ""
    · simp [memberTexts, h]
    · simp [memberTexts, h]

theorem render_call (s : Scope) (named : Bool) (hint : Option EnumColumn) (method : String)
    (target : Option Expr) (args : List Expr) :
    render s named hint (.call method target args) =
      ((callOperands method target args).mapM fun o => render s named o.2 o.1) >>=
        callText method := by
  rw [render.eq_def]
  unfold callOperands callText
  by_cases hc : method = "Contains"
  · simp only [hc, if_true]
    -- Which operand is the collection depends on whether the method is called on one.
    cases target with
    | some collection => rcases args with _ | ⟨value, _ | ⟨_, _⟩⟩ <;> simp [takenFrom, hintFor]
    | none =>
      rcases args with _ | ⟨collection, _ | ⟨value, _ | ⟨_, _⟩⟩⟩ <;> simp [takenFrom, hintFor]
  · simp only [hc, if_false]
    cases ha : Aggregate.ofName? method with
    | some a =>
      cases target with
      | some operand => simp
      | none => cases args <;> simp
    | none => cases target <;> simp [renderAll_eq_mapM, Function.comp_def]

/-- A node is compiled by compiling its operands in their order and putting their texts together. -/
theorem render_eq_assemble (s : Scope) (named : Bool) (hint : Option EnumColumn) (e : Expr) :
    render s named hint e =
      ((e.operands hint).mapM fun o => render s named o.2 o.1) >>=
        assemble s named hint e := by
  cases e with
  | parameter t => rfl
  | member owner name => cases owner <;> rfl
  | captured object => rfl
  | fixed owner name value => rfl
  | constant value => rfl
  | binary op left right =>
    rw [render]
    cases hk : op.keyword? with
    | none => simp [operands, hk, assemble]
    | some keyword =>
      simp only [operands, hk, Option.isSome_some, if_true, List.mapM_cons, List.mapM_nil,
        hintFor_comparison_left, hintFor_comparison_right, bind_assoc, pure_eq_ok, ok_bind,
        assemble]
  | unary op operand =>
    rw [render]
    simp [operands, assemble]
  | conditional test ifTrue ifFalse =>
    rw [render]
    simp [operands, assemble]
  | projection members =>
    rw [render, renderMembers_eq_mapM]
    simp only [operands, List.mapM_map, map_eq_bind, bind_assoc, ok_bind]
    rfl
  | call method target args => exact render_call s named hint method target args

/-! ## Induction over operands -/

theorem callOperands_mem {method : String} {target : Option Expr} {args : List Expr}
    {o : Expr × Option EnumColumn} (h : o ∈ callOperands method target args) :
    o.1 ∈ target ∨ o.1 ∈ args := by
  unfold callOperands at h
  split at h
  · split at h
    · rcases List.mem_pair.1 h with rfl | rfl
      · exact .inr List.mem_cons_self
      · exact .inl rfl
    · rcases List.mem_pair.1 h with rfl | rfl <;> simp
    · cases h
  · split at h
    · obtain ⟨e, he, rfl⟩ := List.mem_map.1 h
      cases target with
      | some operand => exact .inl (by simpa [eq_comm] using he)
      | none => exact .inr (List.mem_of_mem_head? (by simpa using he))
    · obtain ⟨e, he, rfl⟩ := List.mem_map.1 h
      simpa using he

theorem sizeOf_lt_of_mem_operands {hint : Option EnumColumn} {e : Expr}
    {o : Expr × Option EnumColumn} (h : o ∈ e.operands hint) : sizeOf o.1 < sizeOf e := by
  cases e with
  | parameter t => cases h
  | member owner name => cases h
  | captured object => cases h
  | fixed owner name value => cases h
  | constant value => cases h
  | binary op left right =>
    rw [operands] at h
    split at h
    · rcases List.mem_pair.1 h with rfl | rfl <;> simp only [binary.sizeOf_spec] <;> omega
    · cases h
  | unary op operand =>
    rw [operands, List.mem_singleton] at h
    subst h
    simp only [unary.sizeOf_spec]
    omega
  | conditional test ifTrue ifFalse =>
    simp only [operands, List.mem_cons, List.not_mem_nil, or_false] at h
    rcases h with rfl | rfl | rfl <;> simp only [conditional.sizeOf_spec] <;> omega
  | projection members =>
    obtain ⟨m, hm, rfl⟩ := List.mem_map.1 h
    have h₁ := List.sizeOf_lt_of_mem hm
    obtain ⟨name, e⟩ := m
    simp only [Prod.mk.sizeOf_spec, projection.sizeOf_spec] at h₁ ⊢
    omega
  | call method target args =>
    rcases callOperands_mem h with ht | ha
    · subst ht
      simp only [call.sizeOf_spec, Option.some.sizeOf_spec]
      omega
    · have h₁ := List.sizeOf_lt_of_mem ha
      simp only [call.sizeOf_spec]
      omega

/-- A property of all expressions under all enumerations, if it passes from the operands of a node
to the node. -/
theorem operands_induction {P : Option EnumColumn → Expr → Prop}
    (node : ∀ hint e, (∀ o ∈ e.operands hint, P o.2 o.1) → P hint e) (hint : Option EnumColumn)
    (e : Expr) : P hint e :=
  node hint e fun o _ => operands_induction node o.2 o.1
termination_by sizeOf e
decreasing_by exact sizeOf_lt_of_mem_operands ‹_›

end SqlWright.Expr
