import SqlWright.Proofs.Expr.Hints

/-!
# Compilation in one pass

A second way to compile an expression: one pass over its nodes, operands first, that keeps a stack
of finished texts and at most one enumeration for the next value that it meets. A node takes the
texts of its operands from the stack and leaves its own. The two errors of the pass itself, a node
that finds no text and texts that nothing takes, are part of it.

The main statement is that the pass gives the same text, or the same error, as compilation by
recursion on the structure. What the stack holds below a node and which enumeration a node is given
are settled by the same induction.
-/

namespace SqlWright.Expr

open Outcome

/-- What a pass has at hand: the texts that no node has taken yet, the newest first, and the
enumeration of the column that the next value is compared with. -/
structure Pass where
  stack : List String
  hint : Option EnumColumn

namespace Pass

/-- A pass before its first node. -/
def start : Pass := ⟨[], none⟩

/-- Leaves a text for a node above. -/
def push (p : Pass) (text : String) : Pass :=
  { p with stack := text :: p.stack }

/-- Takes the newest text. -/
def pop (p : Pass) : Outcome (String × Pass) :=
  match p.stack with
  | [] => .error (.unsupported (.stated "Expression produced no SQL operand"))
  | text :: rest => .ok (text, { p with stack := rest })

/-- Sets the enumeration for the next value, or clears it. -/
def hinted (p : Pass) (hint : Option EnumColumn) : Pass :=
  { p with hint }

/-- Leaves the literal of a value, which uses up the enumeration. -/
def pushLiteral (p : Pass) (mode : EnumMode) (v : Value) : Pass :=
  (p.hinted none).push (v.literalFor p.hint mode)

end Pass

/-! ## The pass -/

/-- What a captured record, or a chain of members that starts at one, denotes. -/
def evaluate : Expr → Outcome Field
  | .captured object => .ok (.record object)
  | .member owner name => do
    let f ← evaluate owner
    fieldOf f name
  | e => .error (.unsupported (.stated ("Cannot evaluate " ++ e.describe ++ " at build time")))

/-- The value of a member of a field, which is the last look-up of a chain. -/
def lastValue (f : Field) (name : String) : Outcome Value :=
  match f with
  | .record object =>
    match object.get? name with
    | some (.value v) => .ok v
    | some (.record _) => .error (.unsupported (.capturedMember name))
    | none => .error (.unknownMember object.label name)
  | .value _ => .error (.unsupported (.memberOfScalar name))

/-- A member that is reached by the pass. The owner is evaluated first; the last look-up is made
here. -/
def visitMember (s : Scope) (owner : Expr) (name : String) (p : Pass) : Outcome Pass :=
  match owner with
  | .parameter t => (s.column t name).map p.push
  | owner =>
    if owner.isCaptured then do
      let f ← evaluate owner
      let v ← lastValue f name
      return p.pushLiteral s.enumMode v
    else
      match owner with
      | .member _ _ => .error (.unsupported (.memberOfColumn name))
      | _ => .error (.unregistered (.ownerOf name owner.describe))

mutual
/-- The pass over an expression. -/
def visit (s : Scope) (named : Bool) : Expr → Pass → Outcome Pass
  | .parameter _, p => .ok (p.push "")
  | .member owner name, p => visitMember s owner name p
  | .captured object, _ => .error (.unsupported (.capturedObject object.label))
  | .fixed _ _ value, p => .ok (p.pushLiteral s.enumMode value)
  | .constant value, p => .ok (p.pushLiteral s.enumMode value)
  | .binary op left right, p =>
    match op.keyword? with
    | none => .error (.unsupported (.binaryOperator op))
    | some keyword => do
      let hint := comparisonHint op left right
      let p ← visit s named left (p.hinted (hintFor hint left))
      let p ← visit s named right (p.hinted (hintFor hint right))
      let (r, p) ← (p.hinted none).pop
      let (l, p) ← p.pop
      return p.push (binaryText op keyword l r)
  | .unary op operand, p => do
    let p ← visit s named operand p
    let (text, p) ← p.pop
    return p.push (unaryText op text)
  | .conditional test ifTrue ifFalse, p => do
    let p ← visit s named test p
    let p ← visit s named ifTrue p
    let p ← visit s named ifFalse p
    let (b, p) ← p.pop
    let (a, p) ← p.pop
    let (c, p) ← p.pop
    return p.push (conditionalText c a b)
  | .projection members, p => do
    let (texts, p) ← visitMembers s named members p
    return p.push (String.intercalate "," texts)
  | .call method target args, p =>
    if method = "Contains" then
      match target, args with
      | some collection, [value] => do
        let p ← visit s named value (p.hinted none)
        let p ← visit s named collection (p.hinted (hintFor value.enumColumn? collection))
        let (items, p) ← (p.hinted none).pop
        let (v, p) ← p.pop
        return p.push (membershipText v items)
      | none, [collection, value] => do
        let p ← visit s named value (p.hinted none)
        let p ← visit s named collection (p.hinted (hintFor value.enumColumn? collection))
        let (items, p) ← (p.hinted none).pop
        let (v, p) ← p.pop
        return p.push (membershipText v items)
      | _, _ => .error (.unsupported .containsOperands)
    else
      match Aggregate.ofName? method with
      | some a =>
        match target, args with
        | some operand, _ | none, operand :: _ => do
          let p ← visit s named operand p
          let (text, p) ← p.pop
          return p.push (a.keyword ++ Text.parenthesized text)
        | none, [] =>
          if a = .count then .ok (p.push "COUNT(*)")
          else .error (.unsupported (.aggregateOperand a.name))
      | none => do
        let depth := p.stack.length
        let p ← match target with
          | some operand => visit s named operand p
          | none => .ok p
        let p ← visitAll s named args p
        if p.stack.length = depth + 1 then return p
        else .error (.unsupported (.method method))

/-- The pass over several expressions, one after the other. -/
def visitAll (s : Scope) (named : Bool) : List Expr → Pass → Outcome Pass
  | [], p => .ok p
  | e :: rest, p => do
    let p ← visit s named e p
    visitAll s named rest p

/-- The pass over the members of a projection. The text of each member is taken from the stack
before the next one is visited. -/
def visitMembers (s : Scope) (named : Bool) :
    List (String × Expr) → Pass → Outcome (List String × Pass)
  | [], p => .ok ([], p)
  | (name, e) :: rest, p => do
    let p ← visit s named e p
    let (text, p) ← p.pop
    let (texts, p) ← visitMembers s named rest p
    return (if text = "" then texts else memberText named name text :: texts, p)
end

/-- Compiles an expression in one pass; blanks at the ends of its text are cut off. -/
def compilePass (s : Scope) (named : Bool) (e : Expr) : Outcome String := do
  let p ← visit s named e .start
  let (text, p) ← p.pop
  if p.stack.isEmpty then return Text.trim text
  else
    .error (.unsupported (.stated
      ("Expression left " ++ toString p.stack.length ++ " unconsumed operands")))

/-! ## Captured chains -/

/-- Evaluation from the outside in finds what `captured?` finds. -/
theorem captured?_eq_evaluate (e : Expr) (h : e.isCaptured = true) :
    captured? e = some (evaluate e) := by
  match e with
  | .captured _ => rfl
  | .member owner name =>
    rw [captured?, captured?_eq_evaluate owner h]
    rfl

theorem captured?_eq_none (e : Expr) (h : e.isCaptured = false) : captured? e = none := by
  match e with
  | .member owner name =>
    rw [captured?, captured?_eq_none owner h]
    rfl
  | .captured _ => cases h
  | .parameter _ | .fixed _ _ _ | .constant _ | .binary _ _ _ | .unary _ _ | .conditional _ _ _
  | .projection _ | .call _ _ _ => rfl

/-- The last look-up of a chain is made in one place here and in another by `memberValue`. -/
theorem memberValue_eq_lastValue (mode : EnumMode) (hint : Option EnumColumn) (owner : Expr)
    (name : String) (h : owner.isCaptured = true) :
    memberValue mode hint owner name =
      (evaluate owner >>= fun f => lastValue f name) >>= fun v => .ok (v.literalFor hint mode) := by
  unfold memberValue
  rw [captured?, captured?_eq_evaluate owner h]
  cases evaluate owner with
  | error e => rfl
  | ok f =>
    cases f with
    | value v => rfl
    | record object =>
      simp only [Option.map_some, Except.bind, fieldOf, lastValue, ok_bind]
      cases object.get? name with
      | none => rfl
      | some f => cases f <;> rfl

theorem visitMember_eq_memberValue (s : Scope) (owner : Expr) (name : String)
    (ho : ∀ t, owner ≠ .parameter t) (stack : List String) (hint : Option EnumColumn) :
    visitMember s owner name ⟨stack, hint⟩ =
      (memberValue s.enumMode hint owner name).map fun text => ⟨text :: stack, none⟩ := by
  cases owner with
  | parameter t => exact absurd rfl (ho t)
  | captured object =>
    rw [memberValue_eq_lastValue _ _ _ _ rfl, map_eq_bind, bind_assoc]
    rfl
  | member owner member =>
    rw [visitMember]
    cases hc : (Expr.member owner member).isCaptured with
    | true =>
      rw [memberValue_eq_lastValue _ _ _ _ hc, map_eq_bind, if_pos rfl]
      simp only [bind_assoc, ok_bind]
      rfl
    | false =>
      rw [memberValue, captured?, captured?_eq_none _ hc]
      rfl
  | _ => rfl

/-! ## What one node does -/

/-- A node leaves one text above the stack that it finds, and no enumeration. -/
def Leaves (s : Scope) (named : Bool) (hint : Option EnumColumn) (e : Expr) : Prop :=
  ∀ stack, visit s named e ⟨stack, hint⟩ =
    (render s named hint e).map fun text => ⟨text :: stack, none⟩

theorem visitAll_eq {s : Scope} {named : Bool} {es : List Expr}
    (h : ∀ e ∈ es, Leaves s named none e) (stack : List String) :
    visitAll s named es ⟨stack, none⟩ =
      (es.mapM (render s named none)).map fun texts => ⟨texts.reverse ++ stack, none⟩ := by
  induction es generalizing stack with
  | nil => rfl
  | cons e rest ih =>
    rw [List.forall_mem_cons] at h
    rw [visitAll, h.1 stack, List.mapM_cons, map_eq_bind, map_eq_bind]
    simp only [bind_assoc, ok_bind, pure_eq_ok]
    refine bind_congr fun text => ?_
    rw [ih h.2, map_eq_bind]
    simp

theorem visitMembers_eq {s : Scope} {named : Bool} {members : List (String × Expr)}
    (h : ∀ m ∈ members, Leaves s named none m.2) (stack : List String) :
    visitMembers s named members ⟨stack, none⟩ =
      (renderMembers s named members).map fun texts => (texts, ⟨stack, none⟩) := by
  induction members generalizing stack with
  | nil => rfl
  | cons m rest ih =>
    obtain ⟨name, e⟩ := m
    rw [List.forall_mem_cons] at h
    rw [visitMembers, renderMembers, h.1 stack, map_eq_bind, map_eq_bind]
    simp only [bind_assoc, ok_bind, pure_eq_ok, Pass.pop]
    refine bind_congr fun text => ?_
    rw [ih h.2, map_eq_bind]
    simp

/-! ## The pass follows the recursion -/

theorem leaves_binary {s : Scope} {named : Bool} {op : BinaryOp} {left right : Expr}
    (ih : ∀ o ∈ operands none (.binary op left right), Leaves s named o.2 o.1) :
    Leaves s named none (.binary op left right) := by
  intro stack
  rw [visit, render]
  cases hk : op.keyword? with
  | none => rfl
  | some keyword =>
    rw [operands, hk, ← hintFor_comparison_left, ← hintFor_comparison_right] at ih
    simp only [Option.isSome_some, if_true, List.forall_mem_cons] at ih
    obtain ⟨hl, hr, -⟩ := ih
    simp only [map_eq_bind, bind_assoc, ok_bind, pure_eq_ok, Pass.hinted, hl stack]
    refine bind_congr fun l => ?_
    rw [hr (l :: stack), map_eq_bind, bind_assoc]
    rfl

theorem leaves_unary {s : Scope} {named : Bool} {hint : Option EnumColumn} {op : UnaryOp}
    {operand : Expr} (hop : op ≠ .convert → hint = none)
    (ih : ∀ o ∈ operands hint (.unary op operand), Leaves s named o.2 o.1) :
    Leaves s named hint (.unary op operand) := by
  intro stack
  rw [visit, render]
  rw [operands, List.forall_mem_singleton] at ih
  have h : (if op = .convert then hint else none) = hint := by
    by_cases hc : op = .convert
    · rw [if_pos hc]
    · rw [if_neg hc, hop hc]
  rw [h] at ih ⊢
  simp only [map_eq_bind, bind_assoc, ih stack]
  rfl

theorem leaves_conditional {s : Scope} {named : Bool} {test ifTrue ifFalse : Expr}
    (ih : ∀ o ∈ operands none (.conditional test ifTrue ifFalse), Leaves s named o.2 o.1) :
    Leaves s named none (.conditional test ifTrue ifFalse) := by
  intro stack
  rw [visit, render]
  simp only [operands, List.forall_mem_cons] at ih
  obtain ⟨hc, ha, hb, -⟩ := ih
  simp only [map_eq_bind, bind_assoc, ok_bind, hc stack]
  refine bind_congr fun c => ?_
  rw [ha (c :: stack), map_eq_bind, bind_assoc]
  refine bind_congr fun a => ?_
  rw [ok_bind, hb (a :: c :: stack), map_eq_bind, bind_assoc]
  rfl

theorem leaves_projection {s : Scope} {named : Bool} {members : List (String × Expr)}
    (ih : ∀ o ∈ operands none (.projection members), Leaves s named o.2 o.1) :
    Leaves s named none (.projection members) := by
  intro stack
  have hm : ∀ m ∈ members, Leaves s named none m.2 := fun m hm =>
    ih (m.2, none) (List.mem_map.2 ⟨m, hm, rfl⟩)
  rw [visit, render, visitMembers_eq hm]
  simp only [map_eq_bind, bind_assoc]
  rfl

/-- The steps of a membership test. The value is visited first and takes no enumeration; the
collection takes that of the value if the value is a column. -/
theorem membership_steps {s : Scope} {named : Bool} {value collection : Expr}
    (hv : Leaves s named none value)
    (hc : Leaves s named (takenFrom collection value) collection) (stack : List String) :
    (do
      let p ← visit s named value (Pass.hinted ⟨stack, none⟩ none)
      let p ← visit s named collection (p.hinted (hintFor value.enumColumn? collection))
      let (items, p) ← (p.hinted none).pop
      let (v, p) ← p.pop
      return p.push (membershipText v items)) =
    (do
      let v ← render s named none value
      let items ← render s named (takenFrom collection value) collection
      .ok ⟨membershipText v items :: stack, none⟩ : Outcome Pass) := by
  rw [Pass.hinted, hv stack]
  simp only [map_eq_bind, bind_assoc, ok_bind, Pass.hinted]
  refine bind_congr fun v => ?_
  rw [show hintFor value.enumColumn? collection = takenFrom collection value from rfl,
    hc (v :: stack), map_eq_bind, bind_assoc]
  rfl

theorem leaves_membership {s : Scope} {named : Bool} {target : Option Expr} {args : List Expr}
    (ih : ∀ o ∈ callOperands "Contains" target args, Leaves s named o.2 o.1) :
    Leaves s named none (.call "Contains" target args) := by
  intro stack
  rw [render_call, visit.eq_def]
  simp only [callOperands, if_true] at ih ⊢
  cases target with
  | some collection =>
    rcases args with _ | ⟨value, _ | ⟨_, _⟩⟩
    · rfl
    · simp only [List.forall_mem_cons] at ih
      simpa [callText, map_eq_bind] using membership_steps ih.1 ih.2.1 stack
    · rfl
  | none =>
    rcases args with _ | ⟨collection, _ | ⟨value, _ | ⟨_, _⟩⟩⟩
    · rfl
    · rfl
    · simp only [List.forall_mem_cons] at ih
      simpa [callText, map_eq_bind] using membership_steps ih.1 ih.2.1 stack
    · rfl

theorem leaves_aggregate {s : Scope} {named : Bool} {method : String} {target : Option Expr}
    {args : List Expr} {a : Aggregate} (hm : method ≠ "Contains")
    (ha : Aggregate.ofName? method = some a)
    (ih : ∀ o ∈ callOperands method target args, Leaves s named o.2 o.1) :
    Leaves s named none (.call method target args) := by
  intro stack
  rw [render_call, visit.eq_def]
  unfold callOperands callText at *
  simp only [hm, if_false, ha] at ih ⊢
  cases target with
  | some operand =>
    have h : Leaves s named none operand := ih (operand, none) (by simp)
    simp only [h stack]
    simp [map_eq_bind, Pass.pop, Pass.push]
  | none =>
    cases args with
    | cons operand _ =>
      have h : Leaves s named none operand := ih (operand, none) (by simp)
      simp only [h stack]
      simp [map_eq_bind, Pass.pop, Pass.push]
    | nil =>
      by_cases hc : a = .count
      · simp [hc, map_eq_bind, Pass.push]
      · simp [hc, map_eq_bind]

/-- That the stack has grown by one says that there is exactly one new text. -/
theorem onlyText_eq_depth (method : String) (texts stack : List String) :
    (if (texts.reverse ++ stack).length = stack.length + 1 then
        (.ok ⟨texts.reverse ++ stack, none⟩ : Outcome Pass)
      else .error (.unsupported (.method method))) =
      onlyText method texts >>= fun text => .ok ⟨text :: stack, none⟩ := by
  rcases texts with _ | ⟨text, _ | ⟨_, rest⟩⟩
  · rw [if_neg (by simp)]
    rfl
  · rw [if_pos (by simp)]
    rfl
  · rw [if_neg (by simp only [List.length_append, List.length_reverse, List.length_cons]; omega)]
    rfl

/-- Any other method: its operands are all visited, and exactly one text must be left. -/
theorem leaves_method {s : Scope} {named : Bool} {method : String} {target : Option Expr}
    {args : List Expr} (hm : method ≠ "Contains") (ha : Aggregate.ofName? method = none)
    (ih : ∀ o ∈ callOperands method target args, Leaves s named o.2 o.1) :
    Leaves s named none (.call method target args) := by
  intro stack
  rw [render_call, visit.eq_def]
  unfold callOperands callText at *
  simp only [hm, if_false, ha, List.forall_mem_map] at ih ⊢
  cases target with
  | some operand =>
    simp only [Option.toList_some, List.cons_append, List.nil_append, List.forall_mem_cons] at ih
    simp only [ih.1 stack, map_eq_bind, bind_assoc, ok_bind, visitAll_eq ih.2, List.map_cons,
      Option.toList_some, List.cons_append, List.nil_append, List.mapM_cons, List.mapM_map,
      Function.comp_def, pure_eq_ok]
    refine bind_congr fun first => bind_congr fun rest => ?_
    simpa using onlyText_eq_depth method (first :: rest) stack
  | none =>
    simp only [Option.toList_none, List.nil_append] at ih
    simp only [map_eq_bind, bind_assoc, ok_bind, visitAll_eq ih, Option.toList_none,
      List.nil_append, List.mapM_map, Function.comp_def, pure_eq_ok]
    exact bind_congr fun texts => onlyText_eq_depth method texts stack

theorem leaves_call {s : Scope} {named : Bool} {method : String} {target : Option Expr}
    {args : List Expr}
    (ih : ∀ o ∈ callOperands method target args, Leaves s named o.2 o.1) :
    Leaves s named none (.call method target args) := by
  by_cases hm : method = "Contains"
  · subst hm
    exact leaves_membership ih
  · cases ha : Aggregate.ofName? method with
    | some a => exact leaves_aggregate hm ha ih
    | none => exact leaves_method hm ha ih

/-- A value that takes an enumeration, and any node without one, leaves the text that it is compiled
to. -/
theorem leaves_of_isValue (s : Scope) (named : Bool) (hint : Option EnumColumn) (e : Expr)
    (he : hint.isSome = true → e.isValue = true) : Leaves s named hint e := by
  induction hint, e using operands_induction with
  | node hint e ih =>
    replace ih := fun o ho => ih o ho (isValue_of_operands_hint he ho)
    have hn : e.isValue = false → hint = none := by
      intro hv
      cases hint with
      | none => rfl
      | some column => exact absurd (he rfl) (by simp [hv])
    cases e with
    | parameter t =>
      obtain rfl := hn rfl
      exact fun _ => rfl
    | member owner name =>
      intro stack
      cases owner with
      | parameter t =>
        obtain rfl := hn rfl
        rw [visit, render, visitMember]
        rfl
      | _ => exact visitMember_eq_memberValue s _ name (by simp) stack hint
    | captured object => exact fun _ => rfl
    | fixed owner name value => exact fun _ => rfl
    | constant value => exact fun _ => rfl
    | binary op left right =>
      obtain rfl := hn rfl
      exact leaves_binary ih
    | unary op operand =>
      refine leaves_unary (fun hop => hn ?_) ih
      cases op <;> first | rfl | exact absurd rfl hop
    | conditional test ifTrue ifFalse =>
      obtain rfl := hn rfl
      exact leaves_conditional ih
    | projection members =>
      obtain rfl := hn rfl
      exact leaves_projection ih
    | call method target args =>
      obtain rfl := hn rfl
      exact leaves_call ih

theorem compilePass_eq (s : Scope) (named : Bool) (e : Expr) :
    compilePass s named e = compile s named e := by
  unfold compilePass compile
  have h : Leaves s named none e := leaves_of_isValue s named none e (by simp)
  rw [Pass.start, h [], map_eq_bind, map_eq_bind, bind_assoc]
  rfl

/-! ## The errors of the pass itself -/

/-- An error that names no cause in the expression. -/
def isInternal (e : Error) : Prop :=
  ∃ text, e = .unsupported (.stated text)

theorem not_isInternal_of_captured? {e : Expr} {fault : Error}
    (h : captured? e = some (.error fault)) : ¬ isInternal fault := by
  match e with
  | .member owner name =>
    rw [captured?, Option.map_eq_some_iff] at h
    obtain ⟨o, ho, h⟩ := h
    cases o with
    | error e =>
      cases h
      exact not_isInternal_of_captured? ho
    | ok f =>
      intro hi
      obtain ⟨text, rfl⟩ := hi
      simp only [Except.bind, fieldOf] at h
      split at h
      · split at h <;> cases h
      · cases h
  | .captured _ => cases h
  | .parameter _ | .fixed _ _ _ | .constant _ | .binary _ _ _ | .unary _ _ | .conditional _ _ _
  | .projection _ | .call _ _ _ => cases h

theorem not_isInternal_of_column {s : Scope} {t : MappedType} {name : String} {fault : Error}
    (h : s.column t name = .error fault) : ¬ isInternal fault := by
  intro hi
  obtain ⟨text, rfl⟩ := hi
  simp only [Scope.column, bind_eq_error] at h
  rcases h with h | ⟨_, -, h | ⟨_, -, h⟩⟩
  · unfold Scope.aliasOf at h
    split at h
    · cases h
    · split at h <;> cases h
  · unfold MappedType.column at h
    split at h <;> cases h
  · cases h

theorem not_isInternal_of_memberValue {mode : EnumMode} {hint : Option EnumColumn} {owner : Expr}
    {name : String} {fault : Error} (h : memberValue mode hint owner name = .error fault) :
    ¬ isInternal fault := by
  unfold memberValue at h
  split at h
  · cases h
  · intro hi
    obtain ⟨text, rfl⟩ := hi
    cases h
  · next he =>
    cases h
    exact not_isInternal_of_captured? he
  · intro hi
    obtain ⟨text, rfl⟩ := hi
    split at h <;> cases h

theorem not_isInternal_of_callText {method : String} {texts : List String} {fault : Error}
    (h : callText method texts = .error fault) : ¬ isInternal fault := by
  intro hi
  obtain ⟨text, rfl⟩ := hi
  unfold callText at h
  split at h
  · split at h <;> cases h
  · split at h
    · cases h
    · split at h <;> cases h
    · unfold onlyText at h
      split at h <;> cases h

theorem not_isInternal_of_assemble {s : Scope} {named : Bool} {hint : Option EnumColumn} {e : Expr}
    {texts : List String} {fault : Error} (h : assemble s named hint e texts = .error fault) :
    ¬ isInternal fault := by
  unfold assemble at h
  split at h
  · cases h
  · exact not_isInternal_of_column h
  · exact not_isInternal_of_memberValue h
  · intro hi
    obtain ⟨text, rfl⟩ := hi
    cases h
  · cases h
  · cases h
  · intro hi
    obtain ⟨text, rfl⟩ := hi
    split at h <;> cases h
  · cases h
  · cases h
  · cases h
  · exact not_isInternal_of_callText h
  · cases h

theorem not_isInternal_of_render {s : Scope} {named : Bool} {hint : Option EnumColumn} {e : Expr}
    {fault : Error} (h : render s named hint e = .error fault) : ¬ isInternal fault := by
  induction hint, e using operands_induction with
  | node hint e ih =>
    rw [render_eq_assemble, bind_eq_error] at h
    rcases h with h | ⟨texts, -, h⟩
    · obtain ⟨o, ho, h⟩ := exists_mem_of_mapM_eq_error h
      exact ih o ho h
    · exact not_isInternal_of_assemble h

/-- **One pass with a stack is recursion on the structure.** The pass compiles every expression to
the text, or to the error, of `compile`. On the way every node, under the enumeration that it is
handed, leaves one text above the stack that it finds and no enumeration; the text of a node is made
of the texts of its operands alone; an enumeration is handed to exactly the values, under
conversions or not, that are held against a column of it; and no failure is the pass's own. -/
theorem compilePass_refines_compile (s : Scope) (named : Bool) (e : Expr) :
    compilePass s named e = compile s named e ∧
    (∀ operand hint, Handed e operand hint → ∀ stack,
      visit s named operand ⟨stack, hint⟩ =
        (render s named hint operand).map fun text => ⟨text :: stack, none⟩) ∧
    (∀ hint, render s named hint e =
      ((e.operands hint).mapM fun o => render s named o.2 o.1) >>= assemble s named hint e) ∧
    (∀ operand column, Handed e operand (some column) ↔
      ∃ node value, Handed e node none ∧ Meets node value column ∧ Converts value operand) ∧
    ∀ text, compilePass s named e ≠ .error (.unsupported (.stated text)) := by
  refine ⟨compilePass_eq s named e, ?_, fun hint => render_eq_assemble s named hint e,
    fun _ _ => handed_some_iff, ?_⟩
  · intro operand hint h
    exact leaves_of_isValue s named hint operand h.isValue
  · intro text h
    rw [compilePass_eq, compile, map_eq_error] at h
    exact not_isInternal_of_render h ⟨text, rfl⟩

/-- A converted value held against an enumerated column, and what the pass leaves for it. -/
theorem compilePass_refines_compile_converted :
    let status : EnumColumn := ⟨⟨"Status", [("Active", 1), ("Retired", 3)]⟩, .asString⟩
    let staff : MappedType := ⟨"Staff", "Staff", some "dbo",
      [(Column.plain "Status" "Status").enumerated status.type status.mode]⟩
    let scope : Scope := ⟨(Registry.empty "dbo").add staff true, [staff], .asInt⟩
    let value : Expr := .constant (.int 3)
    let test : Expr := .binary .equal (.column staff "Status") (.unary .convert value)
    Handed test value (some status) ∧
      visit scope false value ⟨["t0.[Status]"], some status⟩ =
        .ok ⟨["'Retired'", "t0.[Status]"], none⟩ ∧
      compilePass scope false test = .ok "(t0.[Status] = 'Retired')" := by
  intro status staff scope value test
  obtain ⟨hcompile, hvisit, -, hhanded, -⟩ := compilePass_refines_compile scope false test
  have hvalue : Handed test value (some status) :=
    (hhanded value status).2 ⟨test, .unary .convert value, .root, .right rfl rfl rfl,
      .under (.same _)⟩
  have hrender : render scope false (some status) value = .ok "'Retired'" := by decide
  refine ⟨hvalue, ?_, ?_⟩
  · rw [hvisit value (some status) hvalue, hrender]
    rfl
  · rw [hcompile]
    decide

end SqlWright.Expr
