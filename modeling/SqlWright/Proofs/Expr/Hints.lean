import SqlWright.Proofs.Expr.Operands

/-!
# The enumerations that values take

Which nodes of an expression are compiled under an enumeration. A comparison hands the enumeration
of a column on one side to a value on the other, a membership test hands it to its collection, and a
conversion passes on what it was handed. No other node is handed one, and no enumeration goes past
the value that takes it.
-/

namespace SqlWright.Expr

/-! ## Values that are held against a column -/

/-- A node in which `value` is compared with a column of the enumeration `column`: as one side of a
comparison, or as the collection of a membership test. -/
inductive Meets : Expr → Expr → EnumColumn → Prop
  | left {op : BinaryOp} {value other : Expr} {column : EnumColumn} :
      op.isComparison = true → value.isValue = true → other.enumColumn? = some column →
      Meets (.binary op value other) value column
  | right {op : BinaryOp} {value other : Expr} {column : EnumColumn} :
      op.isComparison = true → value.isValue = true → other.enumColumn? = some column →
      Meets (.binary op other value) value column
  | collection {value other : Expr} {column : EnumColumn} :
      value.isValue = true → other.enumColumn? = some column →
      Meets (.isIn other value) value column
  | collectionArgument {value other : Expr} {column : EnumColumn} :
      value.isValue = true → other.enumColumn? = some column →
      Meets (.contains value other) value column

theorem Meets.isValue {node value : Expr} {column : EnumColumn} (h : Meets node value column) :
    value.isValue = true := by
  cases h <;> assumption

theorem takenFrom_eq_some {operand other : Expr} {column : EnumColumn} :
    takenFrom operand other = some column ↔
      operand.isValue = true ∧ other.enumColumn? = some column := by
  simp [takenFrom]

theorem callOperands_hint {method : String} {target : Option Expr} {args : List Expr}
    {operand : Expr} {column : EnumColumn}
    (h : (operand, some column) ∈ callOperands method target args) :
    Meets (.call method target args) operand column := by
  unfold callOperands at h
  split at h
  case isTrue hm =>
    subst hm
    split at h
    · simp only [List.mem_cons, Prod.mk.injEq, reduceCtorEq, and_false, List.not_mem_nil, or_false,
        false_or] at h
      obtain ⟨rfl, ht⟩ := h
      obtain ⟨hv, hc⟩ := takenFrom_eq_some.1 ht.symm
      exact .collection hv hc
    · simp only [List.mem_cons, Prod.mk.injEq, reduceCtorEq, and_false, List.not_mem_nil, or_false,
        false_or] at h
      obtain ⟨rfl, ht⟩ := h
      obtain ⟨hv, hc⟩ := takenFrom_eq_some.1 ht.symm
      exact .collectionArgument hv hc
    · cases h
  case isFalse hm =>
    split at h <;> simp at h

/-- An operand takes an enumeration only from a column that it is compared with, or, under a
conversion, from the node above. -/
theorem operands_hint {hint : Option EnumColumn} {e operand : Expr} {column : EnumColumn}
    (h : (operand, some column) ∈ e.operands hint) :
    Meets e operand column ∨ (e = .unary .convert operand ∧ hint = some column) := by
  cases e with
  | binary op left right =>
    rw [operands] at h
    split at h
    · simp only [List.mem_cons, Prod.mk.injEq, List.not_mem_nil, or_false] at h
      rcases h with ⟨rfl, ht⟩ | ⟨rfl, ht⟩
      · split at ht
        case isTrue hop =>
          obtain ⟨hv, hc⟩ := takenFrom_eq_some.1 ht.symm
          exact .inl (.left hop hv hc)
        case isFalse => cases ht
      · split at ht
        case isTrue hop =>
          obtain ⟨hv, hc⟩ := takenFrom_eq_some.1 ht.symm
          exact .inl (.right hop hv hc)
        case isFalse => cases ht
    · cases h
  | unary op inner =>
    rw [operands, List.mem_singleton, Prod.mk.injEq] at h
    obtain ⟨rfl, ht⟩ := h
    split at ht
    case isTrue hop => exact .inr ⟨by rw [hop], ht.symm⟩
    case isFalse => cases ht
  | call method target args => exact .inl (callOperands_hint h)
  | conditional test ifTrue ifFalse => simp [operands] at h
  | projection members => simp [operands] at h
  | _ => cases h

theorem isValue_of_operands_hint {hint : Option EnumColumn} {e : Expr}
    (he : hint.isSome = true → e.isValue = true) {o : Expr × Option EnumColumn}
    (h : o ∈ e.operands hint) (ho : o.2.isSome = true) : o.1.isValue = true := by
  obtain ⟨column, hc⟩ := Option.isSome_iff_exists.1 ho
  obtain ⟨operand, taken⟩ := o
  simp only at hc
  subst hc
  rcases operands_hint h with hm | ⟨rfl, rfl⟩
  · exact hm.isValue
  · exact he rfl

/-! ## The enumeration of every node -/

/-- The nodes that compilation reaches from `root`, each with the enumeration that it is handed. -/
inductive Handed (root : Expr) : Expr → Option EnumColumn → Prop
  | root : Handed root root none
  | operand {e : Expr} {hint : Option EnumColumn} {o : Expr × Option EnumColumn} :
      Handed root e hint → o ∈ e.operands hint → Handed root o.1 o.2

/-- An expression that is the other one under any number of conversions. -/
inductive Converts : Expr → Expr → Prop
  | same (e : Expr) : Converts e e
  | under {value operand : Expr} :
      Converts value (.unary .convert operand) → Converts value operand

theorem Handed.isValue {root e : Expr} {hint : Option EnumColumn} (h : Handed root e hint) :
    hint.isSome = true → e.isValue = true := by
  induction h with
  | root => simp
  | operand _ ho ih => exact isValue_of_operands_hint ih ho

theorem Meets.not_isValue {node value : Expr} {column : EnumColumn} (h : Meets node value column) :
    node.isValue = false := by
  cases h <;> rfl

theorem Meets.mem_operands {node value : Expr} {column : EnumColumn}
    (h : Meets node value column) : (value, some column) ∈ node.operands none := by
  cases h with
  | @left op _ other _ hop hv hc =>
    have hk : op.keyword?.isSome = true := by cases op <;> first | rfl | cases hop
    rw [operands, if_pos hk, if_pos hop, takenFrom_eq_some.2 ⟨hv, hc⟩]
    exact List.mem_cons_self
  | @right op _ other _ hop hv hc =>
    have hk : op.keyword?.isSome = true := by cases op <;> first | rfl | cases hop
    rw [operands, if_pos hk, if_pos hop, if_pos hop, takenFrom_eq_some.2 ⟨hv, hc⟩]
    exact List.mem_cons_of_mem _ List.mem_cons_self
  | collection hv hc =>
    simp [isIn, operands, callOperands, takenFrom_eq_some.2 ⟨hv, hc⟩]
  | collectionArgument hv hc =>
    simp [contains, operands, callOperands, takenFrom_eq_some.2 ⟨hv, hc⟩]

/-- A node is handed an enumeration exactly if it is, under conversions or not, the value that a
comparison or a membership test holds against a column of that enumeration. -/
theorem handed_some_iff {root operand : Expr} {column : EnumColumn} :
    Handed root operand (some column) ↔
      ∃ node value, Handed root node none ∧ Meets node value column ∧ Converts value operand := by
  constructor
  · intro h
    generalize hhint : some column = hint at h
    induction h with
    | root => cases hhint
    | @operand e hint o he ho ih =>
      obtain ⟨operand, taken⟩ := o
      simp only at hhint
      subst hhint
      rcases operands_hint ho with hm | ⟨rfl, rfl⟩
      · cases hint with
        | none => exact ⟨e, operand, he, hm, .same operand⟩
        | some c => exact absurd (he.isValue rfl) (by simp [hm.not_isValue])
      · obtain ⟨node, value, hn, hm, hc⟩ := ih rfl
        exact ⟨node, value, hn, hm, hc.under⟩
  · rintro ⟨node, value, hn, hm, hc⟩
    induction hc with
    | same => exact .operand hn hm.mem_operands
    | @under operand _ ih =>
      exact .operand (o := (operand, some column)) ih (by simp [operands])

end SqlWright.Expr
