import SqlWright.Proofs.Expr.Hints

/-!
# What an expression holds

The values and the mapped types inside an expression, and expressions with other values at their
leaves. Both go through the whole tree, also through parts that have no SQL form. What a node makes
of its operands does not depend on the values at the leaves.
-/

namespace SqlWright

/-! ## Values in records -/

mutual
/-- Whether all values of a field meet a test. -/
def Field.allValues (test : Value → Bool) : Field → Bool
  | .value v => test v
  | .record ⟨_, fields⟩ => Field.allIn test fields

/-- Whether all values of some named fields meet a test. -/
def Field.allIn (test : Value → Bool) : List (String × Field) → Bool
  | [] => true
  | (_, f) :: rest => Field.allValues test f && Field.allIn test rest
end

/-- Whether all values of a record meet a test. -/
def Record.allValues (test : Value → Bool) (r : Record Field) : Bool :=
  Field.allIn test r.fields

theorem Field.allIn_iff {test : Value → Bool} {fields : List (String × Field)} :
    Field.allIn test fields = true ↔ ∀ f ∈ fields, f.2.allValues test = true := by
  induction fields with
  | nil => simp [Field.allIn]
  | cons f rest ih =>
    rw [List.forall_mem_cons, ← ih, ← Bool.and_eq_true]
    rfl

theorem Record.allValues_of_get? {test : Value → Bool} {r : Record Field} {name : String}
    {f : Field} (hr : r.allValues test = true) (h : r.get? name = some f) :
    f.allValues test = true := by
  obtain ⟨g, hg, rfl⟩ := Option.map_eq_some_iff.1 h
  exact Field.allIn_iff.1 hr g (List.mem_of_find?_eq_some hg)

namespace Expr

/-! ## Values and types in expressions -/

mutual
/-- Whether all values in an expression meet one test and all its mapped types another. -/
def allOf (value : Value → Bool) (type : MappedType → Bool) : Expr → Bool
  | .parameter t => type t
  | .member owner _ => allOf value type owner
  | .captured object => object.allValues value
  | .fixed _ _ v | .constant v => value v
  | .binary _ left right => allOf value type left && allOf value type right
  | .unary _ operand => allOf value type operand
  | .conditional test ifTrue ifFalse =>
    allOf value type test && allOf value type ifTrue && allOf value type ifFalse
  | .projection members => allOfMembers value type members
  | .call _ target args => allOfTarget value type target && allOfAll value type args

/-- `allOf` for the target of a call. -/
def allOfTarget (value : Value → Bool) (type : MappedType → Bool) : Option Expr → Bool
  | none => true
  | some e => allOf value type e

/-- `allOf` for several expressions. -/
def allOfAll (value : Value → Bool) (type : MappedType → Bool) : List Expr → Bool
  | [] => true
  | e :: rest => allOf value type e && allOfAll value type rest

/-- `allOf` for the members of a projection. -/
def allOfMembers (value : Value → Bool) (type : MappedType → Bool) :
    List (String × Expr) → Bool
  | [] => true
  | (_, e) :: rest => allOf value type e && allOfMembers value type rest
end

section AllOf

variable {value : Value → Bool} {type : MappedType → Bool}

theorem allOfTarget_iff {target : Option Expr} :
    allOfTarget value type target = true ↔ ∀ e ∈ target, e.allOf value type = true := by
  cases target with
  | none => simp [allOfTarget]
  | some e => simp [allOfTarget]

theorem allOfAll_iff {es : List Expr} :
    allOfAll value type es = true ↔ ∀ e ∈ es, e.allOf value type = true := by
  induction es with
  | nil => simp [allOfAll]
  | cons e rest ih => rw [allOfAll, Bool.and_eq_true, ih, List.forall_mem_cons]

theorem allOfMembers_iff {members : List (String × Expr)} :
    allOfMembers value type members = true ↔ ∀ m ∈ members, m.2.allOf value type = true := by
  induction members with
  | nil => simp [allOfMembers]
  | cons m rest ih => rw [allOfMembers, Bool.and_eq_true, ih, List.forall_mem_cons]

theorem allOf_call {method : String} {target : Option Expr} {args : List Expr} :
    allOf value type (.call method target args) = true ↔
      (∀ e ∈ target, e.allOf value type = true) ∧ ∀ e ∈ args, e.allOf value type = true := by
  rw [allOf, Bool.and_eq_true, allOfTarget_iff, allOfAll_iff]

/-- What an expression holds is more than what its operands hold. -/
theorem allOf_of_mem_operands {hint : Option EnumColumn} {e : Expr}
    (h : e.allOf value type = true) {o : Expr × Option EnumColumn} (ho : o ∈ e.operands hint) :
    o.1.allOf value type = true := by
  cases e with
  | parameter t => cases ho
  | member owner name => cases ho
  | captured object => cases ho
  | fixed owner name v => cases ho
  | constant v => cases ho
  | binary op left right =>
    rw [allOf, Bool.and_eq_true] at h
    rw [operands] at ho
    split at ho
    · rcases List.mem_pair.1 ho with rfl | rfl
      · exact h.1
      · exact h.2
    · cases ho
  | unary op operand =>
    rw [List.mem_singleton.1 ho]
    exact h
  | conditional test ifTrue ifFalse =>
    rw [allOf, Bool.and_eq_true, Bool.and_eq_true] at h
    simp only [operands, List.mem_cons, List.not_mem_nil, or_false] at ho
    rcases ho with rfl | rfl | rfl
    · exact h.1.1
    · exact h.1.2
    · exact h.2
  | projection members =>
    obtain ⟨m, hm, rfl⟩ := List.mem_map.1 ho
    exact allOfMembers_iff.1 h m hm
  | call method target args =>
    rw [allOf_call] at h
    rcases callOperands_mem ho with ht | ha
    · exact h.1 _ ht
    · exact h.2 _ ha

/-- What a captured record or a chain of its members denotes holds no more than the expression. -/
theorem allValues_of_captured? {e : Expr} (h : e.allOf value type = true) {f : Field}
    (hf : captured? e = some (.ok f)) : f.allValues value = true := by
  match e with
  | .captured object =>
    cases hf
    obtain ⟨label, fields⟩ := object
    exact h
  | .member owner name =>
    obtain ⟨o, ho, he⟩ := Option.map_eq_some_iff.1 hf
    obtain ⟨g, rfl, hg⟩ := Outcome.bind_eq_ok.1 he
    have hall := allValues_of_captured? (e := owner) h ho
    match g with
    | .value v => cases hg
    | .record ⟨label, fields⟩ =>
      rw [fieldOf] at hg
      split at hg
      · next g hget =>
        cases hg
        exact Record.allValues_of_get? (r := ⟨label, fields⟩) hall hget
      · cases hg

end AllOf

/-! ## Types without enumerations -/

/-- Whether no column of a type is enumerated. -/
def hasNoEnumeration (t : MappedType) : Bool :=
  t.table.columns.all fun c => c.enumColumn?.isNone

theorem enumColumn?_eq_none {value : Value → Bool} {e : Expr}
    (h : e.allOf value hasNoEnumeration = true) : e.enumColumn? = none := by
  match e with
  | .member (.parameter t) name =>
    rw [enumColumn?, Option.bind_eq_none_iff]
    intro c hc
    exact Option.isNone_iff_eq_none.1 (List.all_eq_true.1 h c (List.mem_of_find?_eq_some hc))
  | .unary .convert operand => exact enumColumn?_eq_none (e := operand) h
  | .unary .negate _ | .unary .not _ => rfl
  | .member (.member _ _) _ | .member (.captured _) _ | .member (.fixed _ _ _) _
  | .member (.constant _) _ | .member (.binary _ _ _) _ | .member (.unary _ _) _
  | .member (.conditional _ _ _) _ | .member (.projection _) _ | .member (.call _ _ _) _ => rfl
  | .parameter _ | .captured _ | .fixed _ _ _ | .constant _ | .binary _ _ _
  | .conditional _ _ _ | .projection _ | .call _ _ _ => rfl

/-- Without enumerated columns no value is handed an enumeration. -/
theorem operands_unhinted {value : Value → Bool} {e : Expr}
    (h : e.allOf value hasNoEnumeration = true) {o : Expr × Option EnumColumn}
    (ho : o ∈ e.operands none) : o.2 = none := by
  obtain ⟨operand, hint⟩ := o
  cases hint with
  | none => rfl
  | some column =>
    rcases operands_hint ho with hm | ⟨-, hn⟩
    · have hcolumn {other : Expr} (ha : other.allOf value hasNoEnumeration = true)
          (hc : other.enumColumn? = some column) : False := by
        rw [enumColumn?_eq_none ha] at hc
        cases hc
      cases hm with
      | left _ _ hc =>
        rw [allOf, Bool.and_eq_true] at h
        exact (hcolumn h.2 hc).elim
      | right _ _ hc =>
        rw [allOf, Bool.and_eq_true] at h
        exact (hcolumn h.1 hc).elim
      | collection _ hc =>
        exact (hcolumn ((allOf_call.1 h).2 _ List.mem_cons_self) hc).elim
      | collectionArgument _ hc =>
        exact (hcolumn ((allOf_call.1 h).2 _ (List.mem_cons_of_mem _ List.mem_cons_self)) hc).elim
    · cases hn

/-! ## Other values at the leaves -/

mutual
/-- An expression with every constant and every fixed value replaced. Captured records stay. -/
def mapConstants (f : Value → Value) : Expr → Expr
  | .parameter t => .parameter t
  | .member owner name => .member (mapConstants f owner) name
  | .captured object => .captured object
  | .fixed owner name v => .fixed owner name (f v)
  | .constant v => .constant (f v)
  | .binary op left right => .binary op (mapConstants f left) (mapConstants f right)
  | .unary op operand => .unary op (mapConstants f operand)
  | .conditional test ifTrue ifFalse =>
    .conditional (mapConstants f test) (mapConstants f ifTrue) (mapConstants f ifFalse)
  | .projection members => .projection (mapConstantsMembers f members)
  | .call method target args =>
    .call method (mapConstantsTarget f target) (mapConstantsAll f args)

/-- `mapConstants` for the target of a call. -/
def mapConstantsTarget (f : Value → Value) : Option Expr → Option Expr
  | none => none
  | some e => some (mapConstants f e)

/-- `mapConstants` for several expressions. -/
def mapConstantsAll (f : Value → Value) : List Expr → List Expr
  | [] => []
  | e :: rest => mapConstants f e :: mapConstantsAll f rest

/-- `mapConstants` for the members of a projection. -/
def mapConstantsMembers (f : Value → Value) : List (String × Expr) → List (String × Expr)
  | [] => []
  | (name, e) :: rest => (name, mapConstants f e) :: mapConstantsMembers f rest
end

section MapConstants

variable (f : Value → Value)

theorem mapConstantsTarget_eq (target : Option Expr) :
    mapConstantsTarget f target = target.map (mapConstants f) := by
  cases target <;> rfl

theorem mapConstantsAll_eq (es : List Expr) :
    mapConstantsAll f es = es.map (mapConstants f) := by
  induction es with
  | nil => rfl
  | cons e rest ih => rw [mapConstantsAll, ih, List.map_cons]

theorem mapConstantsMembers_eq (members : List (String × Expr)) :
    mapConstantsMembers f members = members.map fun m => (m.1, m.2.mapConstants f) := by
  induction members with
  | nil => rfl
  | cons m rest ih => rw [mapConstantsMembers, ih, List.map_cons]

theorem captured?_mapConstants (e : Expr) : captured? (e.mapConstants f) = captured? e := by
  match e with
  | .member owner name =>
    rw [mapConstants, captured?, captured?, captured?_mapConstants owner]
  | .parameter _ | .captured _ | .fixed _ _ _ | .constant _ | .binary _ _ _ | .unary _ _
  | .conditional _ _ _ | .projection _ | .call _ _ _ => rfl

theorem isCaptured_mapConstants (e : Expr) : isCaptured (e.mapConstants f) = isCaptured e := by
  match e with
  | .member owner name => exact isCaptured_mapConstants owner
  | .parameter _ | .captured _ | .fixed _ _ _ | .constant _ | .binary _ _ _ | .unary _ _
  | .conditional _ _ _ | .projection _ | .call _ _ _ => rfl

theorem isValue_mapConstants (e : Expr) : isValue (e.mapConstants f) = isValue e := by
  match e with
  | .member owner name => exact isCaptured_mapConstants f owner
  | .unary .convert operand => exact isValue_mapConstants operand
  | .unary .negate _ | .unary .not _ => rfl
  | .parameter _ | .captured _ | .fixed _ _ _ | .constant _ | .binary _ _ _
  | .conditional _ _ _ | .projection _ | .call _ _ _ => rfl

theorem enumColumn?_mapConstants (e : Expr) :
    enumColumn? (e.mapConstants f) = enumColumn? e := by
  match e with
  | .member owner name => cases owner <;> rfl
  | .unary .convert operand => exact enumColumn?_mapConstants operand
  | .unary .negate _ | .unary .not _ => rfl
  | .parameter _ | .captured _ | .fixed _ _ _ | .constant _ | .binary _ _ _
  | .conditional _ _ _ | .projection _ | .call _ _ _ => rfl

theorem takenFrom_mapConstants (operand other : Expr) :
    takenFrom (operand.mapConstants f) (other.mapConstants f) = takenFrom operand other := by
  rw [takenFrom, takenFrom, isValue_mapConstants, enumColumn?_mapConstants]

theorem callOperands_mapConstants (method : String) (target : Option Expr) (args : List Expr) :
    callOperands method (target.map (mapConstants f)) (args.map (mapConstants f)) =
      (callOperands method target args).map fun o => (o.1.mapConstants f, o.2) := by
  unfold callOperands
  by_cases hc : method = "Contains"
  · rw [if_pos hc, if_pos hc]
    match target, args with
    | some collection, [value] | none, [collection, value] =>
      simp [takenFrom_mapConstants]
    | some _, [] | some _, _ :: _ :: _ | none, [] | none, [_] | none, _ :: _ :: _ :: _ => rfl
  · rw [if_neg hc, if_neg hc]
    cases Aggregate.ofName? method with
    | some a => cases target <;> cases args <;> rfl
    | none => cases target <;> simp [Function.comp_def]

/-- The values at the leaves do not decide what the operands are and what they are handed. -/
theorem operands_mapConstants (hint : Option EnumColumn) (e : Expr) :
    (e.mapConstants f).operands hint =
      (e.operands hint).map fun o => (o.1.mapConstants f, o.2) := by
  cases e with
  | member owner name => cases owner <;> rfl
  | parameter t => rfl
  | captured object => rfl
  | fixed owner name v => rfl
  | constant v => rfl
  | binary op left right =>
    rw [mapConstants, operands, operands, takenFrom_mapConstants, takenFrom_mapConstants]
    split <;> rfl
  | unary op operand => rfl
  | conditional test ifTrue ifFalse => rfl
  | projection members =>
    rw [mapConstants, operands, operands, mapConstantsMembers_eq, List.map_map, List.map_map]
    rfl
  | call method target args =>
    rw [mapConstants, mapConstantsTarget_eq, mapConstantsAll_eq]
    exact callOperands_mapConstants f method target args

end MapConstants

section AllOfMapConstants

variable {f : Value → Value} {value : Value → Bool} {type : MappedType → Bool}

mutual
/-- A test that a change of values respects holds of the changed expression as of the old one. -/
theorem allOf_mapConstants (hf : ∀ v, value (f v) = value v) :
    (e : Expr) → (e.mapConstants f).allOf value type = e.allOf value type
  | .parameter _ | .captured _ => rfl
  | .fixed _ _ v | .constant v => hf v
  | .member owner _ => allOf_mapConstants hf owner
  | .unary _ operand => allOf_mapConstants hf operand
  | .binary _ left right => by
    rw [mapConstants, allOf, allOf, allOf_mapConstants hf left, allOf_mapConstants hf right]
  | .conditional test ifTrue ifFalse => by
    rw [mapConstants, allOf, allOf, allOf_mapConstants hf test, allOf_mapConstants hf ifTrue,
      allOf_mapConstants hf ifFalse]
  | .projection members => allOfMembers_mapConstants hf members
  | .call _ target args => by
    rw [mapConstants, allOf, allOf, allOfTarget_mapConstants hf target,
      allOfAll_mapConstants hf args]

theorem allOfTarget_mapConstants (hf : ∀ v, value (f v) = value v) :
    (target : Option Expr) →
      allOfTarget value type (mapConstantsTarget f target) = allOfTarget value type target
  | none => rfl
  | some e => allOf_mapConstants hf e

theorem allOfAll_mapConstants (hf : ∀ v, value (f v) = value v) :
    (es : List Expr) → allOfAll value type (mapConstantsAll f es) = allOfAll value type es
  | [] => rfl
  | e :: rest => by
    rw [mapConstantsAll, allOfAll, allOfAll, allOf_mapConstants hf e,
      allOfAll_mapConstants hf rest]

theorem allOfMembers_mapConstants (hf : ∀ v, value (f v) = value v) :
    (members : List (String × Expr)) →
      allOfMembers value type (mapConstantsMembers f members) = allOfMembers value type members
  | [] => rfl
  | (name, e) :: rest => by
    rw [mapConstantsMembers, allOfMembers, allOfMembers, allOf_mapConstants hf e,
      allOfMembers_mapConstants hf rest]
end

end AllOfMapConstants

end Expr

end SqlWright
