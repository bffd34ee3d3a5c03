import Mathlib.Logic.Relation
import SqlWright.Proofs.Expr.Operands

/-!
# Places in an expression

An expression stands inside another at a place, which is told by the nodes around it. A node above
sees three things of it: its text under each enumeration, whether it is a value, and the enumeration
that it has as a column. If another expression agrees with it in these, one may stand for the other
at every place but inside the owner of a member, whose form is looked at. A conversion agrees with
what it converts, so conversions may be taken out of an expression and put into it.
-/

namespace SqlWright.Expr

open Outcome

/-! ## Places -/

/-- A node with one of its parts left out. -/
inductive Frame where
  | owner (name : String)
  | left (op : BinaryOp) (right : Expr)
  | right (op : BinaryOp) (left : Expr)
  | operand (op : UnaryOp)
  | test (ifTrue ifFalse : Expr)
  | ifTrue (test ifFalse : Expr)
  | ifFalse (test ifTrue : Expr)
  | member (before : List (String × Expr)) (name : String) (after : List (String × Expr))
  | target (method : String) (args : List Expr)
  | argument (method : String) (target : Option Expr) (before after : List Expr)

namespace Frame

/-- The node with an expression for the part that is left out. -/
def fill : Frame → Expr → Expr
  | .owner name, e => .member e name
  | .left op other, e => .binary op e other
  | .right op other, e => .binary op other e
  | .operand op, e => .unary op e
  | .test a b, e => .conditional e a b
  | .ifTrue c b, e => .conditional c e b
  | .ifFalse c a, e => .conditional c a e
  | .member before name after, e => .projection (before ++ (name, e) :: after)
  | .target method args, e => .call method (some e) args
  | .argument method receiver before after, e => .call method receiver (before ++ e :: after)

/-- Whether the part that is left out is the owner of a member. -/
def isOwner : Frame → Bool
  | .owner _ => true
  | .left _ _ | .right _ _ | .operand _ | .test _ _ | .ifTrue _ _ | .ifFalse _ _ | .member _ _ _
  | .target _ _ | .argument _ _ _ _ => false

end Frame

/-- The expression that has another one at a place. The place is told by the nodes around it, the
outermost first. -/
def within (e : Expr) (place : List Frame) : Expr :=
  place.foldr Frame.fill e

/-! ## Expressions that stand for each other -/

/-- Two expressions that no node above them tells apart, save that of a member which they own. -/
structure Interchangeable (s : Scope) (named : Bool) (e e' : Expr) : Prop where
  render (hint : Option EnumColumn) : render s named hint e = render s named hint e'
  isValue : e.isValue = e'.isValue
  enumColumn? : e.enumColumn? = e'.enumColumn?

variable {s : Scope} {named : Bool} {e e' : Expr}

theorem Interchangeable.refl (e : Expr) : Interchangeable s named e e :=
  ⟨fun _ => rfl, rfl, rfl⟩

theorem Interchangeable.forall₂_refl (es : List Expr) :
    List.Forall₂ (Interchangeable s named) es es :=
  List.forall₂_same.2 fun e _ => .refl e

theorem Interchangeable.takenFrom {operand operand' other other' : Expr}
    (h : Interchangeable s named operand operand') (ho : Interchangeable s named other other') :
    takenFrom operand other = takenFrom operand' other' := by
  rw [Expr.takenFrom, Expr.takenFrom, h.isValue, ho.enumColumn?]

theorem render_binary_congr {left left' right right' : Expr}
    (hl : Interchangeable s named left left') (hr : Interchangeable s named right right')
    (op : BinaryOp) (hint : Option EnumColumn) :
    render s named hint (.binary op left right) =
      render s named hint (.binary op left' right') := by
  have hcolumn : comparisonHint op left right = comparisonHint op left' right' := by
    rw [comparisonHint, comparisonHint, hl.enumColumn?, hr.enumColumn?]
  have htaken {operand operand' : Expr} (h : Interchangeable s named operand operand') :
      hintFor (comparisonHint op left right) operand =
        hintFor (comparisonHint op left' right') operand' := by
    rw [hintFor, hintFor, h.isValue, hcolumn]
  rw [render, render]
  cases op.keyword? with
  | none => rfl
  | some keyword =>
    dsimp only
    rw [htaken hl, htaken hr, hl.render, hr.render]

theorem render_projection_congr {members members' : List (String × Expr)}
    (hnames : members.map (·.1) = members'.map (·.1))
    (h : List.Forall₂ (fun m m' => Interchangeable s named m.2 m'.2) members members')
    (hint : Option EnumColumn) :
    render s named hint (.projection members) = render s named hint (.projection members') := by
  rw [render, render, renderMembers_eq_mapM, renderMembers_eq_mapM, hnames,
    mapM_eq_of_forall₂ (h.imp fun _ _ hm => hm.render none)]

/-- What the operands of a call are, and what they are handed, hangs only on what a node sees. -/
theorem callOperands_congr {target target' : Option Expr} {args args' : List Expr}
    (ht : Option.Rel (Interchangeable s named) target target')
    (ha : List.Forall₂ (Interchangeable s named) args args') (method : String) :
    List.Forall₂ (fun o o' : Expr × Option EnumColumn =>
        render s named o.2 o.1 = render s named o'.2 o'.1)
      (callOperands method target args) (callOperands method target' args') := by
  have hall {es es' : List Expr} (h : List.Forall₂ (Interchangeable s named) es es') :
      List.Forall₂ (fun o o' : Expr × Option EnumColumn =>
          render s named o.2 o.1 = render s named o'.2 o'.1)
        (es.map fun e => (e, none)) (es'.map fun e => (e, none)) := by
    rw [List.forall₂_map_left_iff, List.forall₂_map_right_iff]
    exact h.imp fun _ _ he => he.render none
  have hpair {value value' items items' : Expr} (hv : Interchangeable s named value value')
      (hi : Interchangeable s named items items') :
      List.Forall₂ (fun o o' : Expr × Option EnumColumn =>
          render s named o.2 o.1 = render s named o'.2 o'.1)
        [(value, none), (items, takenFrom items value)]
        [(value', none), (items', takenFrom items' value')] := by
    refine .cons (hv.render none) (.cons ?_ .nil)
    rw [hi.takenFrom hv]
    exact hi.render _
  unfold callOperands
  split
  · -- the membership test: which operand is the collection depends on the form of the call
    cases ht with
    | none => rcases ha with _ | ⟨hi, _ | ⟨hv, _ | _⟩⟩ <;> first | exact .nil | exact hpair hv hi
    | some hi => rcases ha with _ | ⟨hv, _ | _⟩ <;> first | exact .nil | exact hpair hv hi
  · split
    · cases ht with
      | none =>
        rcases ha with _ | ⟨he, _⟩
        · exact .nil
        · exact hall (.cons he .nil)
      | some he => exact hall (.cons he .nil)
    · cases ht with
      | none => exact hall ha
      | some he => exact hall (.cons he ha)

theorem render_call_congr {target target' : Option Expr} {args args' : List Expr}
    (ht : Option.Rel (Interchangeable s named) target target')
    (ha : List.Forall₂ (Interchangeable s named) args args') (method : String)
    (hint : Option EnumColumn) :
    render s named hint (.call method target args) =
      render s named hint (.call method target' args') := by
  rw [render_call, render_call, mapM_eq_of_forall₂ (callOperands_congr ht ha method)]

/-! ## Around interchangeable expressions -/

/-- **One node.** -/
theorem Interchangeable.fill (h : Interchangeable s named e e') {f : Frame}
    (hf : f.isOwner = false) : Interchangeable s named (f.fill e) (f.fill e') := by
  have hrefl := @Interchangeable.refl s named
  cases f with
  | owner name => cases hf
  | left op right => exact ⟨render_binary_congr h (hrefl right) op, rfl, rfl⟩
  | right op left => exact ⟨render_binary_congr (hrefl left) h op, rfl, rfl⟩
  | operand op =>
    have hrender (hint : Option EnumColumn) :
        Expr.render s named hint (.unary op e) = Expr.render s named hint (.unary op e') := by
      rw [Expr.render, Expr.render, h.render]
    cases op with
    | negate | not => exact ⟨hrender, rfl, rfl⟩
    | convert => exact ⟨hrender, h.isValue, h.enumColumn?⟩
  | test ifTrue ifFalse =>
    refine ⟨fun hint => ?_, rfl, rfl⟩
    rw [Frame.fill, Frame.fill, Expr.render, Expr.render, h.render]
  | ifTrue test ifFalse =>
    refine ⟨fun hint => ?_, rfl, rfl⟩
    rw [Frame.fill, Frame.fill, Expr.render, Expr.render, h.render]
  | ifFalse test ifTrue =>
    refine ⟨fun hint => ?_, rfl, rfl⟩
    rw [Frame.fill, Frame.fill, Expr.render, Expr.render, h.render]
  | member before name after =>
    refine ⟨render_projection_congr ?_ ?_, rfl, rfl⟩
    · simp
    · have hsame (members : List (String × Expr)) :
          List.Forall₂ (fun m m' => Interchangeable s named m.2 m'.2) members members :=
        List.forall₂_same.2 fun m _ => hrefl m.2
      exact List.rel_append (hsame before) (.cons h (hsame after))
  | target method args =>
    exact ⟨render_call_congr (.some h) (forall₂_refl args) method, rfl, rfl⟩
  | argument method target before after =>
    have htarget : Option.Rel (Interchangeable s named) target target := by
      cases target with
      | none => exact .none
      | some target => exact .some (hrefl target)
    have hargs := List.rel_append (forall₂_refl before) (.cons h (forall₂_refl after))
    exact ⟨render_call_congr htarget hargs method, rfl, rfl⟩

/-- **All nodes around a place.** -/
theorem Interchangeable.within (h : Interchangeable s named e e') {place : List Frame}
    (hplace : ∀ f ∈ place, f.isOwner = false) :
    Interchangeable s named (e.within place) (e'.within place) := by
  induction place with
  | nil => exact h
  | cons f place ih =>
    rw [List.forall_mem_cons] at hplace
    exact (ih hplace.2).fill hplace.1

/-! ## Conversions -/

/-- A conversion shows the node above all that its operand would show. -/
theorem interchangeable_convert (s : Scope) (named : Bool) (e : Expr) :
    Interchangeable s named (.unary .convert e) e := by
  refine ⟨fun hint => ?_, rfl, rfl⟩
  rw [render, if_pos rfl]
  cases render s named hint e <;> rfl

/-- The second expression is the first one without one of its conversions, which stands at a place
that is not inside the owner of a member. -/
inductive Unconverts : Expr → Expr → Prop
  | at (place : List Frame) (e : Expr) (h : ∀ f ∈ place, f.isOwner = false) :
      Unconverts (within (.unary .convert e) place) (e.within place)

/-- **Conversions make no difference.** Take any conversions out of an expression, as many as you
like and wherever they stand, but for the owners of members: it compiles to the same text as before,
or it is refused with the same error. -/
theorem compile_of_unconverts {e e' : Expr} (h : Relation.ReflTransGen Unconverts e e') (s : Scope)
    (named : Bool) : e.compile s named = e'.compile s named := by
  induction h with
  | refl => rfl
  | tail _ hlast ih =>
    obtain ⟨place, e, hplace⟩ := hlast
    rw [ih, compile, compile, ((interchangeable_convert s named e).within hplace).render none]

/-- A column and the value that takes its enumeration, both without their conversions. -/
theorem compile_of_unconverts_compared :
    let status : EnumColumn := ⟨⟨"Status", [("Active", 1), ("Retired", 3)]⟩, .asString⟩
    let staff : MappedType := ⟨"Staff", "Staff", some "dbo",
      [(Column.plain "Status" "Status").enumerated status.type status.mode]⟩
    let scope : Scope := ⟨(Registry.empty "dbo").add staff true, [staff], .asInt⟩
    let column : Expr := .column staff "Status"
    let value : Expr := .constant (.int 3)
    let test (column value : Expr) : Expr := .unary .not (.binary .equal column value)
    let converted := test (.unary .convert column) (.unary .convert value)
    Relation.ReflTransGen Unconverts converted (test column value) ∧
      converted.compile scope false = (test column value).compile scope false ∧
      converted.compile scope false = .ok "NOT (t0.[Status] = 'Retired')" := by
  intro status staff scope column value test converted
  have hcolumn : Unconverts converted (test column (.unary .convert value)) :=
    .at [.operand .not, .left .equal (.unary .convert value)] column (by decide)
  have hvalue : Unconverts (test column (.unary .convert value)) (test column value) :=
    .at [.operand .not, .right .equal column] value (by decide)
  have hsteps : Relation.ReflTransGen Unconverts converted (test column value) :=
    .head hcolumn (.single hvalue)
  exact ⟨hsteps, compile_of_unconverts hsteps scope false, by decide⟩

end SqlWright.Expr
