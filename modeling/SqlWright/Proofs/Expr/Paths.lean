import SqlWright.Proofs.Expr.Pass
import SqlWright.Proofs.Value.Trimmed

/-!
# Paths in captured records

A chain of members on a captured record is a path from that record, one look-up for each member. The
expression is built from the inside out and is evaluated from the outside in; the path is followed
from its first member on. Both come to the same value and fail at the same member, whatever the
depth and whichever record lacks a member or turns out to be none.
-/

namespace SqlWright

/-- What a path of member names leads to from a field. Each name is looked up in the record that the
path has come to so far; a value has no members. -/
inductive Field.Leads : Field → List String → Field → Prop
  | here (f : Field) : Leads f [] f
  | member {object : Record Field} {name : String} {names : List String} {f g : Field} :
      object.get? name = some f → Leads f names g → Leads (.record object) (name :: names) g

namespace Expr

open Outcome

/-- The chain of members along a path from a captured record. -/
def path (object : Record Field) (names : List String) : Expr :=
  names.foldl member (.captured object)

/-- The value that a field is, where the field is what a member `name` denotes. -/
def valueOf (name : String) : Field → Outcome Value
  | .value v => .ok v
  | .record _ => .error (.unsupported (.capturedMember name))

variable {object : Record Field} {names : List String} {f g : Field} {name : String} {e : Error}

@[simp] theorem path_concat (object : Record Field) (names : List String) (name : String) :
    path object (names ++ [name]) = .member (path object names) name :=
  List.foldl_concat ..

theorem isCaptured_path (object : Record Field) (names : List String) :
    (path object names).isCaptured = true := by
  induction names using List.reverseRecOn with
  | nil => rfl
  | append_singleton names name ih =>
    rw [path_concat]
    exact ih

theorem isValue_path (object : Record Field) (front : List String) (last : String) :
    (path object (front ++ [last])).isValue = true := by
  rw [path_concat]
  exact isCaptured_path object front

/-! ## One look-up -/

theorem fieldOf_eq_ok :
    fieldOf f name = .ok g ↔ ∃ object, f = .record object ∧ object.get? name = some g := by
  cases f with
  | value v => simp [fieldOf]
  | record object => cases h : object.get? name <;> simp [fieldOf, h]

theorem fieldOf_eq_error : fieldOf f name = .error e ↔
    (∃ owner, f = .record owner ∧ owner.get? name = none ∧ e = .unknownMember owner.label name) ∨
    (∃ v, f = .value v ∧ e = .unsupported (.memberOfScalar name)) := by
  cases f with
  | value v => simp [fieldOf, eq_comm]
  | record object => cases h : object.get? name <;> simp [fieldOf, h, eq_comm]

/-- The last look-up of a chain is one like all others, after which a value is asked for. -/
theorem lastValue_eq (f : Field) (name : String) :
    lastValue f name = fieldOf f name >>= valueOf name := by
  cases f with
  | value v => rfl
  | record object =>
    rw [lastValue, fieldOf]
    cases object.get? name with
    | none => rfl
    | some g => cases g <;> rfl

theorem valueOf_eq_ok {v : Value} : valueOf name f = .ok v ↔ f = .value v := by
  cases f <;> simp [valueOf]

theorem valueOf_eq_error : valueOf name f = .error e ↔
    ∃ owner, f = .record owner ∧ e = .unsupported (.capturedMember name) := by
  cases f <;> simp [valueOf, eq_comm]

/-! ## From the outside in, and along the path -/

/-- A chain is evaluated by its outermost member, and yet look-up by look-up from the record. -/
theorem evaluate_path (object : Record Field) (names : List String) :
    evaluate (path object names) = names.foldlM fieldOf (.record object) := by
  induction names using List.reverseRecOn with
  | nil => rfl
  | append_singleton names name ih =>
    rw [path_concat, evaluate, ih, List.foldlM_append]
    refine bind_congr fun f => ?_
    rw [List.foldlM_cons]
    exact (bind_pure _).symm

theorem foldlM_fieldOf_eq_ok : names.foldlM fieldOf f = .ok g ↔ f.Leads names g := by
  induction names generalizing f with
  | nil =>
    constructor
    · rintro ⟨⟩
      exact .here _
    · rintro ⟨⟩
      rfl
  | cons name names ih =>
    rw [List.foldlM_cons, bind_eq_ok]
    constructor
    · rintro ⟨next, hnext, hrest⟩
      obtain ⟨object, rfl, hget⟩ := fieldOf_eq_ok.1 hnext
      exact .member hget (ih.1 hrest)
    · rintro (_ | ⟨hget, hrest⟩)
      exact ⟨_, fieldOf_eq_ok.2 ⟨_, rfl, hget⟩, ih.2 hrest⟩

/-- A path fails where the field that it has come to lacks the next member. -/
theorem foldlM_fieldOf_eq_error : names.foldlM fieldOf f = .error e ↔
    ∃ before name after g, names = before ++ name :: after ∧ f.Leads before g ∧
      fieldOf g name = .error e := by
  induction names generalizing f with
  | nil =>
    constructor
    · rintro ⟨⟩
    · rintro ⟨before, name, after, g, hnames, -⟩
      exact absurd hnames (List.append_ne_nil_of_right_ne_nil _ (List.cons_ne_nil _ _)).symm
  | cons name names ih =>
    rw [List.foldlM_cons, bind_eq_error]
    constructor
    · rintro (hfirst | ⟨next, hnext, hrest⟩)
      · exact ⟨[], name, names, f, rfl, .here f, hfirst⟩
      · obtain ⟨object, rfl, hget⟩ := fieldOf_eq_ok.1 hnext
        obtain ⟨before, other, after, g, rfl, hleads, herror⟩ := ih.1 hrest
        exact ⟨name :: before, other, after, g, rfl, .member hget hleads, herror⟩
    · rintro ⟨before, other, after, g, hnames, hleads, herror⟩
      cases hleads with
      | here =>
        cases hnames
        exact .inl herror
      | member hget hrest =>
        cases hnames
        exact .inr ⟨_, fieldOf_eq_ok.2 ⟨_, rfl, hget⟩, ih.2 ⟨_, _, _, _, rfl, hrest, herror⟩⟩

/-! ## Compilation -/

/-- A member of a captured chain is no column. -/
theorem render_member (s : Scope) (named : Bool) (hint : Option EnumColumn) {owner : Expr}
    (h : owner.isCaptured = true) (name : String) :
    render s named hint (.member owner name) = memberValue s.enumMode hint owner name := by
  cases owner with
  | parameter t => cases h
  | _ => rfl

/-- Where the last look-up of a chain is made on its own, it finds what evaluation of the chain
finds. -/
theorem lastValue_path (object : Record Field) (front : List String) (last : String) :
    (evaluate (path object front) >>= fun f => lastValue f last) =
      evaluate (path object (front ++ [last])) >>= valueOf last := by
  rw [path_concat, evaluate, bind_assoc]
  exact bind_congr fun f => lastValue_eq f last

theorem render_path (s : Scope) (named : Bool) (hint : Option EnumColumn) (object : Record Field)
    (front : List String) (last : String) :
    render s named hint (path object (front ++ [last])) =
      ((front ++ [last]).foldlM fieldOf (.record object) >>= valueOf last) >>= fun v =>
        .ok (v.literalFor hint s.enumMode) := by
  have hcaptured := isCaptured_path object front
  rw [← evaluate_path, ← lastValue_path, path_concat, render_member s named hint hcaptured,
    memberValue_eq_lastValue _ _ _ _ hcaptured]

section Results

variable {s : Scope} {named : Bool} {hint : Option EnumColumn} {front : List String}
  {last text : String}

theorem render_path_eq_ok : render s named hint (path object (front ++ [last])) = .ok text ↔
    ∃ v, (Field.record object).Leads (front ++ [last]) (.value v) ∧
      text = v.literalFor hint s.enumMode := by
  rw [render_path, bind_eq_ok]
  refine exists_congr fun v => and_congr ?_ ?_
  · rw [bind_eq_ok]
    simp only [foldlM_fieldOf_eq_ok, valueOf_eq_ok, exists_eq_right]
  · rw [Except.ok.injEq, eq_comm]

theorem render_path_eq_error : render s named hint (path object (front ++ [last])) = .error e ↔
    (∃ before name after owner, front ++ [last] = before ++ name :: after ∧
      (Field.record object).Leads before (.record owner) ∧ owner.get? name = none ∧
      e = .unknownMember owner.label name) ∨
    (∃ before name after v, front ++ [last] = before ++ name :: after ∧
      (Field.record object).Leads before (.value v) ∧
      e = .unsupported (.memberOfScalar name)) ∨
    ∃ owner, (Field.record object).Leads (front ++ [last]) (.record owner) ∧
      e = .unsupported (.capturedMember last) := by
  have hliteral (v : Value) : (.ok (v.literalFor hint s.enumMode) : Outcome String) ≠ .error e :=
    fun h => nomatch h
  simp only [render_path, bind_eq_error, hliteral, and_false, exists_false, or_false,
    foldlM_fieldOf_eq_error, foldlM_fieldOf_eq_ok, valueOf_eq_error, fieldOf_eq_error]
  rw [← or_assoc]
  refine or_congr ?_ ?_
  · constructor
    · rintro ⟨before, name, after, _, hnames, hleads, ⟨owner, rfl, hget, he⟩ | ⟨v, rfl, he⟩⟩
      · exact .inl ⟨before, name, after, owner, hnames, hleads, hget, he⟩
      · exact .inr ⟨before, name, after, v, hnames, hleads, he⟩
    · rintro (⟨before, name, after, owner, hnames, hleads, hget, he⟩ |
        ⟨before, name, after, v, hnames, hleads, he⟩)
      · exact ⟨before, name, after, _, hnames, hleads, .inl ⟨owner, rfl, hget, he⟩⟩
      · exact ⟨before, name, after, _, hnames, hleads, .inr ⟨v, rfl, he⟩⟩
  · constructor
    · rintro ⟨_, hleads, owner, rfl, he⟩
      exact ⟨owner, hleads, he⟩
    · rintro ⟨owner, hleads, he⟩
      exact ⟨_, hleads, owner, rfl, he⟩

end Results

/-- Cutting off blanks takes nothing away from a chain. -/
theorem compile_eq_render_path (s : Scope) (named : Bool) (object : Record Field)
    (front : List String) (last : String) :
    (path object (front ++ [last])).compile s named =
      render s named none (path object (front ++ [last])) := by
  rw [compile]
  cases h : render s named none (path object (front ++ [last])) with
  | error e => rfl
  | ok text =>
    obtain ⟨v, -, rfl⟩ := render_path_eq_ok.1 h
    exact congrArg Except.ok (v.trim_literalFor none s.enumMode)

/-- **A captured chain is a path look-up.** A chain of one or more members on a captured record is a
value, so it takes any enumeration that is in force where it stands. It is compiled to the literal,
under that enumeration or else in the mode of the scope, of the value that the path leads to, one
look-up after the other. It fails at the first member that is missing from the record it is looked
up in, or at the first member that is asked of a value, or at its last member if that is a record,
and in no other case. Compiled alone it has this text or error, as it has in the pass, which makes
the last look-up in a place of its own: there it finds what evaluation of the whole chain finds. -/
theorem compile_path (s : Scope) (named : Bool) (object : Record Field) (front : List String)
    (last : String) :
    let names := front ++ [last]
    let chain := path object names
    let start := Field.record object
    (∀ hint, hintFor hint chain = hint) ∧
    (∀ hint text, render s named hint chain = .ok text ↔
      ∃ v, start.Leads names (.value v) ∧ text = v.literalFor hint s.enumMode) ∧
    (∀ hint e, render s named hint chain = .error e ↔
      (∃ before name after owner, names = before ++ name :: after ∧
        start.Leads before (.record owner) ∧ owner.get? name = none ∧
        e = .unknownMember owner.label name) ∨
      (∃ before name after v, names = before ++ name :: after ∧ start.Leads before (.value v) ∧
        e = .unsupported (.memberOfScalar name)) ∨
      ∃ owner, start.Leads names (.record owner) ∧ e = .unsupported (.capturedMember last)) ∧
    chain.compile s named = render s named none chain ∧
    (∀ hint stack, visit s named chain ⟨stack, hint⟩ =
      (render s named hint chain).map fun text => ⟨text :: stack, none⟩) ∧
    (evaluate (path object front) >>= fun f => lastValue f last) =
      evaluate chain >>= valueOf last := by
  intro names chain start
  have hvalue : chain.isValue = true := isValue_path object front last
  exact ⟨fun hint => if_pos hvalue, fun hint text => render_path_eq_ok,
    fun hint e => render_path_eq_error, compile_eq_render_path s named object front last,
    fun hint => leaves_of_isValue s named hint chain fun _ => hvalue,
    lastValue_path object front last⟩

/-- A path that leads to a value, one that leads to a record and one that goes astray. -/
example :
    let state : Record Field := ⟨"State", [("code", .value (.string "it's"))]⟩
    let filter : Record Field := ⟨"Filter", [("state", .record state)]⟩
    let s : Scope := ⟨.empty "dbo", [], .asInt⟩
    (path filter ["state", "code"]).compile s false = .ok "'it''s'" ∧
      (path filter ["state"]).compile s false = .error (.unsupported (.capturedMember "state")) ∧
      (path filter ["state", "name", "code"]).compile s false =
        .error (.unknownMember "State" "name") := by
  decide +kernel

end Expr

end SqlWright
