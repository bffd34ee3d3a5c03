import SqlWright.Proofs.Expr.Contents
import SqlWright.Proofs.Registry.Mentions

/-!
# Compilation under a registry that goes on

An expression is compiled as soon as it is passed to a statement, and the statement goes on to
mention types after that. If the types in the expression are mentioned by then, nothing that comes
later changes its text: a mentioned type keeps its alias whatever else is mentioned and whichever
type is primary, and the parameters of the expression are never asked. An expression that holds a
type without a mention is not treated; its columns may find another alias of their table.
-/

namespace SqlWright

open Outcome

/-! ## Entries keep their names -/

namespace Entry

variable {e f : Entry}

theorem qualifiedColumns_of_names (h : e.names = f.names) :
    e.qualifiedColumns = f.qualifiedColumns := by
  have htype : e.type = f.type := congrArg Prod.fst h
  have halias : e.aliasName = f.aliasName := congrArg (fun names => names.2.1) h
  rw [qualifiedColumns, qualifiedColumns, htype]
  refine List.map_congr_left fun c _ => ?_
  rw [qualified, qualified, halias]

theorem tableWithAlias_of_names (h : e.names = f.names) : e.tableWithAlias = f.tableWithAlias := by
  have halias : e.aliasName = f.aliasName := congrArg (fun names => names.2.1) h
  have hqualified : e.qualifiedName = f.qualifiedName := congrArg (fun names => names.2.2) h
  rw [tableWithAlias, tableWithAlias, halias, hqualified]

end Entry

namespace Registry

variable {r r' : Registry} {t : MappedType}

theorem map_names_get? (r : Registry) (t : MappedType) :
    (r.get? t).map Entry.names = (r.entries.map Entry.names).find? fun names => names.1 == t := by
  rw [List.find?_map]
  rfl

/-- A type that is mentioned keeps the names of its entry. -/
theorem Extends.get?_names (h : r'.Extends r) {e : Entry} (he : r.get? t = some e) :
    ∃ f, r'.get? t = some f ∧ f.names = e.names := by
  have hold : (r.entries.map Entry.names).find? (fun names => names.1 == t) = some e.names := by
    rw [← map_names_get?, he]
    rfl
  have hnew := h.names_prefix.find?_eq_some hold
  rw [← map_names_get?] at hnew
  exact Option.map_eq_some_iff.1 hnew

theorem Extends.aliasOf?_eq (h : r'.Extends r) (ht : (r.get? t).isSome = true) :
    ∃ name, r.aliasOf? t = some name ∧ r'.aliasOf? t = some name := by
  obtain ⟨e, he⟩ := Option.isSome_iff_exists.1 ht
  obtain ⟨f, hf, hnames⟩ := h.get?_names he
  refine ⟨e.aliasName, by rw [aliasOf?, he]; rfl, ?_⟩
  rw [aliasOf?, hf]
  exact congrArg (fun names => some names.2.1) hnames

/-- The entry that a mention gave is found, under its names, however the registry goes on. -/
theorem Extends.entry_names {primary : Bool} (h : r'.Extends (r.add t primary)) (again : Bool) :
    (r'.entry t again).names = (r.entry t primary).names := by
  obtain ⟨f, hf, hnames⟩ := h.get?_names get?_add
  rw [entry, hf]
  exact hnames

/-- The columns of all entries come first among those of the registry that goes on. -/
theorem Extends.qualifiedColumns_prefix (h : r'.Extends r) :
    r.qualifiedColumns <+: r'.qualifiedColumns := by
  have hcolumns (s : Registry) : s.qualifiedColumns =
      (s.entries.map Entry.names).flatMap fun names =>
        names.1.table.columns.map fun c => names.2.1 ++ "." ++ c.quoted := by
    rw [List.flatMap_map]
    rfl
  obtain ⟨more, hmore⟩ := h.names_prefix
  rw [hcolumns, hcolumns, ← hmore, List.flatMap_append]
  exact List.prefix_append _ _

/-- A registry that every call makes go on is one that a chain of calls makes go on. -/
theorem Extends.foldl {State Call : Type} {step : State → Call → State}
    (registry : State → Registry)
    (hstep : ∀ s call, (registry (step s call)).Extends (registry s)) (s : State)
    (calls : List Call) : (registry (calls.foldl step s)).Extends (registry s) := by
  induction calls generalizing s with
  | nil => exact .refl _
  | cons call calls ih => exact (ih (step s call)).trans (hstep s call)

end Registry

/-! ## Columns -/

/-- The alias of a mentioned type does not depend on the parameters and not on later mentions. -/
theorem Scope.column_of_extends {r r' : Registry} (h : r'.Extends r)
    (parameters parameters' : List MappedType) (mode : EnumMode) {t : MappedType}
    (ht : (r.get? t).isSome = true) (member : String) :
    Scope.column ⟨r', parameters', mode⟩ t member =
      Scope.column ⟨r, parameters, mode⟩ t member := by
  obtain ⟨name, hname, hname'⟩ := h.aliasOf?_eq ht
  rw [Scope.column, Scope.column, Scope.aliasOf, Scope.aliasOf, hname, hname']

namespace Expr

/-- Whether all types in an expression are mentioned. -/
def isMentioned (r : Registry) (e : Expr) : Bool :=
  e.allOf (fun _ => true) fun t => (r.get? t).isSome

section Render

variable {r r' : Registry} {parameters parameters' : List MappedType} {mode : EnumMode}

/-- What a node adds to the texts of its operands looks up a type in one place only. -/
theorem assemble_of_extends (h : r'.Extends r) {e : Expr} (he : e.isMentioned r = true)
    (named : Bool) (hint : Option EnumColumn) (texts : List String) :
    assemble ⟨r', parameters', mode⟩ named hint e texts =
      assemble ⟨r, parameters, mode⟩ named hint e texts := by
  cases e with
  | member owner name =>
    cases owner with
    | parameter t => exact Scope.column_of_extends h _ _ mode he name
    | _ => rfl
  | unary op operand => rcases texts with _ | ⟨_, _ | ⟨_, _⟩⟩ <;> rfl
  | conditional test ifTrue ifFalse =>
    rcases texts with _ | ⟨_, _ | ⟨_, _ | ⟨_, _ | ⟨_, _⟩⟩⟩⟩ <;> rfl
  | _ => rfl

theorem render_of_extends (h : r'.Extends r) (named : Bool) (hint : Option EnumColumn) (e : Expr)
    (he : e.isMentioned r = true) :
    render ⟨r', parameters', mode⟩ named hint e = render ⟨r, parameters, mode⟩ named hint e := by
  induction hint, e using operands_induction with
  | node hint e ih =>
    have hoperands :
        ((e.operands hint).mapM fun o => render ⟨r', parameters', mode⟩ named o.2 o.1) =
          (e.operands hint).mapM fun o => render ⟨r, parameters, mode⟩ named o.2 o.1 :=
      mapM_congr fun o ho => ih o ho (allOf_of_mem_operands he ho)
    rw [render_eq_assemble, render_eq_assemble, hoperands]
    exact bind_congr fun texts => assemble_of_extends h he named hint texts

/-- The text or the error of an expression whose types are mentioned stays the same when the
registry goes on, whatever the parameters are then. -/
theorem compile_of_extends (h : r'.Extends r) (parameters parameters' : List MappedType)
    (mode : EnumMode) (named : Bool) {e : Expr} (he : e.isMentioned r = true) :
    e.compile ⟨r', parameters', mode⟩ named = e.compile ⟨r, parameters, mode⟩ named :=
  congrArg (Except.map Text.trim) (render_of_extends h named none e he)

end Render

end Expr

end SqlWright
