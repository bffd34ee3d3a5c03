import SqlWright.Proofs.Stable.Calls
import SqlWright.Proofs.Trace.Calls

/-!
# One clause at a time

A query is a draft and nine clauses. Each call on a query but the one for the queried type is a call
on one of the clauses: it writes no other clause, and what it writes and whether it fails depends on
no other clause. What it adds to the registry are the types that it names, so a call that names
mentioned types only leaves all of the draft as it is but the first error and the events.
-/

namespace SqlWright

open Outcome Draft

/-! ## Drafts -/

namespace Draft

/-- The draft without its first error and without its events. -/
def quiet (d : Draft) : Draft :=
  { d with fault := none, journal := [] }

variable {α : Type} {c d : Draft} {es : List Error}

/-- No work of a call depends on the errors and events so far. -/
theorem registry_of_quiet (h : c.quiet = d.quiet) : c.registry = d.registry := by
  show c.quiet.registry = d.quiet.registry
  rw [h]

theorem settings_of_quiet (h : c.quiet = d.quiet) : c.settings = d.settings := by
  show c.quiet.settings = d.quiet.settings
  rw [h]

theorem quiet_mention (h : c.quiet = d.quiet) (t : MappedType) (primary : Bool) :
    (c.mention t primary).quiet = (d.mention t primary).quiet :=
  congrArg (fun q => { q with registry := q.registry.add t primary }) h

theorem compile_of_quiet (h : c.quiet = d.quiet) (t : MappedType) (named : Bool) (e : Expr) :
    c.compile t named e = d.compile t named e := by
  rw [compile, compile, registry_of_quiet h, settings_of_quiet h]

theorem groupClause_of_quiet (h : c.quiet = d.quiet) (t : MappedType) (g : Grouping)
    (having : Option Expr) : c.groupClause t g having = d.groupClause t g having :=
  groupClause_congr fun e _ => compile_of_quiet h t false e

/-- Calls change the registry, the errors and the events only. -/
theorem Reports.quiet (h : d.Reports es c) :
    c.quiet = { d.quiet with registry := c.registry } := by
  obtain ⟨hkind, hsettings, -⟩ := h.frame
  show Draft.mk c.kind c.settings c.registry none [] = _
  rw [hkind, hsettings]
  rfl

/-- What is taken over does not depend on the draft. -/
theorem accept_value (d : Draft) (result : Outcome α) (old : α) :
    (d.accept result old).2 = result.toOption.getD old := by
  cases result <;> rfl

theorem acceptWith_value (d : Draft) (result : Registry × Outcome α) (old : α) :
    (d.acceptWith result old).2 = result.2.toOption.getD old :=
  accept_value (d.adopt result.1) result.2 old

theorem accept_congr {result result' : Outcome α} (hr : result = result') {old old' : α}
    (ho : old = old') : (c.accept result old).2 = (d.accept result' old').2 := by
  rw [accept_value, accept_value, hr, ho]

theorem acceptWith_congr {result result' : Registry × Outcome α} (hr : result = result')
    {old old' : α} (ho : old = old') :
    (c.acceptWith result old).2 = (d.acceptWith result' old').2 := by
  rw [acceptWith_value, acceptWith_value, hr, ho]

end Draft

/-! ## Clauses -/

namespace Select

/-- The clauses of a query. -/
inductive Clause where
  | columns
  | distinct
  | top
  | hints
  | destination
  | joins
  | conditions
  | group
  | order
deriving DecidableEq, Repr

/-- What a clause is made of. -/
def Clause.Content : Clause → Type
  | .columns | .order => List String
  | .distinct => Bool
  | .top => Option Top
  | .hints => Hints
  | .destination => Option String
  | .joins => Joins
  | .conditions => Conditions
  | .group => Option GroupClause

/-- A clause of a query. -/
def clause (q : Select) : (c : Clause) → c.Content
  | .columns => q.columns
  | .distinct => q.distinct
  | .top => q.top
  | .hints => q.hints
  | .destination => q.destination
  | .joins => q.joins
  | .conditions => q.conditions
  | .group => q.group
  | .order => q.order

/-- Queries with the same clauses are one query on two drafts. -/
theorem eq_on_of_clauses {p q : Select} (h : ∀ c, p.clause c = q.clause c) : p = q.on p.draft := by
  obtain ⟨draft, columns, distinct, top, hints, destination, joins, conditions, group, order⟩ := p
  obtain ⟨⟩ := h .columns
  obtain ⟨⟩ := h .distinct
  obtain ⟨⟩ := h .top
  obtain ⟨⟩ := h .hints
  obtain ⟨⟩ := h .destination
  obtain ⟨⟩ := h .joins
  obtain ⟨⟩ := h .conditions
  obtain ⟨⟩ := h .group
  obtain ⟨⟩ := h .order
  rfl

/-- The clause that a call is on; there is none for the queried type. -/
def Step.clause? : Step → Option Clause
  | .fromType _ => none
  | .selectAll _ | .selectItems _ _ | .selectEvery => some .columns
  | .selectDistinct => some .distinct
  | .limit _ => some .top
  | .addHints _ => some .hints
  | .intoType _ | .intoTable _ => some .destination
  | .join _ _ _ _ | .crossJoin _ _ | .joinRaw _ _ _ => some .joins
  | .addCondition _ _ _ | .addConditionRaw _ _ => some .conditions
  | .groupBy _ _ _ => some .group
  | .orderBy _ _ _ => some .order

/-- The types that a call mentions. -/
def Step.types : Step → List MappedType
  | .fromType t | .selectAll t | .selectItems t _ | .addCondition t _ _ | .groupBy t _ _
  | .orderBy t _ _ => [t]
  | .join left right _ _ | .crossJoin left right => [left, right]
  | .selectEvery | .selectDistinct | .limit _ | .addHints _ | .intoType _ | .intoTable _
  | .joinRaw _ _ _ | .addConditionRaw _ _ => []

/-! ## What a call leaves alone -/

theorem addColumns_clause (q : Select) (texts : List String) {c : Clause} (hc : c ≠ .columns) :
    (q.addColumns texts).clause c = q.clause c := by
  rw [addColumns_frame]
  cases c <;> first | rfl | exact absurd rfl hc

theorem selectItem_clause (q : Select) (t : MappedType) (e : Expr) {c : Clause}
    (hc : c ≠ .columns) : (q.selectItem t e).clause c = q.clause c := by
  rw [selectItem]
  cases q.draft.compile t true e with
  | error fault => cases c <;> rfl
  | ok text =>
    show (if text = "" then q else q.addColumns [text]).clause c = _
    split
    · rfl
    · exact addColumns_clause q [text] hc

theorem mention_clause (q : Select) (t : MappedType) (c : Clause) :
    (q.mention t).clause c = q.clause c := by
  cases c <;> rfl

theorem selectItems_clause (q : Select) (t : MappedType) (items : List Expr) {c : Clause}
    (hc : c ≠ .columns) : (q.selectItems t items).clause c = q.clause c := by
  rw [← mention_clause q t c, selectItems]
  generalize q.mention t = p
  induction items generalizing p with
  | nil => rfl
  | cons e items ih => exact (ih (p.selectItem t e)).trans (selectItem_clause p t e hc)

/-- **A call writes no clause but its own.** -/
theorem step_clause (q : Select) (call : Step) {c : Clause} (hc : call.clause? ≠ some c) :
    (q.step call).clause c = q.clause c := by
  cases call with
  | selectAll t =>
    have hcolumns : c ≠ .columns := fun h => hc (congrArg some h.symm)
    exact (addColumns_clause (q.mention t) _ hcolumns).trans (mention_clause q t c)
  | selectItems t items => exact q.selectItems_clause t items fun h => hc (congrArg some h.symm)
  | selectEvery => exact q.addColumns_clause _ fun h => hc (congrArg some h.symm)
  | groupBy t g having =>
    rw [step, groupBy]
    split <;> cases c <;> first | rfl | exact absurd rfl hc
  | _ => cases c <;> first | rfl | exact absurd rfl hc

/-! ## What a call depends on -/

theorem addColumns_columns {p q : Select} (h : p.columns = q.columns) (texts : List String) :
    (p.addColumns texts).columns = (q.addColumns texts).columns := by
  induction texts generalizing p q with
  | nil => exact h
  | cons text texts ih =>
    refine ih (p := p.addColumn text) (q := q.addColumn text) ?_
    rw [addColumn, addColumn, h]
    split
    · exact h
    · rfl

/-- Selecting an expression changes no more of the draft than its errors and events. -/
theorem selectItem_quiet (q : Select) (t : MappedType) (e : Expr) :
    (q.selectItem t e).draft.quiet = q.draft.quiet := by
  rw [(selectItem_reports q t e).quiet, (selectItem_frame q t e).1]
  rfl

theorem selectItem_columns {p q : Select} (hd : p.draft.quiet = q.draft.quiet)
    (hc : p.columns = q.columns) (t : MappedType) (e : Expr) :
    (p.selectItem t e).columns = (q.selectItem t e).columns := by
  rw [selectItem, selectItem, compile_of_quiet hd]
  cases q.draft.compile t true e with
  | error fault => exact hc
  | ok text =>
    show (if text = "" then p else p.addColumns [text]).columns =
      (if text = "" then q else q.addColumns [text]).columns
    split
    · exact hc
    · exact addColumns_columns hc [text]

/-- Of several expressions the first one that does not compile fails, whatever is selected before. -/
theorem foldl_selectItem_failure {q : Select} {d : Draft} (hd : q.draft.quiet = d.quiet)
    (t : MappedType) (items : List Expr) :
    firstFailure? (fun q e => q.selectItem t e) (fun q e => error? (q.draft.compile t true e)) q
      items = items.findSome? fun e => error? (d.compile t true e) := by
  induction items generalizing q with
  | nil => rfl
  | cons e items ih =>
    rw [firstFailure?_cons, ih (by rw [selectItem_quiet, hd]), compile_of_quiet hd,
      List.findSome?_cons]
    cases error? (d.compile t true e) <;> rfl

/-- What several expressions add to the columns, and which of them is the first that fails. -/
theorem foldl_selectItem_local {p q : Select} (hd : p.draft.quiet = q.draft.quiet)
    (hc : p.columns = q.columns) (t : MappedType) (items : List Expr) :
    let select := fun (q : Select) e => q.selectItem t e
    let itemFailure? := fun (q : Select) e => error? (q.draft.compile t true e)
    (items.foldl select p).columns = (items.foldl select q).columns ∧
      firstFailure? select itemFailure? p items = firstFailure? select itemFailure? q items := by
  constructor
  · induction items generalizing p q with
    | nil => exact hc
    | cons e items ih =>
      have hquiet : (p.selectItem t e).draft.quiet = (q.selectItem t e).draft.quiet := by
        rw [selectItem_quiet, selectItem_quiet, hd]
      exact ih hquiet (selectItem_columns hd hc t e)
  · exact (foldl_selectItem_failure hd t items).trans (foldl_selectItem_failure rfl t items).symm

theorem groupBy_local {p q : Select} (hd : p.draft.quiet = q.draft.quiet)
    (hgroup : p.group = q.group) (t : MappedType) (g : Grouping) (having : Option Expr) :
    (p.groupBy t g having).group = (q.groupBy t g having).group ∧
      p.failure? (.groupBy t g having) = q.failure? (.groupBy t g having) := by
  have htext : (p.mention t).draft.groupClause t g having =
      (q.mention t).draft.groupClause t g having :=
    groupClause_of_quiet (quiet_mention hd t false) t g having
  constructor
  · rw [groupBy, groupBy, hgroup]
    split
    · exact hgroup
    · show ((p.mention t).draft.accept _ p.group).2 = ((q.mention t).draft.accept _ q.group).2
      rw [accept_value, accept_value, htext, hgroup]
  · rw [failure?, failure?, hgroup, htext]

theorem orderBy_local {p q : Select} (hd : p.draft.quiet = q.draft.quiet)
    (horder : p.order = q.order) (t : MappedType) (key : Expr) (direction : Direction) :
    (p.orderBy t key direction).order = (q.orderBy t key direction).order ∧
      p.failure? (.orderBy t key direction) = q.failure? (.orderBy t key direction) := by
  have htext : (p.mention t).draft.compile t false key = (q.mention t).draft.compile t false key :=
    compile_of_quiet (quiet_mention hd t false) t false key
  constructor
  · rw [orderBy, orderBy]
    dsimp only
    rw [accept_value, accept_value, htext]
    show Option.getD (Except.toOption (Except.map (fun key => p.order ++ [key]) _)) p.order = _
    rw [horder]
    rfl
  · rw [failure?, failure?, htext]

/-- **A call depends on no clause but its own.** -/
theorem step_local {p q : Select} (hd : p.draft.quiet = q.draft.quiet) {call : Step} {c : Clause}
    (hcall : call.clause? = some c) (hc : p.clause c = q.clause c) :
    (p.step call).clause c = (q.step call).clause c ∧ p.failure? call = q.failure? call := by
  have hr := registry_of_quiet hd
  have hs := settings_of_quiet hd
  cases call with
  | fromType t => cases hcall
  | selectAll t =>
    cases hcall
    refine ⟨?_, rfl⟩
    show ((p.mention t).addColumns _).columns = ((q.mention t).addColumns _).columns
    rw [hr]
    exact addColumns_columns (p := p.mention t) (q := q.mention t) hc _
  | selectItems t items =>
    cases hcall
    exact foldl_selectItem_local (p := p.mention t) (q := q.mention t) (quiet_mention hd t false)
      hc t items
  | selectEvery =>
    cases hcall
    refine ⟨?_, rfl⟩
    show (p.addColumns _).columns = (q.addColumns _).columns
    rw [hr]
    exact addColumns_columns hc _
  | addHints hints =>
    cases hcall
    exact ⟨congrArg (Hints.insertAll · hints) hc, rfl⟩
  | intoType t =>
    cases hcall
    refine ⟨?_, rfl⟩
    show some _ = some _
    rw [hs]
  | intoTable name =>
    cases hcall
    exact ⟨accept_congr rfl hc, rfl⟩
  | join left right condition kind =>
    cases hcall
    have hjoins : p.joins.add p.draft.settings p.draft.registry left right condition kind =
        q.joins.add q.draft.settings q.draft.registry left right condition kind := by
      rw [hr, hs, show p.joins = q.joins from hc]
    refine ⟨acceptWith_congr hjoins hc, ?_⟩
    rw [failure?, failure?, hjoins]
  | crossJoin left right =>
    cases hcall
    have hjoins : p.joins.addCross p.draft.settings p.draft.registry left right =
        q.joins.addCross q.draft.settings q.draft.registry left right := by
      rw [hr, hs, show p.joins = q.joins from hc]
    refine ⟨acceptWith_congr hjoins hc, ?_⟩
    rw [failure?, failure?, hjoins]
  | joinRaw table condition kind =>
    cases hcall
    have hjoins : p.joins.addRaw p.draft.settings table condition kind =
        q.joins.addRaw q.draft.settings table condition kind := by
      rw [hs, show p.joins = q.joins from hc]
    exact ⟨accept_congr hjoins hc, rfl⟩
  | addCondition t condition op =>
    cases hcall
    have hconditions : p.conditions.add p.draft.settings p.draft.registry t condition op =
        q.conditions.add q.draft.settings q.draft.registry t condition op := by
      rw [hr, hs, show p.conditions = q.conditions from hc]
    refine ⟨acceptWith_congr hconditions hc, ?_⟩
    rw [failure?, failure?, hconditions]
  | addConditionRaw condition op =>
    cases hcall
    exact ⟨congrArg (Conditions.addRaw · condition op) hc, rfl⟩
  | groupBy t g having =>
    cases hcall
    exact groupBy_local hd hc t g having
  | orderBy t key direction =>
    cases hcall
    exact orderBy_local hd hc t key direction
  | selectDistinct | limit _ =>
    cases hcall
    exact ⟨rfl, rfl⟩

end Select

end SqlWright
