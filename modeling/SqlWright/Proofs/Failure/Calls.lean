import SqlWright.Proofs.Outcome
import SqlWright.Statement.Delete
import SqlWright.Statement.Insert
import SqlWright.Statement.Merge
import SqlWright.Statement.Update

/-!
# Calls that fail

Which calls on a statement fail, and with what error: a name that is no identifier, an expression
that does not compile, a record without the value of a column, sources that do not mix. This is
said for every kind of call by the work that the call does, without looking at what the statement
records. Then each call is shown to record its own error if it is the first and no other.
-/

namespace SqlWright

/-- The error of an outcome, if it is a failure. -/
def Outcome.error? {α : Type} : Outcome α → Option Error
  | .ok _ => none
  | .error e => some e

open Outcome

@[simp] theorem Outcome.error?_map {α β : Type} (f : α → β) (x : Outcome α) :
    error? (x.map f) = error? x := by
  cases x <;> rfl

/-- An outcome without an error is a result. -/
theorem Outcome.eq_ok_of_error?_eq_none {α : Type} {result : Outcome α}
    (h : result.error? = none) : ∃ a, result = .ok a := by
  cases result with
  | error e => cases h
  | ok a => exact ⟨a, rfl⟩

theorem Outcome.error?_eq_some {α : Type} {x : Outcome α} {e : Error} :
    error? x = some e ↔ x = .error e := by
  cases x <;> simp [error?]

/-- A list of steps fails with the error of the first one that fails. -/
theorem Outcome.error?_mapM {α β : Type} (f : α → Outcome β) (xs : List α) :
    error? (xs.mapM f) = xs.findSome? fun x => error? (f x) := by
  induction xs with
  | nil => rfl
  | cons x xs ih =>
    rw [List.mapM_cons, List.findSome?_cons]
    cases f x with
    | error e => rfl
    | ok y =>
      show error? (xs.mapM f >>= fun ys => .ok (y :: ys)) = xs.findSome? fun x => error? (f x)
      rw [← map_eq_bind, error?_map, ih]

/-! ## Drafts -/

namespace Draft

variable {α : Type}

@[simp] theorem mention_fault (d : Draft) (t : MappedType) (primary : Bool) :
    (d.mention t primary).fault = d.fault := rfl

@[simp] theorem accept_fault (d : Draft) (result : Outcome α) (old : α) :
    (d.accept result old).1.fault = d.fault.or (error? result) := by
  cases result with
  | ok a => exact Option.or_none.symm
  | error e => rfl

@[simp] theorem acceptWith_fault (d : Draft) (result : Registry × Outcome α) (old : α) :
    (d.acceptWith result old).1.fault = d.fault.or (error? result.2) :=
  accept_fault (d.adopt result.1) result.2 old

theorem finish_of_fault {d : Draft} {e : Error} (h : d.fault = some e) (text : Outcome String) :
    d.finish text = .error e := by
  rw [finish, h]

end Draft

/-! ## Chains of calls -/

section Chains

variable {State Call : Type} {step : State → Call → State} {failure? : State → Call → Option Error}

/-- Of each call in a chain the error it fails with, if it fails, at the state that the calls before
it lead to. -/
def failures (step : State → Call → State) (failure? : State → Call → Option Error) :
    State → List Call → List (Option Error)
  | _, [] => []
  | s, call :: calls => failure? s call :: failures step failure? (step s call) calls

/-- The error of the first call in a chain that fails. -/
def firstFailure? (step : State → Call → State) (failure? : State → Call → Option Error)
    (s : State) (calls : List Call) : Option Error :=
  (failures step failure? s calls).findSome? id

theorem findSome?_id_cons (failure : Option Error) (others : List (Option Error)) :
    (failure :: others).findSome? id = failure.or (others.findSome? id) := by
  rw [List.findSome?_cons]
  cases failure <;> rfl

theorem firstFailure?_cons (s : State) (call : Call) (calls : List Call) :
    firstFailure? step failure? s (call :: calls) =
      (failure? s call).or (firstFailure? step failure? (step s call) calls) :=
  findSome?_id_cons _ _

/-- If each call records its error in case it is the first, a chain of calls does so too. -/
theorem fault_foldl (fault : State → Option Error)
    (hstep : ∀ s call, fault (step s call) = (fault s).or (failure? s call)) (s : State)
    (calls : List Call) :
    fault (calls.foldl step s) = (fault s).or (firstFailure? step failure? s calls) := by
  induction calls generalizing s with
  | nil => exact Option.or_none.symm
  | cons call calls ih =>
    rw [List.foldl_cons, ih, hstep, firstFailure?_cons, Option.or_assoc]

end Chains

/-! ## SELECT -/

namespace Select

/-- The error that a call on a query fails with. Of several items it is that of the first one that
does not compile. -/
def failure? (q : Select) : Step → Option Error
  | .selectItems t items =>
    firstFailure? (fun q e => q.selectItem t e) (fun q e => error? (q.draft.compile t true e))
      (q.mention t) items
  | .intoTable name => error? name.text
  | .join left right condition kind =>
    error? (q.joins.add q.draft.settings q.draft.registry left right condition kind).2
  | .crossJoin left right =>
    error? (q.joins.addCross q.draft.settings q.draft.registry left right).2
  | .joinRaw table _ _ => error? table.text
  | .addCondition t condition op =>
    error? (q.conditions.add q.draft.settings q.draft.registry t condition op).2
  | .groupBy t g having =>
    if q.group.isSome then some (.misuse .repeatedGrouping)
    else error? ((q.mention t).draft.groupClause t g having)
  | .orderBy t key _ =>
    match (q.mention t).draft.compile t false key with
    | .ok text => if text = "" then some (.misuse .emptySortKey) else none
    | .error e => some e
  | .fromType _ | .selectAll _ | .selectEvery | .selectDistinct | .limit _ | .addHints _
  | .intoType _ | .addConditionRaw _ _ => none

theorem addColumn_frame (q : Select) (text : String) :
    q.addColumn text = { q with columns := (q.addColumn text).columns } := by
  rw [addColumn]
  split <;> rfl

theorem addColumns_frame (q : Select) (texts : List String) :
    q.addColumns texts = { q with columns := (q.addColumns texts).columns } := by
  induction texts generalizing q with
  | nil => rfl
  | cons text texts ih =>
    refine (ih (q.addColumn text)).trans ?_
    exact congrArg (fun p => { p with columns := (q.addColumns (text :: texts)).columns })
      (q.addColumn_frame text)

theorem addColumns_draft (q : Select) (texts : List String) :
    (q.addColumns texts).draft = q.draft := by
  rw [addColumns_frame]

theorem selectItem_fault (t : MappedType) (q : Select) (e : Expr) :
    (q.selectItem t e).draft.fault = q.draft.fault.or (error? (q.draft.compile t true e)) := by
  rw [selectItem]
  cases q.draft.compile t true e with
  | error fault => rfl
  | ok text =>
    have hcolumn : (if text = "" then q else q.addColumn text).draft = q.draft := by
      split
      · rfl
      · exact addColumns_draft q [text]
    exact (congrArg Draft.fault hcolumn).trans Option.or_none.symm

theorem groupBy_fault (q : Select) (t : MappedType) (g : Grouping) (having : Option Expr) :
    (q.groupBy t g having).draft.fault = q.draft.fault.or (q.failure? (.groupBy t g having)) := by
  rw [groupBy, failure?]
  split
  · rfl
  · simp [mention]

theorem orderBy_fault (q : Select) (t : MappedType) (key : Expr) (direction : Direction) :
    (q.orderBy t key direction).draft.fault =
      q.draft.fault.or (q.failure? (.orderBy t key direction)) := by
  rw [orderBy, failure?]
  dsimp only
  rw [Draft.accept_fault, error?_map]
  cases (q.mention t).draft.compile t false key with
  | error e => rfl
  | ok text =>
    rw [ok_bind]
    dsimp only
    split <;> rfl

theorem step_fault (q : Select) (call : Step) :
    (q.step call).draft.fault = q.draft.fault.or (q.failure? call) := by
  cases call with
  | selectAll t =>
    refine (congrArg Draft.fault (addColumns_draft _ _)).trans ?_
    exact Option.or_none.symm
  | selectItems t items =>
    exact fault_foldl (·.draft.fault) (selectItem_fault t) (q.mention t) items
  | selectEvery =>
    refine (congrArg Draft.fault (addColumns_draft _ _)).trans ?_
    exact Option.or_none.symm
  | intoTable name => simp [step, intoTable, failure?]
  | join left right condition kind => simp [step, join, failure?]
  | crossJoin left right => simp [step, crossJoin, failure?]
  | joinRaw table condition kind => simp [step, joinRaw, Joins.addRaw, failure?]
  | addCondition t condition op => simp [step, addCondition, failure?]
  | groupBy t g having => exact q.groupBy_fault t g having
  | orderBy t key direction => exact q.orderBy_fault t key direction
  | fromType _ | selectDistinct | limit _ | addHints _ | intoType _ | addConditionRaw _ _ =>
    exact Option.or_none.symm

theorem run_fault (q : Select) (calls : List Step) :
    (q.run calls).draft.fault = q.draft.fault.or (firstFailure? step failure? q calls) :=
  fault_foldl (·.draft.fault) step_fault q calls

theorem subquery_of_fault {q : Select} {e : Error} (h : q.draft.fault = some e) :
    q.subquery = .error e :=
  Draft.finish_of_fault h _

theorem build_of_fault {q : Select} {e : Error} (h : q.draft.fault = some e) :
    q.build = .error e := by
  rw [build, subquery_of_fault h]
  rfl

end Select

/-! ## INSERT -/

namespace Insert

/-- The error of adding a row beside a query or defaults. -/
def rowClash? (s : Insert) : Option Error :=
  match s.source with
  | none | some (.rows _) => none
  | some (.query _) | some .defaults => some (.misuse .valuesBesideOthers)

/-- The error of adding a query beside another source. -/
def queryClash? (s : Insert) : Option Error :=
  match s.source with
  | none => none
  | some _ => some (.misuse .queryBesideValues)

/-- The error of adding a row: it is not to be had, or it does not go with the source. -/
def rowFailure? (s : Insert) (row : Outcome (List (String × String))) : Option Error :=
  (error? row).or s.rowClash?

/-- The error of adding the row of an item. -/
def itemFailure? (t : MappedType) (s : Insert) (item : Record Field) : Option Error :=
  s.rowFailure?
    ((t.row s.draft.settings.enumMode (fun c => c.inclusion.insert) item).map Row.pairs)

/-- The error that a call on an INSERT statement fails with. Of several items it is that of the first
one that fails. -/
def failure? (s : Insert) : Step → Option Error
  | .intoTable name => error? name.text
  | .addItem t item => itemFailure? t s item
  | .addItems t items => firstFailure? (fun s item => s.addItem t item) (itemFailure? t) s items
  | .addValues values =>
    s.rowFailure? ((values.mapM fun (name, v) => s.draft.columnValue name v).map Row.pairs)
  | .setDefaults =>
    match s.source with
    | none | some .defaults => none
    | some (.rows _) | some (.query _) => some (.misuse .defaultsBesideValues)
  | .fromQuery q => (error? q.subquery).or s.queryClash?
  | .setQuery _ => s.queryClash?
  | .intoType _ | .setColumns _ | .addHints _ => none

theorem addRowOutcome_fault (s : Insert) (row : Outcome (List (String × String))) :
    (s.addRowOutcome row).draft.fault = s.draft.fault.or (s.rowFailure? row) := by
  rw [rowFailure?, rowClash?]
  cases row with
  | error e => rfl
  | ok row =>
    show (s.addRow row).draft.fault = _
    rw [addRow]
    rcases s.source with _ | _ | _ | _
    · exact Option.or_none.symm
    · exact Option.or_none.symm
    · rfl
    · rfl

theorem addItem_fault (t : MappedType) (s : Insert) (item : Record Field) :
    (s.addItem t item).draft.fault = s.draft.fault.or (itemFailure? t s item) :=
  s.addRowOutcome_fault _

theorem setDefaults_fault (s : Insert) :
    s.setDefaults.draft.fault = s.draft.fault.or (s.failure? .setDefaults) := by
  rw [setDefaults, failure?]
  rcases s.source with _ | _ | _ | _
  · exact Option.or_none.symm
  · rfl
  · rfl
  · exact Option.or_none.symm

theorem setQuery_fault (s : Insert) (sql : String) :
    (s.setQuery sql).draft.fault = s.draft.fault.or s.queryClash? := by
  rw [setQuery, queryClash?]
  cases s.source with
  | none => exact Option.or_none.symm
  | some source => rfl

theorem fromQuery_fault (s : Insert) (q : Select) :
    (s.fromQuery q).draft.fault = s.draft.fault.or (s.failure? (.fromQuery q)) := by
  rw [fromQuery, failure?]
  cases q.subquery with
  | error e => rfl
  | ok sql => exact s.setQuery_fault sql

theorem step_fault (s : Insert) (call : Step) :
    (s.step call).draft.fault = s.draft.fault.or (s.failure? call) := by
  cases call with
  | intoTable name => simp [step, intoTable, failure?]
  | addItem t item => exact s.addItem_fault t item
  | addItems t items => exact fault_foldl (·.draft.fault) (addItem_fault t) s items
  | addValues values => exact s.addRowOutcome_fault _
  | setDefaults => exact s.setDefaults_fault
  | fromQuery q => exact s.fromQuery_fault q
  | setQuery sql => exact s.setQuery_fault sql
  | intoType _ | setColumns _ | addHints _ => exact Option.or_none.symm

theorem run_fault (s : Insert) (calls : List Step) :
    (s.run calls).draft.fault = s.draft.fault.or (firstFailure? step failure? s calls) :=
  fault_foldl (·.draft.fault) step_fault s calls

end Insert

/-! ## UPDATE -/

namespace Update

/-- The error of adding the row of an item. -/
def itemFailure? (t : MappedType) (s : Update) (item : Record Field) : Option Error :=
  error? (t.row s.draft.settings.enumMode (fun c => c.inclusion.update || c.searchKey) item)

/-- The error that a call on an UPDATE statement fails with. Of several items it is that of the first
one that fails. -/
def failure? (s : Update) : Step → Option Error
  | .addItem t item => itemFailure? t s item
  | .addItems t items => firstFailure? (fun s item => s.addItem t item) (itemFailure? t) s items
  | .addValues values => error? (values.mapM fun (name, v) => s.draft.columnValue name v)
  | .setValue column value => error? (s.draft.columnValue column value)
  | .addCondition t condition op =>
    error? (s.conditions.add s.draft.settings s.draft.registry t condition op).2
  | .target _ | .limit _ | .addHints _ | .addConditionRaw _ _ => none

theorem addItem_fault (t : MappedType) (s : Update) (item : Record Field) :
    (s.addItem t item).draft.fault = s.draft.fault.or (itemFailure? t s item) := by
  simp [addItem, itemFailure?]

theorem step_fault (s : Update) (call : Step) :
    (s.step call).draft.fault = s.draft.fault.or (s.failure? call) := by
  cases call with
  | addItem t item => exact s.addItem_fault t item
  | addItems t items => exact fault_foldl (·.draft.fault) (addItem_fault t) s items
  | addValues values => simp [step, addValues, failure?]
  | setValue column value => simp [step, setValue, failure?]
  | addCondition t condition op => simp [step, addCondition, failure?]
  | target _ | limit _ | addHints _ | addConditionRaw _ _ => exact Option.or_none.symm

theorem run_fault (s : Update) (calls : List Step) :
    (s.run calls).draft.fault = s.draft.fault.or (firstFailure? step failure? s calls) :=
  fault_foldl (·.draft.fault) step_fault s calls

theorem ofTable_fault (settings : Settings) (name : TableName) :
    (ofTable settings name).draft.fault = error? name.text := by
  simp [ofTable, new, Draft.new]

end Update

/-! ## DELETE -/

namespace Delete

/-- The error that a call on a DELETE statement fails with. -/
def failure? (s : Delete) : Step → Option Error
  | .addCondition t condition op =>
    error? (s.conditions.add s.draft.settings s.draft.registry t condition op).2
  | .addItem t item _ => error? (itemCondition s.draft.settings t item)
  | .target _ | .limit _ | .addHints _ | .allowAll | .addConditionRaw _ _ => none

theorem step_fault (s : Delete) (call : Step) :
    (s.step call).draft.fault = s.draft.fault.or (s.failure? call) := by
  cases call with
  | addCondition t condition op => simp [step, addCondition, failure?]
  | addItem t item op => simp [step, addItem, failure?]
  | target _ | limit _ | addHints _ | allowAll | addConditionRaw _ _ => exact Option.or_none.symm

theorem run_fault (s : Delete) (calls : List Step) :
    (s.run calls).draft.fault = s.draft.fault.or (firstFailure? step failure? s calls) :=
  fault_foldl (·.draft.fault) step_fault s calls

theorem ofTable_fault (settings : Settings) (name : TableName) :
    (ofTable settings name).draft.fault = error? name.text := by
  simp [ofTable, new, Draft.new]

end Delete

/-! ## MERGE -/

namespace Merge

/-- The error that a call on a MERGE statement fails with, at whatever state. -/
def failure? (_ : Merge) : Step → Option Error
  | .setSourceQuery q _ _ => error? q.subquery
  | .target _ | .limit _ | .addHints _ | .setSource _ _ _ | .addClause _ => none

theorem step_fault (s : Merge) (call : Step) :
    (s.step call).draft.fault = s.draft.fault.or (s.failure? call) := by
  cases call with
  | setSourceQuery q aliasName condition => simp [step, setSourceQuery, failure?]
  | target _ | limit _ | addHints _ | setSource _ _ _ | addClause _ => exact Option.or_none.symm

theorem run_fault (s : Merge) (calls : List Step) :
    (s.run calls).draft.fault = s.draft.fault.or (firstFailure? step failure? s calls) :=
  fault_foldl (·.draft.fault) step_fault s calls

theorem ofTable_fault (settings : Settings) (name : TableName) (aliasName : String) :
    (ofTable settings name aliasName).draft.fault = error? name.text := by
  simp [ofTable, new, Draft.new]

end Merge

end SqlWright
