import SqlWright.Proofs.Scope.Sources
import SqlWright.Proofs.Trace.Reports

/-!
# Calls and their events

A call that fails reports the error it fails with, and a call that does not fail reports none. A
call on several items reports an error for each item that fails; it does the same as one call for
each of its items.
-/

namespace SqlWright

open Outcome Draft

/-- A chain in which every call is replaced by calls that together do the same. -/
theorem foldl_flatMap {State Call : Type} {step : State → Call → State}
    {parts : Call → List Call} (h : ∀ s call, (parts call).foldl step s = step s call) (s : State)
    (calls : List Call) : (calls.flatMap parts).foldl step s = calls.foldl step s := by
  rw [List.foldl_flatMap]
  exact congrArg (fun f => calls.foldl f s) (funext fun s => funext fun call => h s call)

/-- What a chain of calls reports, if each call does the same as calls that report the errors they
fail with. -/
theorem Draft.Reports.foldl_flatMap {State Call : Type} {step : State → Call → State}
    {draft : State → Draft} {failure? : State → Call → Option Error} {parts : Call → List Call}
    (hparts : ∀ s call, (parts call).foldl step s = step s call)
    (hstep : ∀ s call, ∀ c ∈ parts call,
      (draft s).Reports (failure? s c).toList (draft (step s c)))
    (s : State) (calls : List Call) :
    (draft s).Reports ((failures step failure? s (calls.flatMap parts)).filterMap id)
      (draft (calls.foldl step s)) := by
  rw [← SqlWright.foldl_flatMap hparts]
  refine .foldl (fun s c hc => ?_) s
  obtain ⟨call, -, hc⟩ := List.mem_flatMap.1 hc
  exact hstep s call c hc

/-! ## SELECT -/

namespace Select

/-- A call on several items as one call for each of them. -/
def Step.single : Step → List Step
  | .selectItems t (e :: f :: items) => (e :: f :: items).map fun e => .selectItems t [e]
  | call => [call]

theorem selectItem_reports (q : Select) (t : MappedType) (e : Expr) :
    q.draft.Reports (error? (q.draft.compile t true e)).toList (q.selectItem t e).draft := by
  rw [selectItem]
  cases q.draft.compile t true e with
  | error fault => exact .reject .same fault
  | ok text =>
    show Reports q.draft [] (if text = "" then q else q.addColumns [text]).draft
    split
    · exact .same
    · rw [addColumns_draft]
      exact .same

theorem groupBy_reports (q : Select) (t : MappedType) (g : Grouping) (having : Option Expr) :
    q.draft.Reports (q.failure? (.groupBy t g having)).toList (q.groupBy t g having).draft := by
  rw [groupBy, failure?]
  split
  · exact .reject .same _
  · exact (Reports.mention q.draft t false).trans (.acceptMap (q.mention t).draft _ some q.group)

theorem orderBy_reports (q : Select) (t : MappedType) (key : Expr) (direction : Direction) :
    q.draft.Reports (q.failure? (.orderBy t key direction)).toList
      (q.orderBy t key direction).draft := by
  refine (Reports.mention q.draft t false).trans ?_
  rw [orderBy, failure?]
  dsimp only
  cases (q.mention t).draft.compile t false key with
  | error e => exact .reject .same e
  | ok text =>
    rw [ok_bind]
    dsimp only
    by_cases hempty : text = ""
    · rw [if_pos hempty, if_pos hempty]
      exact .reject .same _
    · rw [if_neg hempty, if_neg hempty]
      exact .same

/-- **What a call on a query reports**: the error it fails with, if it fails. -/
theorem step_reports (q : Select) {call : Step} (h : call.single = [call]) :
    q.draft.Reports (q.failure? call).toList (q.step call).draft := by
  cases call with
  | fromType t => exact .mention q.draft t true
  | selectAll t =>
    rw [step, selectAll, addColumns_draft]
    exact .mention q.draft t false
  | selectItems t items =>
    refine (Reports.mention q.draft t false).trans ?_
    rcases items with _ | ⟨e, _ | ⟨f, items⟩⟩
    · exact .same
    · have hfailure : q.failure? (.selectItems t [e]) =
          error? ((q.mention t).draft.compile t true e) := by
        show List.findSome? id [error? ((q.mention t).draft.compile t true e)] = _
        rw [findSome?_id_cons]
        exact Option.or_none
      rw [hfailure]
      exact selectItem_reports (q.mention t) t e
    · cases (List.cons.inj h).2
  | selectEvery =>
    rw [step, selectEvery, addColumns_draft]
    exact .same
  | intoTable name => exact .acceptMap q.draft name.text some q.destination
  | join left right condition kind => exact .acceptWith (q.joins.add_extends condition kind) _
  | crossJoin left right => exact .acceptWith q.joins.addCross_extends _
  | joinRaw table condition kind => exact .acceptMap q.draft table.text _ q.joins
  | addCondition t condition op => exact .acceptWith (.add _ t false) _
  | groupBy t g having => exact q.groupBy_reports t g having
  | orderBy t key direction => exact q.orderBy_reports t key direction
  | selectDistinct | limit _ | addHints _ | intoType _ | addConditionRaw _ _ => exact .same

/-- One call for each item does what a call on several items does, which mentions the type once. -/
theorem foldl_selectItem {q : Select} {t : MappedType}
    (h : (q.draft.registry.get? t).isSome = true) (items : List Expr) :
    (items.map fun e => Step.selectItems t [e]).foldl step q =
      items.foldl (fun q e => q.selectItem t e) q := by
  induction items generalizing q with
  | nil => rfl
  | cons e items ih =>
    have hmention : q.mention t = q :=
      congrArg (fun d => ({ q with draft := d } : Select)) (mention_of_isSome h false)
    have hitem : q.step (.selectItems t [e]) = q.selectItem t e := by
      show (q.mention t).selectItem t e = _
      rw [hmention]
    have hregistry : (q.selectItem t e).draft.registry = q.draft.registry :=
      (selectItem_frame q t e).1
    rw [List.map_cons, List.foldl_cons, List.foldl_cons, hitem]
    exact ih (by rw [hregistry]; exact h)

theorem foldl_single (q : Select) (call : Step) : call.single.foldl step q = q.step call := by
  cases call with
  | selectItems t items =>
    rcases items with _ | ⟨e, _ | ⟨f, items⟩⟩
    · rfl
    · rfl
    · have hfirst : (((q.mention t).selectItem t e).draft.registry.get? t).isSome = true := by
        rw [(selectItem_frame (q.mention t) t e).1]
        exact Option.isSome_iff_exists.2 ⟨_, Registry.get?_add⟩
      exact foldl_selectItem hfirst (f :: items)
  | _ => rfl

theorem single_of_mem_single {call c : Step} (h : c ∈ call.single) : c.single = [c] := by
  cases call with
  | selectItems t items =>
    rcases items with _ | ⟨e, _ | ⟨f, items⟩⟩
    · cases List.mem_singleton.1 h
      rfl
    · cases List.mem_singleton.1 h
      rfl
    · obtain ⟨e, -, rfl⟩ := List.mem_map.1 h
      rfl
  | _ =>
    cases List.mem_singleton.1 h
    rfl

theorem run_single (q : Select) (calls : List Step) :
    q.run (calls.flatMap Step.single) = q.run calls :=
  foldl_flatMap foldl_single q calls

/-- **What a chain of calls on a query reports.** -/
theorem run_reports (q : Select) (calls : List Step) :
    q.draft.Reports ((failures step failure? q (calls.flatMap Step.single)).filterMap id)
      (q.run calls).draft :=
  .foldl_flatMap foldl_single (fun s _ _ h => step_reports s (single_of_mem_single h)) q calls

end Select

/-! ## INSERT -/

namespace Insert

/-- A call on several items as one call for each of them. -/
def Step.single : Step → List Step
  | .addItems t items => items.map (.addItem t)
  | call => [call]

theorem addRowOutcome_reports (s : Insert) (row : Outcome (List (String × String))) :
    s.draft.Reports (s.rowFailure? row).toList (s.addRowOutcome row).draft := by
  rw [rowFailure?, rowClash?]
  cases row with
  | error e => exact .reject .same e
  | ok row =>
    show Reports s.draft _ (s.addRow row).draft
    rw [addRow]
    rcases s.source with _ | _ | _ | _
    · exact .same
    · exact .same
    · exact .reject .same _
    · exact .reject .same _

theorem setQuery_reports (s : Insert) (sql : String) :
    s.draft.Reports s.queryClash?.toList (s.setQuery sql).draft := by
  rw [setQuery, queryClash?]
  cases s.source with
  | none => exact .same
  | some source => exact .reject .same _

/-- **What a call on an INSERT statement reports**: the error it fails with, if it fails. -/
theorem step_reports (s : Insert) {call : Step} (h : call.single = [call]) :
    s.draft.Reports (s.failure? call).toList (s.step call).draft := by
  cases call with
  | intoType t => exact .mention s.draft t true
  | intoTable name => exact .acceptMap s.draft name.text some s.destination
  | addItem t item => exact s.addRowOutcome_reports _
  | addItems t items => rcases items with _ | ⟨item, items⟩ <;> cases h
  | addValues values => exact s.addRowOutcome_reports _
  | setDefaults =>
    rw [step, setDefaults, failure?]
    rcases s.source with _ | _ | _ | _
    · exact .same
    · exact .reject .same _
    · exact .reject .same _
    · exact .same
  | fromQuery q =>
    rw [step, fromQuery, failure?]
    cases q.subquery with
    | error e => exact .reject .same e
    | ok sql => exact s.setQuery_reports sql
  | setQuery sql => exact s.setQuery_reports sql
  | setColumns _ | addHints _ => exact .same

theorem foldl_single (s : Insert) (call : Step) : call.single.foldl step s = s.step call := by
  cases call with
  | addItems t items => exact List.foldl_map
  | _ => rfl

theorem single_of_mem_single {call c : Step} (h : c ∈ call.single) : c.single = [c] := by
  cases call with
  | addItems t items =>
    obtain ⟨item, -, rfl⟩ := List.mem_map.1 h
    rfl
  | _ =>
    cases List.mem_singleton.1 h
    rfl

theorem run_single (s : Insert) (calls : List Step) :
    s.run (calls.flatMap Step.single) = s.run calls :=
  foldl_flatMap foldl_single s calls

/-- **What a chain of calls on an INSERT statement reports.** -/
theorem run_reports (s : Insert) (calls : List Step) :
    s.draft.Reports ((failures step failure? s (calls.flatMap Step.single)).filterMap id)
      (s.run calls).draft :=
  .foldl_flatMap foldl_single (fun s _ _ h => step_reports s (single_of_mem_single h)) s calls

end Insert

/-! ## UPDATE -/

namespace Update

/-- A call on several items as one call for each of them. -/
def Step.single : Step → List Step
  | .addItems t items => items.map (.addItem t)
  | call => [call]

/-- **What a call on an UPDATE statement reports**: the error it fails with, if it fails. -/
theorem step_reports (s : Update) {call : Step} (h : call.single = [call]) :
    s.draft.Reports (s.failure? call).toList (s.step call).draft := by
  cases call with
  | target t => exact .mention s.draft t true
  | addItem t item => exact .acceptMap s.draft _ _ s.rows
  | addItems t items => rcases items with _ | ⟨item, items⟩ <;> cases h
  | addValues values => exact .acceptMap s.draft _ _ s.rows
  | setValue column value => exact .acceptMap s.draft _ _ s.rows
  | addCondition t condition op => exact .acceptWith (.add _ t false) _
  | limit _ | addHints _ | addConditionRaw _ _ => exact .same

theorem foldl_single (s : Update) (call : Step) : call.single.foldl step s = s.step call := by
  cases call with
  | addItems t items => exact List.foldl_map
  | _ => rfl

theorem single_of_mem_single {call c : Step} (h : c ∈ call.single) : c.single = [c] := by
  cases call with
  | addItems t items =>
    obtain ⟨item, -, rfl⟩ := List.mem_map.1 h
    rfl
  | _ =>
    cases List.mem_singleton.1 h
    rfl

theorem run_single (s : Update) (calls : List Step) :
    s.run (calls.flatMap Step.single) = s.run calls :=
  foldl_flatMap foldl_single s calls

/-- **What a chain of calls on an UPDATE statement reports.** -/
theorem run_reports (s : Update) (calls : List Step) :
    s.draft.Reports ((failures step failure? s (calls.flatMap Step.single)).filterMap id)
      (s.run calls).draft :=
  .foldl_flatMap foldl_single (fun s _ _ h => step_reports s (single_of_mem_single h)) s calls

theorem ofTable_reports (settings : Settings) (name : TableName) :
    (Draft.new .update settings).Reports (error? name.text).toList
      (ofTable settings name).draft :=
  .acceptMap (new settings).draft name.text some none

end Update

/-! ## DELETE -/

namespace Delete

/-- **What a call on a DELETE statement reports**: the error it fails with, if it fails. -/
theorem step_reports (s : Delete) (call : Step) :
    s.draft.Reports (s.failure? call).toList (s.step call).draft := by
  cases call with
  | target t => exact .mention s.draft t true
  | addCondition t condition op => exact .acceptWith (.add _ t false) _
  | addItem t item op => exact .acceptMap s.draft _ _ s.conditions
  | limit _ | addHints _ | allowAll | addConditionRaw _ _ => exact .same

/-- **What a chain of calls on a DELETE statement reports.** -/
theorem run_reports (s : Delete) (calls : List Step) :
    s.draft.Reports ((failures step failure? s calls).filterMap id) (s.run calls).draft :=
  Reports.foldl (fun s call _ => step_reports s call) s

theorem ofTable_reports (settings : Settings) (name : TableName) :
    (Draft.new .delete settings).Reports (error? name.text).toList
      (ofTable settings name).draft :=
  .acceptMap (new settings).draft name.text some none

end Delete

/-! ## MERGE -/

namespace Merge

/-- **What a call on a MERGE statement reports**: the error it fails with, if it fails. -/
theorem step_reports (s : Merge) (call : Step) :
    s.draft.Reports (s.failure? call).toList (s.step call).draft := by
  cases call with
  | target t => exact .mention s.draft t true
  | setSourceQuery q aliasName condition => exact .acceptMap s.draft q.subquery _ s.source
  | limit _ | addHints _ | setSource _ _ _ | addClause _ => exact .same

/-- **What a chain of calls on a MERGE statement reports.** -/
theorem run_reports (s : Merge) (calls : List Step) :
    s.draft.Reports ((failures step failure? s calls).filterMap id) (s.run calls).draft :=
  Reports.foldl (fun s call _ => step_reports s call) s

theorem ofTable_reports (settings : Settings) (name : TableName) (aliasName : String) :
    (Draft.new .merge settings).Reports (error? name.text).toList
      (ofTable settings name aliasName).draft :=
  .acceptMap (new settings).draft name.text _ none

end Merge

end SqlWright
