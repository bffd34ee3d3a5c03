import SqlWright.Proofs.Failure.Chain
import SqlWright.Proofs.Trace.Calls
import SqlWright.Proofs.Trace.Shortened

/-!
# The events of a statement

All that is reported while a statement is made and finished, for every chain of calls. The reported
aliases are those of its final registry, the reported errors are those of the calls that failed, and
a finished statement is reported once if reports are wanted.
-/

namespace SqlWright

open Outcome

/-- A finished statement is reported if reports are wanted, and shown up to the limit. -/
theorem Draft.report_built (d : Draft) (result : Outcome String) :
    match result, d.settings.logStatements with
    | .ok text, true => ∃ shown, IsShown d.settings.maxLoggedLength text shown ∧
        (d.report result).filterMap Event.built? = [(d.kind, shown)]
    | _, _ => (d.report result).filterMap Event.built? = [] := by
  cases result with
  | error e => rfl
  | ok text =>
    rw [report]
    cases d.settings.logStatements with
    | false => rfl
    | true => exact ⟨_, shortened_isShown _ text, rfl⟩

/-- No alias and no error is reported with it. -/
theorem Draft.report_others (d : Draft) (result : Outcome String) :
    (d.report result).filterMap Event.assigned? = [] ∧
      (d.report result).filterMap Event.recorded? = [] := by
  cases result with
  | error e => exact ⟨rfl, rfl⟩
  | ok text =>
    rw [report]
    split <;> exact ⟨rfl, rfl⟩

namespace Chain

/-- The kind of statement that is made. -/
def kind : Chain → StatementKind
  | .select _ => .select
  | .insert _ => .insert
  | .update _ _ => .update
  | .delete _ _ => .delete
  | .merge _ _ => .merge

/-- The common part of the statement after the chain of calls. -/
def draft (settings : Settings) : Chain → Draft
  | .select calls => (selected settings calls).draft
  | .insert calls => (inserted settings calls).draft
  | .update table calls => (updated settings table calls).draft
  | .delete table calls => (deleted settings table calls).draft
  | .merge table calls => (merged settings table calls).draft

/-- All events of the calls and of finishing the statement, in their order. -/
def events (settings : Settings) (chain : Chain) : List Event :=
  (chain.draft settings).journal ++ (chain.draft settings).report (chain.build settings)

theorem filterMap_events {α : Type} (settings : Settings) (chain : Chain) (f : Event → Option α) :
    (chain.events settings).filterMap f = (chain.draft settings).journal.filterMap f ++
      ((chain.draft settings).report (chain.build settings)).filterMap f :=
  List.filterMap_append

/-- The chain with one call for each item of a call on several items. -/
def single : Chain → Chain
  | .select calls => .select (calls.flatMap Select.Step.single)
  | .insert calls => .insert (calls.flatMap Insert.Step.single)
  | .update table calls => .update table (calls.flatMap Update.Step.single)
  | .delete table calls => .delete table calls
  | .merge table calls => .merge table calls

variable (settings : Settings) (chain : Chain)

/-- One call for each item makes the same statement. -/
theorem single_same :
    chain.single.draft settings = chain.draft settings ∧
      chain.single.build settings = chain.build settings := by
  cases chain with
  | select calls =>
    have hrun : selected settings (calls.flatMap Select.Step.single) = selected settings calls :=
      Select.run_single _ calls
    exact ⟨congrArg Select.draft hrun, congrArg Select.build hrun⟩
  | insert calls =>
    have hrun : inserted settings (calls.flatMap Insert.Step.single) = inserted settings calls :=
      Insert.run_single _ calls
    exact ⟨congrArg Insert.draft hrun, congrArg Insert.build hrun⟩
  | update table calls =>
    have hrun : updated settings table (calls.flatMap Update.Step.single) =
        updated settings table calls :=
      Update.run_single _ calls
    exact ⟨congrArg Update.draft hrun, congrArg Update.build hrun⟩
  | delete table calls => exact ⟨rfl, rfl⟩
  | merge table calls => exact ⟨rfl, rfl⟩

theorem filterMap_failures_cons (failure : Option Error) (failures : List (Option Error)) :
    (failure :: failures).filterMap id = failure.toList ++ failures.filterMap id := by
  cases failure <;> rfl

/-- **What a whole chain reports**: the errors of all its calls that fail. -/
theorem draft_reports :
    (Draft.new chain.kind settings).Reports ((chain.single.failures settings).filterMap id)
      (chain.draft settings) := by
  cases chain with
  | select calls =>
    rw [single, failures, filterMap_failures_cons]
    exact Select.run_reports (.new settings) calls
  | insert calls =>
    rw [single, failures, filterMap_failures_cons]
    exact Insert.run_reports (.new settings) calls
  | update table calls =>
    rw [single, failures, filterMap_failures_cons]
    refine .trans ?_ (Update.run_reports (updated settings table []) calls)
    cases table with
    | none => exact .same
    | some name => exact Update.ofTable_reports settings name
  | delete table calls =>
    rw [single, failures, filterMap_failures_cons]
    refine .trans ?_ (Delete.run_reports (deleted settings table []) calls)
    cases table with
    | none => exact .same
    | some name => exact Delete.ofTable_reports settings name
  | merge table calls =>
    rw [single, failures, filterMap_failures_cons]
    refine .trans ?_ (Merge.run_reports (merged settings table []) calls)
    cases table with
    | none => exact .same
    | some t => exact Merge.ofTable_reports settings t.1 t.2

/-- **Events mirror what happened.** Whatever calls a statement is made by: the aliases reported are
those of its final registry, in the order of the entries. One error is reported for each call that
fails, in the order of the calls and after the first one too, where a call on several items counts
as one call for each of them, which makes the same statement. A statement is reported once if it is
built and such reports are wanted, else not at all; what is shown is the built text, or if it has
more bytes than the limit the longest beginning that has no more and ends between two characters,
with dots. -/
theorem events_mirror :
    let events := chain.events settings
    events.filterMap Event.assigned? =
      (chain.draft settings).registry.entries.map (fun e => (e.type.name, e.aliasName)) ∧
    events.filterMap Event.recorded? =
      ((chain.single.failures settings).filterMap id).map (fun e => (chain.kind, e)) ∧
    chain.single.build settings = chain.build settings ∧
    match chain.build settings, settings.logStatements with
    | .ok text, true => ∃ shown, IsShown settings.maxLoggedLength text shown ∧
        events.filterMap Event.built? = [(chain.kind, shown)]
    | _, _ => events.filterMap Event.built? = [] := by
  dsimp only
  have hreports := chain.draft_reports settings
  have hmirrors := (Draft.Mirrors.new chain.kind settings).of_reports hreports
  rw [List.nil_append] at hmirrors
  obtain ⟨hkind, hsettings, -⟩ := hreports.frame
  obtain ⟨hassigned, hrecorded⟩ := (chain.draft settings).report_others (chain.build settings)
  have hbuilt := (chain.draft settings).report_built (chain.build settings)
  refine ⟨?_, ?_, (chain.single_same settings).2, ?_⟩
  · rw [filterMap_events, hassigned, List.append_nil]
    exact hmirrors.assigned
  · rw [filterMap_events, hrecorded, List.append_nil, hmirrors.recorded, hkind]
    rfl
  · rw [filterMap_events, hmirrors.built, List.nil_append]
    rw [hkind, hsettings] at hbuilt
    exact hbuilt

/-- One call that selects two unknown columns: it fails once and reports two errors. -/
theorem events_several_items :
    let city : MappedType := ⟨"City", "City", none, [Column.plain "Id" "Id"]⟩
    let chain : Chain :=
      .select [.fromType city, .selectItems city [.column city "Nme", .column city "Idd"]]
    chain.failures .default = [none, none, some (.unknownMember "City" "Nme")] ∧
      (chain.events .default).filterMap Event.recorded? =
        [(.select, .unknownMember "City" "Nme"), (.select, .unknownMember "City" "Idd")] :=
  ⟨rfl, rfl⟩

end Chain

end SqlWright
