import SqlWright.Proofs.Closed.Chain
import SqlWright.Proofs.Failure.Calls

/-!
# The first error wins

A statement on which some call failed is never finished. Whatever calls came after it, and whether
these failed too, the error of the first call that failed is what the statement gives in place of a
text. A query that failed hands its error on to the statement that was to hold it.
-/

namespace SqlWright

open Outcome

/-- In a chain of calls the call at place `k` is the first that fails, with the error `e`. -/
def FirstFailure (failures : List (Option Error)) (k : Nat) (e : Error) : Prop :=
  failures[k]? = some (some e) ∧ ∀ j < k, failures[j]? = some none

theorem FirstFailure.findSome? {failures : List (Option Error)} {k : Nat} {e : Error}
    (h : FirstFailure failures k e) : failures.findSome? id = some e := by
  induction failures generalizing k with
  | nil => cases h.1
  | cons failure failures ih =>
    rw [findSome?_id_cons]
    cases k with
    | zero =>
      cases h.1
      rfl
    | succ k =>
      cases h.2 0 (Nat.succ_pos k)
      exact ih ⟨h.1, fun j hj => h.2 (j + 1) (Nat.succ_lt_succ hj)⟩

namespace Chain

/-- Of each call in the making of a statement the error it fails with, if it fails. The start comes
first; it fails if it has a named table and the name is no identifier. -/
def failures (settings : Settings) : Chain → List (Option Error)
  | .select calls => none :: SqlWright.failures Select.step Select.failure? (.new settings) calls
  | .insert calls => none :: SqlWright.failures Insert.step Insert.failure? (.new settings) calls
  | .update table calls =>
    (table.bind fun name => error? name.text) ::
      SqlWright.failures Update.step Update.failure? (updated settings table []) calls
  | .delete table calls =>
    (table.bind fun name => error? name.text) ::
      SqlWright.failures Delete.step Delete.failure? (deleted settings table []) calls
  | .merge table calls =>
    (table.bind fun t => error? t.1.text) ::
      SqlWright.failures Merge.step Merge.failure? (merged settings table []) calls

variable {settings : Settings} {k : Nat} {e : Error}

theorem selected_fault (calls : List Select.Step) :
    (selected settings calls).draft.fault =
      ((Chain.select calls).failures settings).findSome? id := by
  rw [failures, findSome?_id_cons]
  exact Select.run_fault (.new settings) calls

theorem inserted_fault (calls : List Insert.Step) :
    (inserted settings calls).draft.fault =
      ((Chain.insert calls).failures settings).findSome? id := by
  rw [failures, findSome?_id_cons]
  exact Insert.run_fault (.new settings) calls

theorem updated_fault (table : Option TableName) (calls : List Update.Step) :
    (updated settings table calls).draft.fault =
      ((Chain.update table calls).failures settings).findSome? id := by
  have hstart :
      (updated settings table []).draft.fault = table.bind fun name => error? name.text := by
    cases table with
    | none => rfl
    | some name => exact Update.ofTable_fault settings name
  rw [failures, findSome?_id_cons, ← hstart]
  exact Update.run_fault (updated settings table []) calls

theorem deleted_fault (table : Option TableName) (calls : List Delete.Step) :
    (deleted settings table calls).draft.fault =
      ((Chain.delete table calls).failures settings).findSome? id := by
  have hstart :
      (deleted settings table []).draft.fault = table.bind fun name => error? name.text := by
    cases table with
    | none => rfl
    | some name => exact Delete.ofTable_fault settings name
  rw [failures, findSome?_id_cons, ← hstart]
  exact Delete.run_fault (deleted settings table []) calls

theorem merged_fault (table : Option (TableName × String)) (calls : List Merge.Step) :
    (merged settings table calls).draft.fault =
      ((Chain.merge table calls).failures settings).findSome? id := by
  have hstart : (merged settings table []).draft.fault = table.bind fun t => error? t.1.text := by
    cases table with
    | none => rfl
    | some t => exact Merge.ofTable_fault settings t.1 t.2
  rw [failures, findSome?_id_cons, ← hstart]
  exact Merge.run_fault (merged settings table []) calls

/-- **The first error wins.** If some call of a chain fails and none before it does, then whatever
the chain goes on with, the statement gives the error of that call in place of a text. So does a
query that another statement was to hold. -/
theorem build_of_firstFailure (chain : Chain) (h : FirstFailure (chain.failures settings) k e) :
    chain.build settings = .error e ∧
      ∀ calls, chain = .select calls → (selected settings calls).subquery = .error e := by
  have hfirst := h.findSome?
  cases chain with
  | select calls =>
    have hfault := (selected_fault calls).trans hfirst
    refine ⟨Select.build_of_fault hfault, ?_⟩
    rintro _ ⟨⟩
    exact Select.subquery_of_fault hfault
  | insert calls =>
    exact ⟨Draft.finish_of_fault ((inserted_fault calls).trans hfirst) _, fun _ h => nomatch h⟩
  | update table calls =>
    exact ⟨Draft.finish_of_fault ((updated_fault table calls).trans hfirst) _, fun _ h => nomatch h⟩
  | delete table calls =>
    exact ⟨Draft.finish_of_fault ((deleted_fault table calls).trans hfirst) _, fun _ h => nomatch h⟩
  | merge table calls =>
    exact ⟨Draft.finish_of_fault ((merged_fault table calls).trans hfirst) _, fun _ h => nomatch h⟩

/-- A query that is grouped by nothing, is sorted by an unknown column afterwards and then goes into
an INSERT statement, where it is followed by sources that do not mix. -/
theorem build_of_firstFailure_query :
    let city : MappedType := ⟨"City", "City", none, [Column.plain "Id" "Id"]⟩
    let calls : List Select.Step :=
      [.fromType city, .groupBy city (.keys []) none, .orderBy city (.column city "Nme") .ascending]
    let query := selected .default calls
    let chain : Chain := .insert [.intoType city, .fromQuery query, .setQuery "x", .setDefaults]
    let e : Error := .misuse .noGroupingKey
    ((Chain.select calls).failures .default =
      [none, none, some e, some (.unknownMember "City" "Nme")] ∧ query.subquery = .error e) ∧
    (chain.failures .default = [none, none, some e, none, some (.misuse .defaultsBesideValues)] ∧
      chain.build .default = .error e) := by
  intro city calls query chain e
  have hcalls : (Chain.select calls).failures .default =
      [none, none, some e, some (.unknownMember "City" "Nme")] := rfl
  have hfirst : FirstFailure ((Chain.select calls).failures .default) 2 e := by
    rw [hcalls]
    exact ⟨rfl, by decide⟩
  have hquery := (build_of_firstFailure _ hfirst).2 calls rfl
  have hchain : chain.failures .default =
      [none, none, some e, none, some (.misuse .defaultsBesideValues)] := rfl
  refine ⟨⟨hcalls, hquery⟩, hchain, (build_of_firstFailure (k := 2) chain ?_).1⟩
  rw [hchain]
  exact ⟨rfl, by decide⟩

end Chain

end SqlWright
