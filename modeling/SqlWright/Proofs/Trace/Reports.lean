import SqlWright.Proofs.Closed.Clauses
import SqlWright.Proofs.Failure.Calls

/-!
# What calls report

Whatever a call does to the common part of a statement is made up of two things: it takes over a
registry that goes on from the present one, and it reports errors. From these two alone the events
of a statement mirror its registry and its errors, through all the calls of a chain.
-/

namespace SqlWright

open Outcome

/-! ## Kinds of events -/

namespace Event

/-- The type and the alias of a new entry. -/
def assigned? : Event → Option (String × String)
  | .aliasAssigned type aliasName _ => some (type, aliasName)
  | .statementBuilt _ _ | .errorRecorded _ _ => none

/-- A recorded error with the kind of the statement. -/
def recorded? : Event → Option (StatementKind × Error)
  | .errorRecorded kind error => some (kind, error)
  | .aliasAssigned _ _ _ | .statementBuilt _ _ => none

/-- The text that is shown of a finished statement, with its kind. -/
def built? : Event → Option (StatementKind × String)
  | .statementBuilt kind sql => some (kind, sql)
  | .aliasAssigned _ _ _ | .errorRecorded _ _ => none

theorem filterMap_ofEntry {α : Type} {f : Event → Option α} (hf : ∀ e, f (ofEntry e) = none)
    (entries : List Entry) : (entries.map ofEntry).filterMap f = [] := by
  rw [List.filterMap_map]
  exact List.filterMap_eq_nil_iff.2 fun e _ => hf e

end Event

/-- The type and the alias of an entry. -/
def Entry.assignment (e : Entry) : String × String :=
  (e.type.name, e.aliasName)

/-! ## Drafts -/

/-- The draft becomes another one as registries are taken over that go on from the present one, and
as the listed errors are reported, in their order. -/
inductive Draft.Reports (d : Draft) : List Error → Draft → Prop where
  | same : d.Reports [] d
  | adopt {es : List Error} {d' : Draft} {r : Registry} (h : d.Reports es d')
    (hr : r.Extends d'.registry) : d.Reports es (d'.adopt r)
  | reject {es : List Error} {d' : Draft} (h : d.Reports es d') (e : Error) :
    d.Reports (es ++ [e]) (d'.reject e)

namespace Draft

/-- Taking over the present registry changes nothing. -/
theorem adopt_self (d : Draft) : d.adopt d.registry = d := by
  rw [adopt, List.drop_length, List.map_nil, List.append_nil]

/-- Nor does the mention of a type that has an entry. -/
theorem mention_of_isSome {d : Draft} {t : MappedType} (h : (d.registry.get? t).isSome = true)
    (primary : Bool) : d.mention t primary = d := by
  obtain ⟨e, he⟩ := Option.isSome_iff_exists.1 h
  rw [mention, (Registry.add_of_get? he).1, adopt_self]

namespace Reports

variable {α : Type} {d d' d'' : Draft} {es fs : List Error}

theorem trans (h : d.Reports es d') (h' : d'.Reports fs d'') : d.Reports (es ++ fs) d'' := by
  induction h' with
  | same =>
    rw [List.append_nil]
    exact h
  | adopt _ hr ih => exact .adopt ih hr
  | reject _ e ih =>
    rw [← List.append_assoc]
    exact .reject ih e

theorem mention (d : Draft) (t : MappedType) (primary : Bool) :
    d.Reports [] (d.mention t primary) :=
  .adopt .same (.add d.registry t primary)

theorem accept (d : Draft) (result : Outcome α) (old : α) :
    d.Reports (error? result).toList (d.accept result old).1 := by
  cases result with
  | ok a => exact .same
  | error e => exact .reject .same e

/-- Taking over something that is made from a result. -/
theorem acceptMap {β : Type} (d : Draft) (result : Outcome α) (f : α → β) (old : β) :
    d.Reports (error? result).toList (d.accept (result.map f) old).1 := by
  have haccept := Reports.accept d (result.map f) old
  rwa [error?_map] at haccept

theorem acceptWith {result : Registry × Outcome α} (hr : result.1.Extends d.registry) (old : α) :
    d.Reports (error? result.2).toList (d.acceptWith result old).1 :=
  (Reports.adopt .same hr).trans (.accept (d.adopt result.1) result.2 old)

/-- What a chain of calls reports, if of each call it is the error that the call fails with. -/
theorem foldl {State Call : Type} {step : State → Call → State} {draft : State → Draft}
    {failure? : State → Call → Option Error} {calls : List Call}
    (hstep : ∀ s, ∀ call ∈ calls,
      (draft s).Reports (failure? s call).toList (draft (step s call))) (s : State) :
    (draft s).Reports ((failures step failure? s calls).filterMap id)
      (draft (calls.foldl step s)) := by
  induction calls generalizing s with
  | nil => exact .same
  | cons call calls ih =>
    have hcall := hstep s call List.mem_cons_self
    have hcalls := ih (fun s c hc => hstep s c (List.mem_cons_of_mem _ hc)) (step s call)
    have herrors : (failures step failure? s (call :: calls)).filterMap id =
        (failure? s call).toList ++ (failures step failure? (step s call) calls).filterMap id := by
      rw [failures, List.filterMap_cons]
      cases failure? s call <;> rfl
    rw [herrors]
    exact hcall.trans hcalls

/-- Calls leave the kind and the settings of a statement alone and only add to its registry. -/
theorem frame (h : d.Reports es d') :
    d'.kind = d.kind ∧ d'.settings = d.settings ∧ d'.registry.Extends d.registry := by
  induction h with
  | same => exact ⟨rfl, rfl, .refl _⟩
  | adopt _ hr ih => exact ⟨ih.1, ih.2.1, hr.trans ih.2.2⟩
  | reject _ _ ih => exact ih

end Reports

/-! ## Events -/

/-- The events so far are an alias for each entry of the registry and the listed errors, both in
their order. -/
structure Mirrors (es : List Error) (d : Draft) : Prop where
  assigned : d.journal.filterMap Event.assigned? = d.registry.entries.map Entry.assignment
  recorded : d.journal.filterMap Event.recorded? = es.map fun e => (d.kind, e)
  built : d.journal.filterMap Event.built? = []

namespace Mirrors

variable {d d' : Draft} {es fs : List Error}

theorem new (kind : StatementKind) (settings : Settings) : Mirrors [] (.new kind settings) :=
  ⟨rfl, rfl, rfl⟩

/-- The entries that a registry has in addition are the ones that are reported. -/
theorem adopt (h : Mirrors es d) {r : Registry} (hr : r.Extends d.registry) :
    Mirrors es (d.adopt r) := by
  have hentries : d.registry.entries.map Entry.assignment ++
      (r.entries.drop d.registry.entries.length).map Entry.assignment =
        r.entries.map Entry.assignment := by
    have htake := List.prefix_iff_eq_take.1 (hr.names_prefix.map fun n => (n.1.name, n.2.1))
    rw [List.map_map, List.map_map, List.length_map, ← List.map_take] at htake
    have hstart : d.registry.entries.map Entry.assignment =
        (r.entries.take d.registry.entries.length).map Entry.assignment := htake
    rw [hstart, ← List.map_append, List.take_append_drop]
  constructor
  · show (d.journal ++ _).filterMap _ = r.entries.map Entry.assignment
    rw [List.filterMap_append, h.assigned, List.filterMap_map, ← hentries]
    exact congrArg _ (congrFun List.filterMap_eq_map _)
  · show (d.journal ++ _).filterMap _ = _
    rw [List.filterMap_append, h.recorded, Event.filterMap_ofEntry fun _ => rfl, List.append_nil]
    rfl
  · show (d.journal ++ _).filterMap _ = _
    rw [List.filterMap_append, h.built, Event.filterMap_ofEntry fun _ => rfl, List.append_nil]

theorem reject (h : Mirrors es d) (e : Error) : Mirrors (es ++ [e]) (d.reject e) := by
  constructor
  · show (d.journal ++ [_]).filterMap _ = _
    rw [List.filterMap_append, h.assigned]
    exact List.append_nil _
  · show (d.journal ++ [_]).filterMap _ = _
    rw [List.filterMap_append, h.recorded, List.map_append]
    rfl
  · show (d.journal ++ [_]).filterMap _ = _
    rw [List.filterMap_append, h.built]
    rfl

/-- **What a chain of calls preserves**: the events mirror the registry and the errors. -/
theorem of_reports (h : Mirrors fs d) (hd : d.Reports es d') : Mirrors (fs ++ es) d' := by
  induction hd with
  | same =>
    rw [List.append_nil]
    exact h
  | adopt _ hr ih => exact ih.adopt hr
  | reject _ e ih =>
    rw [← List.append_assoc]
    exact ih.reject e

end Mirrors

end Draft

end SqlWright
