import SqlWright.Proofs.Failure.Calls

/-!
# Requested conditions

Which conditions the calls on a statement ask for, said without looking at what the statement holds:
each call with a condition has a connective and either a text or the reason why there is none. The
conditions that a statement holds after a chain of calls are the texts that were asked for, in the
order of the calls. Nothing is asked for in vain unless the statement records an error.
-/

namespace SqlWright

open Outcome Text

/-- What a call asks for: a connective and the text of a condition, or why there is no text. -/
abbrev Request := Connective × Outcome String

/-! ## Conditions -/

namespace Conditions

/-- The text of a condition on a type, which is mentioned first. The empty text is refused. -/
def compiled (settings : Settings) (r : Registry) (t : MappedType) (condition : Expr) :
    Outcome String := do
  let text ← condition.compile ⟨r.add t false, [t], settings.enumMode⟩ false
  if text = "" then .error (.misuse .emptyCondition) else .ok text

variable {cs : Conditions} {settings : Settings} {r : Registry} {t : MappedType}
  {condition : Expr}

theorem compiled_eq_ok {text : String} (h : compiled settings r t condition = .ok text) :
    condition.compile ⟨r.add t false, [t], settings.enumMode⟩ false = .ok text ∧ text ≠ "" := by
  obtain ⟨text, htext, h⟩ := bind_eq_ok.1 h
  split at h
  · cases h
  · next hne =>
    cases h
    exact ⟨htext, hne⟩

/-- A typed condition is added as its text would be. -/
theorem add_eq (cs : Conditions) (settings : Settings) (r : Registry) (t : MappedType)
    (condition : Expr) (op : Connective) :
    cs.add settings r t condition op =
      (r.add t false, (compiled settings r t condition).map fun text => cs.addRaw text op) := by
  rw [add, compiled]
  cases condition.compile ⟨r.add t false, [t], settings.enumMode⟩ false with
  | error e => rfl
  | ok text =>
    simp only [ok_bind]
    split <;> rfl

/-- The conditions as a statement holds them, each in parentheses. -/
def held (asked : Conditions) : Conditions :=
  asked.map fun c => (c.1, grouped c.2)

/-- The requests that come with these texts. -/
def asRequests (asked : Conditions) : List Request :=
  asked.map fun c => (c.1, .ok c.2)

/-- The texts that some requests come with. -/
def granted (requests : List Request) : Conditions :=
  requests.filterMap fun r => r.2.toOption.map fun text => (r.1, text)

theorem granted_append (some more : List Request) :
    granted (some ++ more) = granted some ++ granted more :=
  List.filterMap_append

theorem mem_of_mem_granted {requests : List Request} {c : Connective × String}
    (h : c ∈ granted requests) : (c.1, .ok c.2) ∈ requests := by
  obtain ⟨⟨op, answer⟩, hr, hc⟩ := List.mem_filterMap.1 h
  cases answer with
  | error e => cases hc
  | ok text =>
    cases hc
    exact hr

/-- If every request comes with a text, the requests are these texts. -/
theorem eq_granted {requests : List Request} (h : ∀ r ∈ requests, error? r.2 = none) :
    requests = (granted requests).asRequests := by
  induction requests with
  | nil => rfl
  | cons r requests ih =>
    obtain ⟨hr, hrest⟩ := List.forall_mem_cons.1 h
    obtain ⟨op, answer⟩ := r
    cases answer with
    | error e => cases hr
    | ok text => exact congrArg ((op, .ok text) :: ·) (ih hrest)

theorem opensGroup_grouped (text : String) : opensGroup (grouped text) = true := by
  rw [grouped]
  split
  · assumption
  · simp [opensGroup, parenthesized]

/-- Conditions that a statement holds make a text that starts with a parenthesis. -/
theorem opensGroup_text {asked : Conditions} (h : asked ≠ []) :
    opensGroup (Conditions.text (held asked)) = true := by
  obtain ⟨c, rest, rfl⟩ := List.exists_cons_of_ne_nil h
  show opensGroup (grouped c.2 ++ tailText (held rest)) = true
  have hfirst := opensGroup_grouped c.2
  rw [opensGroup, beq_iff_eq, List.head?_eq_some_iff] at hfirst
  obtain ⟨more, hmore⟩ := hfirst
  rw [opensGroup, String.toList_append, hmore]
  rfl

end Conditions

/-! ## Chains of calls -/

section Chains

variable {State Call : Type} {step : State → Call → State}
  {request? : State → Call → Option Request} {failure? : State → Call → Option Error}

/-- The conditions that the calls of a chain ask for, each at the state that the calls before it
lead to. -/
def requests (step : State → Call → State) (request? : State → Call → Option Request) :
    State → List Call → List Request
  | _, [] => []
  | s, call :: calls => (request? s call).toList ++ requests step request? (step s call) calls

theorem exists_of_mem_requests {s : State} {calls : List Call} {r : Request}
    (h : r ∈ requests step request? s calls) : ∃ s, ∃ call ∈ calls, request? s call = some r := by
  induction calls generalizing s with
  | nil => cases h
  | cons call calls ih =>
    rcases List.mem_append.1 h with h | h
    · exact ⟨s, call, List.mem_cons_self, Option.mem_toList.1 h⟩
    · obtain ⟨s, other, hother, hr⟩ := ih h
      exact ⟨s, other, List.mem_cons_of_mem _ hother, hr⟩

theorem exists_of_mem_asked {s : State} {calls : List Call} {asked : Conditions}
    (h : requests step request? s calls = asked.asRequests) {c : Connective × String}
    (hc : c ∈ asked) : ∃ s, ∃ call ∈ calls, request? s call = some (c.1, .ok c.2) := by
  have hmem : (c.1, .ok c.2) ∈ requests step request? s calls := by
    rw [h]
    exact List.mem_map_of_mem hc
  exact exists_of_mem_requests hmem

/-- If each call adds what it asks for, a chain of calls does so too. -/
theorem conditions_foldl (conditions : State → Conditions)
    (hstep : ∀ s call, conditions (step s call) =
      conditions s ++ .held (.granted (request? s call).toList)) (s : State) (calls : List Call) :
    conditions (calls.foldl step s) =
      conditions s ++ .held (.granted (requests step request? s calls)) := by
  induction calls generalizing s with
  | nil => exact (List.append_nil _).symm
  | cons call calls ih =>
    rw [List.foldl_cons, ih, hstep, requests, Conditions.granted_append, Conditions.held,
      Conditions.held, Conditions.held, List.map_append, List.append_assoc]

/-- If a call fails whenever it asks for something that has no text, then in a chain without a
failure all requests have texts. -/
theorem requests_granted (hfailure : ∀ s call r, request? s call = some r →
    failure? s call = error? r.2) {s : State} {calls : List Call}
    (h : firstFailure? step failure? s calls = none) :
    ∀ r ∈ requests step request? s calls, error? r.2 = none := by
  induction calls generalizing s with
  | nil => exact List.forall_mem_nil _
  | cons call calls ih =>
    have hfirst : (failure? s call).or (firstFailure? step failure? (step s call) calls) = none :=
      (findSome?_id_cons _ _).symm.trans h
    obtain ⟨hcall, hcalls⟩ := Option.or_eq_none_iff.1 hfirst
    refine List.forall_mem_append.2 ⟨fun r hr => ?_, ih hcalls⟩
    rw [← hfailure s call r (Option.mem_toList.1 hr)]
    exact hcall

end Chains

/-! ## Statements that have conditions -/

/-- A statement takes over the text that it is asked to hold, if there is one. -/
theorem Draft.accept_request (d : Draft) (cs : Conditions) (op : Connective)
    (answer : Outcome String) :
    (d.accept (answer.map fun text => cs.addRaw text op) cs).2 =
      cs ++ .held (.granted [(op, answer)]) := by
  cases answer with
  | error e => exact (List.append_nil cs).symm
  | ok text => rfl

namespace Update

/-- The condition that a call on an UPDATE statement asks for. -/
def request? (s : Update) : Step → Option Request
  | .addCondition t condition op =>
    some (op, Conditions.compiled s.draft.settings s.draft.registry t condition)
  | .addConditionRaw text op => some (op, .ok text)
  | .target _ | .limit _ | .addHints _ | .addItem _ _ | .addItems _ _ | .addValues _
  | .setValue _ _ => none

/-- The conditions that a chain of calls on an UPDATE statement asks for. -/
def requests (s : Update) (calls : List Step) : List Request :=
  SqlWright.requests step request? s calls

theorem addItems_conditions (s : Update) (t : MappedType) (items : List (Record Field)) :
    (s.addItems t items).conditions = s.conditions := by
  induction items generalizing s with
  | nil => rfl
  | cons item items ih => exact ih (s.addItem t item)

theorem step_conditions (s : Update) (call : Step) :
    (s.step call).conditions = s.conditions ++ .held (.granted (s.request? call).toList) := by
  cases call with
  | addCondition t condition op =>
    show (s.draft.acceptWith (s.conditions.add s.draft.settings s.draft.registry t condition op)
      s.conditions).2 = _
    rw [Conditions.add_eq]
    exact Draft.accept_request _ _ _ _
  | addConditionRaw text op => rfl
  | addItems t items =>
    exact (s.addItems_conditions t items).trans (List.append_nil _).symm
  | target _ | limit _ | addHints _ | addItem _ _ | addValues _ | setValue _ _ =>
    exact (List.append_nil _).symm

theorem failure?_of_request? {s : Update} {call : Step} {r : Request}
    (h : s.request? call = some r) : s.failure? call = error? r.2 := by
  cases call with
  | addCondition t condition op =>
    cases h
    rw [failure?, Conditions.add_eq, error?_map]
  | addConditionRaw text op =>
    cases h
    rfl
  | target _ | limit _ | addHints _ | addItem _ _ | addItems _ _ | addValues _ | setValue _ _ =>
    cases h

/-- A statement without an error holds all the conditions that it was asked to hold, and no others
but those it had. -/
theorem run_conditions {s : Update} {calls : List Step} (h : (s.run calls).draft.fault = none) :
    ∃ asked : Conditions, s.requests calls = asked.asRequests ∧
      (s.run calls).conditions = s.conditions ++ asked.held := by
  rw [run_fault, Option.or_eq_none_iff] at h
  have hgranted := requests_granted (fun _ _ _ => failure?_of_request?) h.2
  exact ⟨_, Conditions.eq_granted hgranted, conditions_foldl (·.conditions) step_conditions s calls⟩

end Update

namespace Delete

/-- The condition that a call on a DELETE statement asks for. -/
def request? (s : Delete) : Step → Option Request
  | .addCondition t condition op =>
    some (op, Conditions.compiled s.draft.settings s.draft.registry t condition)
  | .addConditionRaw text op => some (op, .ok text)
  | .addItem t item op => some (op, itemCondition s.draft.settings t item)
  | .target _ | .limit _ | .addHints _ | .allowAll => none

/-- The conditions that a chain of calls on a DELETE statement asks for. -/
def requests (s : Delete) (calls : List Step) : List Request :=
  SqlWright.requests step request? s calls

theorem step_conditions (s : Delete) (call : Step) :
    (s.step call).conditions = s.conditions ++ .held (.granted (s.request? call).toList) := by
  cases call with
  | addCondition t condition op =>
    show (s.draft.acceptWith (s.conditions.add s.draft.settings s.draft.registry t condition op)
      s.conditions).2 = _
    rw [Conditions.add_eq]
    exact Draft.accept_request _ _ _ _
  | addConditionRaw text op => rfl
  | addItem t item op => exact Draft.accept_request _ _ _ _
  | target _ | limit _ | addHints _ | allowAll => exact (List.append_nil _).symm

theorem failure?_of_request? {s : Delete} {call : Step} {r : Request}
    (h : s.request? call = some r) : s.failure? call = error? r.2 := by
  cases call with
  | addCondition t condition op =>
    cases h
    rw [failure?, Conditions.add_eq, error?_map]
  | addConditionRaw text op =>
    cases h
    rfl
  | addItem t item op =>
    cases h
    rfl
  | target _ | limit _ | addHints _ | allowAll => cases h

/-- A statement without an error holds all the conditions that it was asked to hold, and no others
but those it had. -/
theorem run_conditions {s : Delete} {calls : List Step} (h : (s.run calls).draft.fault = none) :
    ∃ asked : Conditions, s.requests calls = asked.asRequests ∧
      (s.run calls).conditions = s.conditions ++ asked.held := by
  rw [run_fault, Option.or_eq_none_iff] at h
  have hgranted := requests_granted (fun _ _ _ => failure?_of_request?) h.2
  exact ⟨_, Conditions.eq_granted hgranted, conditions_foldl (·.conditions) step_conditions s calls⟩

end Delete

end SqlWright
