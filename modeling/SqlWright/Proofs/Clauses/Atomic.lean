import SqlWright.Proofs.Closed.Clauses
import SqlWright.Proofs.Filter.Requests

/-!
# Calls on joins and conditions

Joins and conditions are gathered call by call on one registry. A call that fails leaves both as
they were. Whether it leaves a trace in the registry depends on where it fails: a call that is
refused before it mentions a type leaves none, and a condition that cannot be written afterwards
leaves the entry of its type. No call touches the entries that are there. A call that does not fail
adds one join or one condition at the end.
-/

namespace SqlWright

open Outcome

/-! ## The registry -/

namespace Registry

variable {r r' : Registry} {t : MappedType}

/-- The second registry is the first one, or the first one with an entry behind all others for a
type that had none. -/
def Gains (r r' : Registry) (t : MappedType) : Prop :=
  r' = r ∨ (r.get? t = none ∧ r' = { r with entries := r.entries ++ [r.fresh t false] })

theorem gains_add (r : Registry) (t : MappedType) : r.Gains (r.add t false) t := by
  rw [Gains, add]
  cases r.get? t with
  | some e => exact .inl rfl
  | none => exact .inr ⟨rfl, rfl⟩

/-- The second registry has the entries of the first one in their places and no other primary
entry. -/
structure Keeps (r r' : Registry) : Prop where
  entries : r.entries <+: r'.entries
  primary : r'.primary? = r.primary?

theorem Keeps.refl (r : Registry) : r.Keeps r := ⟨List.prefix_rfl, rfl⟩

theorem Keeps.trans {r'' : Registry} (h : r.Keeps r') (h' : r'.Keeps r'') : r.Keeps r'' :=
  ⟨h.entries.trans h'.entries, h'.primary.trans h.primary⟩

theorem Gains.keeps (h : r.Gains r' t) : r.Keeps r' := by
  obtain rfl | ⟨-, rfl⟩ := h
  · exact .refl _
  · refine ⟨List.prefix_append _ _, ?_⟩
    rw [primary?, List.find?_append]
    exact Option.or_none

end Registry

/-! ## The fragments of a clause -/

namespace Conditions

/-- The conditions with the connectives between them, as the clause shows them. -/
def fragments : Conditions → List String
  | [] => []
  | (_, c) :: rest => c :: rest.flatMap fun (op, c) => [op.keyword, c]

theorem intercalate_tail (text : String) (cs : Conditions) :
    String.intercalate " " (text :: cs.flatMap fun (op, c) => [op.keyword, c]) =
      text ++ cs.tailText := by
  induction cs generalizing text with
  | nil =>
    rw [List.flatMap_nil, String.intercalate_singleton]
    exact String.append_empty.symm
  | cons c rest ih =>
    have hlist : ((c :: rest).flatMap fun (op, c) => [op.keyword, c]) =
        c.1.keyword :: c.2 :: rest.flatMap fun (op, c) => [op.keyword, c] := List.flatMap_cons
    rw [hlist, String.intercalate_cons_cons, String.intercalate_cons_cons, ih, tailText]
    simp only [String.append_assoc]

/-- The text of the clause is that of its fragments with blanks between them. -/
theorem text_eq_fragments (cs : Conditions) : cs.text = String.intercalate " " cs.fragments := by
  cases cs with
  | nil => rfl
  | cons c rest => exact (intercalate_tail c.2 rest).symm

/-- One more condition comes with its connective, unless it is the first. -/
theorem fragments_concat (cs : Conditions) (op : Connective) (text : String) :
    fragments (cs ++ [(op, text)]) =
      cs.fragments ++ (if cs.isEmpty then [] else [op.keyword]) ++ [text] := by
  cases cs with
  | nil => rfl
  | cons c rest => simp [fragments]

end Conditions

/-! ## Calls -/

/-- Joins and conditions that are gathered on one registry. -/
structure Clauses where
  registry : Registry
  joins : Joins
  conditions : Conditions

namespace Clauses

/-- A call that adds a join or a condition, under the settings of the moment. -/
inductive Call where
  | join (settings : Settings) (left right : MappedType) (condition : Expr) (kind : JoinKind)
  | crossJoin (settings : Settings) (left right : MappedType)
  | joinRaw (settings : Settings) (table : TableName) (condition : String) (kind : JoinKind)
  | addCondition (settings : Settings) (t : MappedType) (condition : Expr) (op : Connective)
  | addConditionRaw (condition : String) (op : Connective)

/-- The registry after a call, and the joins and conditions unless it fails. -/
def perform (s : Clauses) : Call → Registry × Outcome (Joins × Conditions)
  | .join settings left right condition kind =>
    let (r, joins) := s.joins.add settings s.registry left right condition kind
    (r, joins.map fun joins => (joins, s.conditions))
  | .crossJoin settings left right =>
    let (r, joins) := s.joins.addCross settings s.registry left right
    (r, joins.map fun joins => (joins, s.conditions))
  | .joinRaw settings table condition kind =>
    (s.registry, (s.joins.addRaw settings table condition kind).map fun joins =>
      (joins, s.conditions))
  | .addCondition settings t condition op =>
    let (r, conditions) := s.conditions.add settings s.registry t condition op
    (r, conditions.map fun conditions => (s.joins, conditions))
  | .addConditionRaw condition op => (s.registry, .ok (s.joins, s.conditions.addRaw condition op))

/-- The error that a call fails with. -/
def failure? (s : Clauses) (call : Call) : Option Error :=
  error? (s.perform call).2

/-- The clauses with what a call comes to. If it fails the joins and conditions stay as they are. -/
def settle (s : Clauses) : Registry × Outcome (Joins × Conditions) → Clauses
  | (r, .ok (joins, conditions)) => ⟨r, joins, conditions⟩
  | (r, .error _) => { s with registry := r }

/-- The clauses after a call. -/
def step (s : Clauses) (call : Call) : Clauses :=
  s.settle (s.perform call)

/-- The clauses after a chain of calls. -/
def run (s : Clauses) (calls : List Call) : Clauses :=
  calls.foldl step s

/-- The calls of a chain that do not fail. -/
def succeeded : Clauses → List Call → List Call
  | _, [] => []
  | s, call :: calls =>
    if (s.failure? call).isNone then call :: (s.step call).succeeded calls
    else (s.step call).succeeded calls

namespace Call

/-- The kind of the join that a call adds. -/
def kind? : Call → Option JoinKind
  | .join _ _ _ _ kind | .joinRaw _ _ _ kind => some kind
  | .crossJoin _ _ _ => some .cross
  | .addCondition _ _ _ _ | .addConditionRaw _ _ => none

/-- The connective of the condition that a call adds. -/
def connective? : Call → Option Connective
  | .addCondition _ _ _ op | .addConditionRaw _ op => some op
  | .join _ _ _ _ _ | .crossJoin _ _ _ | .joinRaw _ _ _ _ => none

/-- The type that a call mentions: the right one of two joined types, or that of the condition. -/
def mentioned? : Call → Option MappedType
  | .join _ _ t _ _ | .crossJoin _ _ t | .addCondition _ t _ _ => some t
  | .joinRaw _ _ _ _ | .addConditionRaw _ _ => none

/-- Why a call is refused before it mentions a type: a cross join with a condition, a join to a type
that is not mentioned, or a name that is no identifier. -/
def refusal? (r : Registry) : Call → Option Error
  | .join _ left _ _ kind =>
    if kind = .cross then some (.misuse .crossJoinCondition)
    else if (r.get? left).isNone then some (.unregistered (.type left.name)) else none
  | .crossJoin _ left _ =>
    if (r.get? left).isNone then some (.unregistered (.type left.name)) else none
  | .joinRaw _ table _ _ => error? table.text
  | .addCondition _ _ _ _ | .addConditionRaw _ _ => none

/-- What is wrong with the condition of a call, which is written after a type is mentioned: it does
not compile, or a condition other than that of a join has no text. -/
def conditionFault? (r : Registry) : Call → Option Error
  | .join settings left right condition _ =>
    error? (condition.compile ⟨r.add right false, [left, right], settings.enumMode⟩ false)
  | .addCondition settings t condition _ =>
    error? (Conditions.compiled settings r t condition)
  | .crossJoin _ _ _ | .joinRaw _ _ _ _ | .addConditionRaw _ _ => none

/-- The registry once a call has mentioned its type. -/
def extended (r : Registry) (call : Call) : Registry :=
  match call.mentioned? with
  | some t => r.add t false
  | none => r

end Call

/-- What a call can come to: it is refused, it fails at its condition when its type is mentioned, or
it adds one join or one condition. -/
inductive Effect (s : Clauses) (call : Call) : Registry × Outcome (Joins × Conditions) → Prop
  | refused {e : Error} : call.refusal? s.registry = some e → Effect s call (s.registry, .error e)
  | unfit {e : Error} {t : MappedType} : call.refusal? s.registry = none →
      call.conditionFault? s.registry = some e → call.mentioned? = some t →
      Effect s call (s.registry.add t false, .error e)
  | join {j : Join} : call.refusal? s.registry = none → call.conditionFault? s.registry = none →
      call.kind? = some j.kind →
      Effect s call (call.extended s.registry, .ok (s.joins ++ [j], s.conditions))
  | condition {op : Connective} {text : String} : call.refusal? s.registry = none →
      call.conditionFault? s.registry = none → call.connective? = some op →
      Effect s call (call.extended s.registry, .ok (s.joins, s.conditions ++ [(op, text)]))

variable {s : Clauses} {call : Call}

theorem join_effect (s : Clauses) (settings : Settings) (left right : MappedType)
    (condition : Expr) (kind : JoinKind) :
    Effect s (.join settings left right condition kind)
      (s.perform (.join settings left right condition kind)) := by
  rw [perform, Joins.add]
  by_cases hkind : kind = .cross
  · rw [if_pos hkind]
    exact .refused (if_pos hkind)
  rw [if_neg hkind]
  cases hleft : s.registry.get? left with
  | none => exact .refused (by rw [Call.refusal?, if_neg hkind, hleft]; rfl)
  | some entry =>
    have hrefusal : (Call.join settings left right condition kind).refusal? s.registry = none := by
      rw [Call.refusal?, if_neg hkind, hleft]
      rfl
    dsimp only
    cases hc : condition.compile
        ⟨s.registry.add right false, [left, right], settings.enumMode⟩ false with
    | error e => exact .unfit hrefusal (congrArg error? hc) rfl
    | ok text => exact .join hrefusal (congrArg error? hc) rfl

theorem crossJoin_effect (s : Clauses) (settings : Settings) (left right : MappedType) :
    Effect s (.crossJoin settings left right) (s.perform (.crossJoin settings left right)) := by
  rw [perform, Joins.addCross]
  cases hleft : s.registry.get? left with
  | none => exact .refused (by rw [Call.refusal?, hleft]; rfl)
  | some entry => exact .join (by rw [Call.refusal?, hleft]; rfl) rfl rfl

theorem joinRaw_effect (s : Clauses) (settings : Settings) (table : TableName)
    (condition : String) (kind : JoinKind) :
    Effect s (.joinRaw settings table condition kind)
      (s.perform (.joinRaw settings table condition kind)) := by
  rw [perform, Joins.addRaw]
  cases htable : table.text with
  | error e => exact .refused (congrArg error? htable)
  | ok name => exact .join (congrArg error? htable) rfl rfl

theorem addCondition_effect (s : Clauses) (settings : Settings) (t : MappedType)
    (condition : Expr) (op : Connective) :
    Effect s (.addCondition settings t condition op)
      (s.perform (.addCondition settings t condition op)) := by
  rw [perform, Conditions.add_eq]
  cases hc : Conditions.compiled settings s.registry t condition with
  | error e => exact .unfit rfl (congrArg error? hc) rfl
  | ok text => exact .condition rfl (congrArg error? hc) rfl

/-- **What a call comes to.** -/
theorem perform_effect (s : Clauses) (call : Call) : Effect s call (s.perform call) := by
  cases call with
  | join settings left right condition kind => exact s.join_effect ..
  | crossJoin settings left right => exact s.crossJoin_effect ..
  | joinRaw settings table condition kind => exact s.joinRaw_effect ..
  | addCondition settings t condition op => exact s.addCondition_effect ..
  | addConditionRaw condition op => exact .condition rfl rfl rfl

/-! ## One call and a chain of calls -/

theorem extended_keeps (call : Call) (r : Registry) : r.Keeps (call.extended r) := by
  rw [Call.extended]
  cases call.mentioned? with
  | none => exact .refl r
  | some t => exact (r.gains_add t).keeps

theorem step_keeps (s : Clauses) (call : Call) : s.registry.Keeps (s.step call).registry := by
  have h := s.perform_effect call
  rw [step]
  generalize s.perform call = result at h ⊢
  cases h with
  | refused _ => exact .refl _
  | unfit _ _ _ => exact (s.registry.gains_add _).keeps
  | join _ _ _ | condition _ _ _ => exact extended_keeps call s.registry

theorem failure?_eq (s : Clauses) (call : Call) :
    s.failure? call = (call.refusal? s.registry).or (call.conditionFault? s.registry) := by
  have h := s.perform_effect call
  rw [failure?]
  generalize s.perform call = result at h ⊢
  cases h with
  | refused hrefusal =>
    rw [hrefusal]
    rfl
  | unfit hrefusal hfault _ | join hrefusal hfault _ | condition hrefusal hfault _ =>
    rw [hrefusal, hfault]
    rfl

/-- **A call that fails** changes the registry at most, and only if it is not refused. -/
theorem step_of_failure (hfails : (s.failure? call).isSome = true) :
    (s.step call).joins = s.joins ∧ (s.step call).conditions = s.conditions ∧
      ((call.refusal? s.registry).isSome = true → (s.step call).registry = s.registry) ∧
      (call.refusal? s.registry = none →
        ∃ t, call.mentioned? = some t ∧ s.registry.Gains (s.step call).registry t) := by
  have h := s.perform_effect call
  rw [failure?] at hfails
  rw [step]
  generalize s.perform call = result at h hfails ⊢
  cases h with
  | refused hrefusal =>
    refine ⟨rfl, rfl, fun _ => rfl, fun hnone => ?_⟩
    rw [hrefusal] at hnone
    cases hnone
  | @unfit e t hrefusal _ hmentioned =>
    refine ⟨rfl, rfl, fun hsome => ?_, fun _ => ⟨t, hmentioned, s.registry.gains_add t⟩⟩
    rw [hrefusal] at hsome
    cases hsome
  | join _ _ _ | condition _ _ _ => cases hfails

/-- **A call that does not fail** adds one join or one condition. -/
theorem step_of_success (hok : s.failure? call = none) :
    (∃ join : Join, call.kind? = some join.kind ∧ (s.step call).joins = s.joins ++ [join] ∧
      (s.step call).conditions = s.conditions) ∨
    ∃ op text, call.connective? = some op ∧ (s.step call).joins = s.joins ∧
      (s.step call).conditions = s.conditions ++ [(op, text)] := by
  have h := s.perform_effect call
  rw [failure?] at hok
  rw [step]
  generalize s.perform call = result at h hok ⊢
  cases h with
  | refused _ | unfit _ _ _ => cases hok
  | @join j _ _ hkind => exact .inl ⟨j, hkind, rfl, rfl⟩
  | @condition op text _ _ hop => exact .inr ⟨op, text, hop, rfl, rfl⟩

theorem connective?_of_kind? {kind : JoinKind} (h : call.kind? = some kind) :
    call.connective? = none := by
  cases call <;> first | rfl | cases h

theorem kind?_of_connective? {op : Connective} (h : call.connective? = some op) :
    call.kind? = none := by
  cases call <;> first | rfl | cases h

/-- The joins and the conditions after a call, by their kinds and connectives. -/
theorem step_kinds (s : Clauses) (call : Call) :
    (s.step call).joins.map (·.kind) =
        s.joins.map (·.kind) ++ (s.succeeded [call]).filterMap Call.kind? ∧
      (s.step call).conditions.map (·.1) =
        s.conditions.map (·.1) ++ (s.succeeded [call]).filterMap Call.connective? := by
  rw [succeeded, succeeded]
  cases hfailure : s.failure? call with
  | some e =>
    obtain ⟨hjoins, hconditions, -⟩ := step_of_failure (Option.isSome_iff_exists.2 ⟨e, hfailure⟩)
    simp [hjoins, hconditions]
  | none =>
    rcases step_of_success hfailure with ⟨j, hkind, hjoins, hconditions⟩ |
      ⟨op, text, hop, hjoins, hconditions⟩
    · simp [hjoins, hconditions, hkind, connective?_of_kind? hkind]
    · simp [hjoins, hconditions, hop, kind?_of_connective? hop]

theorem succeeded_cons (s : Clauses) (call : Call) (calls : List Call) :
    s.succeeded (call :: calls) = s.succeeded [call] ++ (s.step call).succeeded calls := by
  rw [succeeded, succeeded, succeeded]
  split <;> rfl

/-- **What a chain of calls leaves**: the entries that were there, and a join or a condition of each
call that does not fail. -/
theorem run_kinds (s : Clauses) (calls : List Call) :
    s.registry.Keeps (s.run calls).registry ∧
      (s.run calls).joins.map (·.kind) =
        s.joins.map (·.kind) ++ (s.succeeded calls).filterMap Call.kind? ∧
      (s.run calls).conditions.map (·.1) =
        s.conditions.map (·.1) ++ (s.succeeded calls).filterMap Call.connective? := by
  induction calls generalizing s with
  | nil => exact ⟨.refl _, (List.append_nil _).symm, (List.append_nil _).symm⟩
  | cons call calls ih =>
    obtain ⟨hkeeps, hjoins, hconditions⟩ := ih (s.step call)
    obtain ⟨hjoin, hcondition⟩ := s.step_kinds call
    refine ⟨(s.step_keeps call).trans hkeeps, ?_, ?_⟩
    · rw [succeeded_cons, List.filterMap_append, ← List.append_assoc, ← hjoin]
      exact hjoins
    · rw [succeeded_cons, List.filterMap_append, ← List.append_assoc, ← hcondition]
      exact hconditions

/-- **Calls on joins and conditions fail as a whole.** After any chain of such calls, failing ones
among them, there is one join or condition for each call that did not fail, and the entries of the
registry stand as they stood at the start, with the same one primary. A further call fails just if
it is refused before it mentions a type, or if its condition cannot be written. If it fails, the
joins and conditions are what they were. If it is refused, so is the registry, and else the registry
has at most one more entry, that of the joined type or of the type of the condition. If it does not
fail, it adds one join, or one condition with its connective before it unless it is the first. -/
theorem run_atomic (start : Clauses) (calls : List Call) (call : Call) :
    let s := start.run calls
    let s' := s.step call
    start.registry.Keeps s.registry ∧
    s.joins.map (·.kind) =
      start.joins.map (·.kind) ++ (start.succeeded calls).filterMap Call.kind? ∧
    s.conditions.map (·.1) =
      start.conditions.map (·.1) ++ (start.succeeded calls).filterMap Call.connective? ∧
    s.conditions.text = String.intercalate " " s.conditions.fragments ∧
    s.failure? call = (call.refusal? s.registry).or (call.conditionFault? s.registry) ∧
    s.registry.Keeps s'.registry ∧
    ((s.failure? call).isSome = true → s'.joins = s.joins ∧ s'.conditions = s.conditions ∧
      ((call.refusal? s.registry).isSome = true → s'.registry = s.registry) ∧
      (call.refusal? s.registry = none →
        ∃ t, call.mentioned? = some t ∧ s.registry.Gains s'.registry t)) ∧
    (s.failure? call = none →
      (∃ join : Join, call.kind? = some join.kind ∧ s'.joins = s.joins ++ [join] ∧
        s'.conditions = s.conditions) ∨
      ∃ op text, call.connective? = some op ∧ s'.joins = s.joins ∧
        s'.conditions.fragments =
          s.conditions.fragments ++ (if s.conditions.isEmpty then [] else [op.keyword]) ++
            [text]) := by
  intro s s'
  obtain ⟨hkeeps, hjoins, hconditions⟩ := start.run_kinds calls
  refine ⟨hkeeps, hjoins, hconditions, s.conditions.text_eq_fragments, s.failure?_eq call,
    s.step_keeps call, step_of_failure, fun hok => ?_⟩
  refine (step_of_success hok).imp_right fun ⟨op, text, hop, hsame, hadded⟩ => ?_
  refine ⟨op, text, hop, hsame, ?_⟩
  rw [← s.conditions.fragments_concat op text, ← hadded]

/-- A join on what a captured record lacks, from a type that is mentioned and from one that is not. -/
example :
    let city : MappedType := ⟨"City", "City", none, [Column.plain "Id" "Id"]⟩
    let road : MappedType := ⟨"Road", "Road", none, [Column.plain "To" "To"]⟩
    let s : Clauses := ⟨(Registry.empty "dbo").add city true, [], []⟩
    let condition : Expr :=
      .binary .equal (.column road "To") (.member (.captured ⟨"Filter", []⟩) "to")
    let s' := s.step (.join .default city road condition .left)
    s'.joins = [] ∧ s'.registry.entries.map (·.aliasName) = ["t0", "t1"] ∧
      (s.step (.join .default road city condition .left)).registry = s.registry := by
  decide +kernel

end Clauses

/-! ## Queries -/

namespace Select

/-- The joins and conditions of a query, with its registry. -/
def gathered (q : Select) : Clauses :=
  ⟨q.draft.registry, q.joins, q.conditions⟩

/-- The call on joins or conditions that a call on a query is. -/
def Step.clauseCall? (settings : Settings) : Step → Option Clauses.Call
  | .join left right condition kind => some (.join settings left right condition kind)
  | .crossJoin left right => some (.crossJoin settings left right)
  | .joinRaw table condition kind => some (.joinRaw settings table condition kind)
  | .addCondition t condition op => some (.addCondition settings t condition op)
  | .addConditionRaw condition op => some (.addConditionRaw condition op)
  | .fromType _ | .selectAll _ | .selectItems _ _ | .selectEvery | .selectDistinct | .limit _
  | .addHints _ | .intoType _ | .intoTable _ | .groupBy _ _ _ | .orderBy _ _ _ => none

theorem gathered_joins (q : Select) (result : Registry × Outcome Joins) :
    let (draft, joins) := q.draft.acceptWith result q.joins
    gathered { q with draft, joins } =
      q.gathered.settle (result.1, result.2.map fun joins => (joins, q.conditions)) := by
  obtain ⟨r, _ | _⟩ := result
  · rfl
  · rfl

theorem gathered_conditions (q : Select) (result : Registry × Outcome Conditions) :
    let (draft, conditions) := q.draft.acceptWith result q.conditions
    gathered { q with draft, conditions } =
      q.gathered.settle (result.1, result.2.map fun conditions => (q.joins, conditions)) := by
  obtain ⟨r, _ | _⟩ := result
  · rfl
  · rfl

/-- A call on the joins or conditions of a query does to them and to the registry what it does to
them on their own, and fails alike. -/
theorem step_gathered (q : Select) {call : Step} {c : Clauses.Call}
    (h : call.clauseCall? q.draft.settings = some c) :
    (q.step call).gathered = q.gathered.step c ∧ q.failure? call = q.gathered.failure? c := by
  cases call with
  | join left right condition kind =>
    cases h
    exact ⟨q.gathered_joins _, (error?_map _ _).symm⟩
  | crossJoin left right =>
    cases h
    exact ⟨q.gathered_joins _, (error?_map _ _).symm⟩
  | joinRaw table condition kind =>
    cases h
    refine ⟨?_, ?_⟩
    · rw [step, joinRaw, Clauses.step, Clauses.perform]
      show gathered _ = q.gathered.settle (q.draft.registry,
        (q.joins.addRaw q.draft.settings table condition kind).map fun joins =>
          (joins, q.conditions))
      rw [Joins.addRaw]
      cases table.text <;> rfl
    · exact ((error?_map _ _).trans (error?_map _ _)).symm
  | addCondition t condition op =>
    cases h
    exact ⟨q.gathered_conditions _, (error?_map _ _).symm⟩
  | addConditionRaw condition op =>
    cases h
    exact ⟨rfl, rfl⟩
  | _ => cases h

end Select

end SqlWright
