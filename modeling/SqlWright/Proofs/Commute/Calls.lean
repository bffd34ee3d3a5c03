import SqlWright.Proofs.Commute.Clauses

/-!
# Calls in another order

Two calls that follow each other on different clauses of a query can change places, and so can two
calls that add hints, if the types they name are mentioned already. What differs afterwards are the
order of the errors and events only. The rest of the chain does not notice, so it makes no
difference to whether the query is finished and to its text.
-/

namespace SqlWright

open Outcome Draft

/-! ## Hints -/

namespace Hints

theorem contains_insert (hs : Hints) (h g : Hint) :
    (hs.insert h).members.contains g = (g == h || hs.members.contains g) := by
  have hall : g ∈ Hint.all := by cases g <;> decide
  rw [Bool.eq_iff_iff, List.contains_iff_mem, insert, List.mem_filter]
  exact and_iff_right hall

theorem insert_comm (hs : Hints) (h g : Hint) :
    (hs.insert h).insert g = (hs.insert g).insert h := by
  refine congrArg (fun f => Hints.mk (Hint.all.filter f)) (funext fun k => ?_)
  rw [contains_insert, contains_insert, Bool.or_left_comm]

/-- Sets of hints take in two lists of hints in either order. -/
theorem insertAll_comm (hs : Hints) (some others : List Hint) :
    (hs.insertAll some).insertAll others = (hs.insertAll others).insertAll some := by
  rw [insertAll, insertAll, insertAll, insertAll, ← List.foldl_append, ← List.foldl_append]
  exact List.perm_append_comm.foldl_eq' (fun g _ h _ hs => hs.insert_comm g h) hs

end Hints

namespace Select

/-! ## The registry -/

/-- The registry after a call. -/
def registryAfter (q : Select) : Step → Registry
  | .fromType t => q.draft.registry.add t true
  | .selectAll t | .selectItems t _ | .addCondition t _ _ | .orderBy t _ _ =>
    q.draft.registry.add t false
  | .join left right condition kind =>
    (q.joins.add q.draft.settings q.draft.registry left right condition kind).1
  | .crossJoin left right => (q.joins.addCross q.draft.settings q.draft.registry left right).1
  | .groupBy t _ _ =>
    if q.group.isSome then q.draft.registry else q.draft.registry.add t false
  | .selectEvery | .selectDistinct | .limit _ | .addHints _ | .intoType _ | .intoTable _
  | .joinRaw _ _ _ | .addConditionRaw _ _ => q.draft.registry

theorem step_registry (q : Select) (call : Step) :
    (q.step call).draft.registry = q.registryAfter call := by
  cases call with
  | selectAll t => rw [step, selectAll, addColumns_draft]; rfl
  | selectItems t items => exact (q.selectItems_frame t items).1
  | selectEvery => rw [step, selectEvery, addColumns_draft]; rfl
  | intoTable name => exact accept_registry _ _ _
  | join left right condition kind => exact acceptWith_registry _ _ _
  | crossJoin left right => exact acceptWith_registry _ _ _
  | joinRaw table condition kind => exact accept_registry _ _ _
  | addCondition t condition op => exact acceptWith_registry _ _ _
  | groupBy t g having =>
    rw [step, groupBy, registryAfter]
    split
    · rfl
    · exact accept_registry _ _ _
  | orderBy t key direction => exact accept_registry _ _ _
  | fromType _ | selectDistinct | limit _ | addHints _ | intoType _ | addConditionRaw _ _ => rfl

/-- A call that names mentioned types only leaves the registry as it is. -/
theorem registryAfter_of_mentioned {q : Select} {call : Step}
    (h : ∀ t ∈ call.types, (q.draft.registry.get? t).isSome = true) :
    q.registryAfter call = q.draft.registry := by
  have hadd (t : MappedType) (ht : t ∈ call.types) (primary : Bool) :
      q.draft.registry.add t primary = q.draft.registry := by
    obtain ⟨e, he⟩ := Option.isSome_iff_exists.1 (h t ht)
    exact (Registry.add_of_get? he).1
  cases call with
  | fromType t | selectAll t | selectItems t items | addCondition t condition op
  | orderBy t key direction => exact hadd t List.mem_cons_self _
  | join left right condition kind =>
    have hright := hadd right (List.mem_cons_of_mem _ List.mem_cons_self) false
    rw [registryAfter, Joins.add]
    split
    · rfl
    · split
      · rfl
      · exact hright
  | crossJoin left right =>
    have hright := hadd right (List.mem_cons_of_mem _ List.mem_cons_self) false
    rw [registryAfter, Joins.addCross]
    split
    · rfl
    · exact hright
  | groupBy t g having =>
    rw [registryAfter, hadd t List.mem_cons_self, ite_self]
  | selectEvery | selectDistinct | limit _ | addHints _ | intoType _ | intoTable _ | joinRaw _ _ _
  | addConditionRaw _ _ => rfl

/-! ## Queries that differ in their errors and events -/

/-- The query without its first error and without its events. -/
def quiet (q : Select) : Select :=
  q.on q.draft.quiet

variable {p q : Select}

theorem clause_quiet (q : Select) (c : Clause) : q.quiet.clause c = q.clause c := by
  cases c <;> rfl

theorem quiet_eq_iff :
    p.quiet = q.quiet ↔ p.draft.quiet = q.draft.quiet ∧ ∀ c, p.clause c = q.clause c := by
  constructor
  · intro h
    refine ⟨congrArg Select.draft h, fun c => ?_⟩
    rw [← p.clause_quiet, h, q.clause_quiet]
  · rintro ⟨hdraft, hclauses⟩
    rw [eq_on_of_clauses hclauses]
    exact congrArg q.on hdraft

theorem registryAfter_quiet (q : Select) (call : Step) :
    q.quiet.registryAfter call = q.registryAfter call := by
  cases call <;> rfl

theorem subquery_quiet (h : q.draft.fault = none) : q.quiet.subquery = q.subquery := by
  rw [subquery, subquery, finish, finish, h]
  rfl

theorem step_draft_quiet (q : Select) (call : Step) :
    (q.step call).draft.quiet = { q.draft.quiet with registry := q.registryAfter call } := by
  rw [← step_registry]
  exact (run_reports q [call]).quiet

theorem step_quiet_of_mentioned {call : Step}
    (h : ∀ t ∈ call.types, (q.draft.registry.get? t).isSome = true) :
    (q.step call).draft.quiet = q.draft.quiet := by
  rw [step_draft_quiet, registryAfter_of_mentioned h]
  rfl

/-- A call does the same to queries that differ in their errors and events only. -/
theorem quiet_step (h : p.quiet = q.quiet) (call : Step) :
    (p.step call).quiet = (q.step call).quiet := by
  obtain ⟨hdraft, hclauses⟩ := quiet_eq_iff.1 h
  refine quiet_eq_iff.2 ⟨?_, fun c => ?_⟩
  · rw [step_draft_quiet, step_draft_quiet, hdraft, ← p.registryAfter_quiet, h,
      q.registryAfter_quiet]
  · by_cases hc : call.clause? = some c
    · exact (step_local hdraft hc (hclauses c)).1
    · rw [step_clause p call hc, step_clause q call hc, hclauses c]

theorem failure?_of_quiet (h : p.quiet = q.quiet) (call : Step) :
    p.failure? call = q.failure? call := by
  obtain ⟨hdraft, hclauses⟩ := quiet_eq_iff.1 h
  cases hc : call.clause? with
  | some c => exact (step_local hdraft hc (hclauses c)).2
  | none => cases call <;> first | rfl | cases hc

/-- Two queries are the same but for their errors and events, and none or both have an error. -/
structure Alike (p q : Select) : Prop where
  quiet : p.quiet = q.quiet
  fault : p.draft.fault.isSome = q.draft.fault.isSome

namespace Alike

theorem step (h : p.Alike q) (call : Step) : (p.step call).Alike (q.step call) := by
  refine ⟨quiet_step h.quiet call, ?_⟩
  rw [step_fault, step_fault, failure?_of_quiet h.quiet, Option.isSome_or, Option.isSome_or,
    h.fault]

/-- **The rest of a chain** does not notice. -/
theorem run (h : p.Alike q) (calls : List Step) : (p.run calls).Alike (q.run calls) := by
  induction calls generalizing p q with
  | nil => exact h
  | cons call calls ih => exact ih (h.step call)

/-- Such queries give the same text, or none. -/
theorem build (h : p.Alike q) : p.build.toOption = q.build.toOption := by
  have hfault := h.fault
  cases hq : q.draft.fault with
  | some e =>
    rw [hq] at hfault
    obtain ⟨f, hp⟩ := Option.isSome_iff_exists.1 hfault
    rw [build_of_fault hp, build_of_fault hq]
    rfl
  | none =>
    rw [hq] at hfault
    have hp : p.draft.fault = none :=
      Option.isNone_iff_eq_none.1 (Option.isSome_eq_false_iff.1 hfault)
    rw [Select.build, Select.build, ← subquery_quiet hp, h.quiet, subquery_quiet hq]

end Alike

/-! ## Two calls -/

theorem addHints_of_clause? {call : Step} (h : call.clause? = some .hints) :
    ∃ hints, call = .addHints hints := by
  cases call with
  | addHints hints => exact ⟨hints, rfl⟩
  | _ => cases h

/-- What two calls on different clauses lead to. -/
theorem step_step {a b : Step} {g h : Clause} (ha : a.clause? = some g) (hb : b.clause? = some h)
    (hgh : g ≠ h) (hta : ∀ t ∈ a.types, (q.draft.registry.get? t).isSome = true)
    (htb : ∀ t ∈ b.types, (q.draft.registry.get? t).isSome = true) :
    ((q.step a).step b).draft.quiet = q.draft.quiet ∧
      ((q.step a).step b).draft.fault =
        (q.draft.fault.or (q.failure? a)).or (q.failure? b) ∧
      ((q.step a).step b).clause g = (q.step a).clause g ∧
      ((q.step a).step b).clause h = (q.step b).clause h ∧
      ∀ c, c ≠ g → c ≠ h → ((q.step a).step b).clause c = q.clause c := by
  have hag : a.clause? ≠ some h := by
    rw [ha]
    exact fun h => hgh (Option.some.inj h)
  have hbg : b.clause? ≠ some g := by
    rw [hb]
    exact fun h => hgh (Option.some.inj h).symm
  have hquiet := step_quiet_of_mentioned hta
  obtain ⟨hclause, hfailure⟩ := step_local hquiet hb (q.step_clause a hag)
  refine ⟨?_, ?_, (q.step a).step_clause b hbg, hclause, fun c hcg hch => ?_⟩
  · refine (step_quiet_of_mentioned fun t ht => ?_).trans hquiet
    rw [registry_of_quiet hquiet]
    exact htb t ht
  · rw [step_fault, step_fault, hfailure]
  · rw [step_clause, step_clause]
    · rw [ha]
      exact fun h => hcg (Option.some.inj h).symm
    · rw [hb]
      exact fun h => hch (Option.some.inj h).symm

/-- **Two calls in either order.** -/
theorem step_swap {a b : Step} {g h : Clause} (ha : a.clause? = some g) (hb : b.clause? = some h)
    (hgh : g = h → g = .hints)
    (hta : ∀ t ∈ a.types, (q.draft.registry.get? t).isSome = true)
    (htb : ∀ t ∈ b.types, (q.draft.registry.get? t).isSome = true) :
    ((q.step a).step b).Alike ((q.step b).step a) := by
  by_cases heq : g = h
  · obtain ⟨some, rfl⟩ := addHints_of_clause? (hgh heq ▸ ha)
    obtain ⟨others, rfl⟩ := addHints_of_clause? (hgh heq ▸ heq ▸ hb)
    have hswap : (q.step (.addHints some)).step (.addHints others) =
        (q.step (.addHints others)).step (.addHints some) :=
      congrArg (fun hs => { q with hints := hs }) (q.hints.insertAll_comm some others)
    rw [hswap]
    exact ⟨rfl, rfl⟩
  · obtain ⟨hdraft, hfault, hclause_g, hclause_h, hclauses⟩ := step_step ha hb heq hta htb
    obtain ⟨hdraft', hfault', hclause_h', hclause_g', hclauses'⟩ :=
      step_step hb ha (Ne.symm heq) htb hta
    constructor
    · refine quiet_eq_iff.2 ⟨hdraft.trans hdraft'.symm, fun c => ?_⟩
      by_cases hg : c = g
      · rw [hg, hclause_g, hclause_g']
      · by_cases hh : c = h
        · rw [hh, hclause_h, hclause_h']
        · rw [hclauses c hg hh, hclauses' c hh hg]
    · rw [hfault, hfault']
      simp only [Option.isSome_or, Bool.or_assoc, Bool.or_comm (q.failure? a).isSome]

/-- **Calls on different clauses commute.** In a chain of calls on a query, in whatever state, two
calls that follow each other may change places if they are on different clauses or both add hints,
and if the types they name are mentioned before. Whatever calls come after them, in both orders the
query is finished with the same text, or is not finished. -/
theorem build_swap (q : Select) {a b : Step} {g h : Clause} (ha : a.clause? = some g)
    (hb : b.clause? = some h) (hgh : g = h → g = .hints)
    (ht : ∀ t ∈ a.types ++ b.types, (q.draft.registry.get? t).isSome = true) (rest : List Step) :
    (q.run (a :: b :: rest)).build.toOption = (q.run (b :: a :: rest)).build.toOption := by
  rw [List.forall_mem_append] at ht
  exact ((step_swap ha hb hgh ht.1 ht.2).run rest).build

/-- A join and a sort key of the joined table, and two calls that add hints. -/
theorem build_swap_join :
    let city : MappedType := ⟨"City", "City", none, [Column.plain "Id" "Id"]⟩
    let road : MappedType := ⟨"Road", "Road", none, [Column.plain "To" "To"]⟩
    let q := (ofType .default city).selectAll road
    let join : Step :=
      .join city road (.binary .equal (.column city "Id") (.column road "To")) .inner
    let sort : Step := .orderBy road (.column road "To") .descending
    let lock : Step := .addHints [.updLock, .noLock]
    let rows : Step := .addHints [.rowLock, .noLock]
    let text := "SELECT t1.[To] FROM [dbo].[City] [t0] WITH (NOLOCK,UPDLOCK,ROWLOCK) " ++
      "INNER JOIN [dbo].[Road] [t1] WITH (NOLOCK) ON (t0.[Id] = t1.[To]) ORDER BY t1.[To] DESC;"
    (∀ t ∈ join.types ++ sort.types, (q.draft.registry.get? t).isSome = true) ∧
    (q.run [join, sort, lock, rows]).build.toOption = some text ∧
    (q.run [sort, join, lock, rows]).build.toOption = some text ∧
    (q.run [lock, rows, join, sort]).build.toOption =
      (q.run [rows, lock, join, sort]).build.toOption := by
  intro city road q join sort lock rows text
  have htypes : ∀ t ∈ join.types ++ sort.types, (q.draft.registry.get? t).isSome = true := by
    decide
  have hhints : ∀ t ∈ lock.types ++ rows.types, (q.draft.registry.get? t).isSome = true := by
    decide
  have hbuild : (q.run [join, sort, lock, rows]).build.toOption = some text := by
    decide +kernel
  have hswap := build_swap q (g := .joins) (h := .order) (a := join) (b := sort) rfl rfl
    (fun h => nomatch h) htypes [lock, rows]
  refine ⟨htypes, hbuild, hswap.symm.trans hbuild, ?_⟩
  exact build_swap q (g := .hints) (h := .hints) rfl rfl (fun _ => rfl) hhints _

end Select

end SqlWright
