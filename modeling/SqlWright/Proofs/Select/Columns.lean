import SqlWright.Proofs.Commute.Calls

/-!
# The selected columns

Three kinds of calls add to the columns of a query: all columns of a type, expressions on a type,
and all columns of all types that are mentioned by then. Whatever else is called in between, the
columns are the texts that these calls offer, each where it is offered first. So such a call that is
made twice in a row does nothing the second time: the types that it names are mentioned, its texts
are there, and an error that it fails with is recorded already.
-/

namespace SqlWright

open Outcome Draft

/-! ## Lists without repetitions -/

section Repetitions

variable {l more : List String}

theorem eraseDups_concat (l : List String) (text : String) :
    (l ++ [text]).eraseDups = if text ∈ l then l.eraseDups else l.eraseDups ++ [text] := by
  rw [List.eraseDups_append, List.cons_removeAll, List.nil_removeAll]
  by_cases h : text ∈ l
  · rw [List.contains_iff_mem.2 h, if_pos h]
    exact List.append_nil _
  · rw [Bool.eq_false_iff.2 (mt List.contains_iff_mem.1 h), if_neg h]
    rfl

theorem nodup_eraseDups (l : List String) : l.eraseDups.Nodup := by
  induction l using List.reverseRecOn with
  | nil => exact List.nodup_nil
  | append_singleton l text ih =>
    rw [eraseDups_concat]
    split
    · exact ih
    · next h =>
      rw [← List.concat_eq_append]
      exact ih.concat (mt List.mem_eraseDups.1 h)

/-- What stands in a list already is not put behind it. -/
theorem eraseDups_append_of_subset (h : more ⊆ l) : (l ++ more).eraseDups = l.eraseDups := by
  have hnone : more.removeAll l = [] :=
    List.filter_eq_nil_iff.2 fun text htext => by simpa using h htext
  rw [List.eraseDups_append, hnone, List.eraseDups_nil, List.append_nil]

end Repetitions

/-! ## What a call offers -/

/-- The text of an expression on a type that is mentioned, unless it does not compile or the text is
empty. -/
def Draft.columnText? (d : Draft) (t : MappedType) (e : Expr) : Option String :=
  (d.compile t true e).toOption.filter fun text => text ≠ ""

namespace Select

/-- The texts that a call offers as columns, in their order. A type is mentioned before its columns
and the expressions on it are written. -/
def offers (q : Select) : Step → List String
  | .selectAll t => ((q.mention t).draft.registry.entry t false).qualifiedColumns
  | .selectItems t items => items.filterMap ((q.mention t).draft.columnText? t)
  | .selectEvery => q.draft.registry.qualifiedColumns
  | .fromType _ | .selectDistinct | .limit _ | .addHints _ | .intoType _ | .intoTable _
  | .join _ _ _ _ | .crossJoin _ _ | .joinRaw _ _ _ | .addCondition _ _ _ | .addConditionRaw _ _
  | .groupBy _ _ _ | .orderBy _ _ _ => []

/-- All texts that a chain of calls offers, each call at the query that the calls before it lead
to. -/
def offered : Select → List Step → List String
  | _, [] => []
  | q, call :: calls => q.offers call ++ (q.step call).offered calls

variable {p q : Select} {l : List String} {call : Step} {t : MappedType}

/-! ## The columns after a call -/

theorem addColumn_eraseDups (h : q.columns = l.eraseDups) (text : String) :
    (q.addColumn text).columns = (l ++ [text]).eraseDups := by
  have hmem : q.columns.contains text = true ↔ text ∈ l := by
    rw [h, List.contains_iff_mem, List.mem_eraseDups]
  rw [addColumn, eraseDups_concat]
  by_cases htext : text ∈ l
  · rw [if_pos (hmem.2 htext), if_pos htext, h]
  · rw [if_neg (mt hmem.1 htext), if_neg htext, h]

theorem addColumns_eraseDups (h : q.columns = l.eraseDups) (texts : List String) :
    (q.addColumns texts).columns = (l ++ texts).eraseDups := by
  induction texts generalizing q l with
  | nil => rwa [List.append_nil]
  | cons text texts ih =>
    rw [List.append_cons]
    exact ih (addColumn_eraseDups h text)

theorem selectItem_columns_eq (q : Select) (t : MappedType) (e : Expr) :
    (q.selectItem t e).columns = (q.addColumns (q.draft.columnText? t e).toList).columns := by
  rw [selectItem, columnText?]
  cases q.draft.compile t true e with
  | error fault => rfl
  | ok text =>
    show (if text = "" then q else q.addColumn text).columns =
      (q.addColumns ((some text).filter fun text => text ≠ "").toList).columns
    by_cases h : text = ""
    · rw [if_pos h, Option.filter_some_neg (by simpa using h)]
      rfl
    · rw [if_neg h, Option.filter_some_pos (by simpa using h)]
      rfl

theorem foldl_selectItem_eraseDups {d : Draft} (hd : q.draft.quiet = d.quiet)
    (h : q.columns = l.eraseDups) (t : MappedType) (items : List Expr) :
    (items.foldl (fun q e => q.selectItem t e) q).columns =
      (l ++ items.filterMap (d.columnText? t)).eraseDups := by
  induction items generalizing q l with
  | nil => rwa [List.filterMap_nil, List.append_nil]
  | cons e items ih =>
    have hitem : (q.selectItem t e).columns = (l ++ (d.columnText? t e).toList).eraseDups := by
      rw [selectItem_columns_eq, columnText?, compile_of_quiet hd]
      exact addColumns_eraseDups h _
    have hlist : (e :: items).filterMap (d.columnText? t) =
        (d.columnText? t e).toList ++ items.filterMap (d.columnText? t) := by
      rw [List.filterMap_cons]
      cases d.columnText? t e <;> rfl
    rw [hlist, ← List.append_assoc]
    exact ih (by rw [selectItem_quiet, hd]) hitem

theorem entry_mention (q : Select) (t : MappedType) :
    (q.mention t).draft.registry.entry t false = q.draft.registry.entry t false :=
  (Registry.add_of_get? Registry.get?_add).2

/-- **What a call adds to the columns** is what it offers, but for repetitions. -/
theorem step_columns (h : q.columns = l.eraseDups) (call : Step) :
    (q.step call).columns = (l ++ q.offers call).eraseDups := by
  cases call with
  | selectAll t =>
    rw [offers, entry_mention]
    exact addColumns_eraseDups (q := q.mention t) h _
  | selectItems t items => exact foldl_selectItem_eraseDups (q := q.mention t) rfl h t items
  | selectEvery => exact addColumns_eraseDups h _
  | _ =>
    rw [offers, List.append_nil, ← h]
    exact q.step_clause _ (c := .columns) fun hc => nomatch hc

/-- **The columns after a chain of calls** are what the calls offer, but for repetitions. -/
theorem run_columns_eq (h : q.columns = l.eraseDups) (calls : List Step) :
    (q.run calls).columns = (l ++ q.offered calls).eraseDups := by
  induction calls generalizing q l with
  | nil => rwa [offered, List.append_nil]
  | cons call calls ih =>
    rw [offered, ← List.append_assoc]
    exact ih (step_columns h call)

/-! ## What the texts are -/

theorem offers_ne_empty (q : Select) (call : Step) : ∀ text ∈ q.offers call, text ≠ "" := by
  have hentry (e : Entry) : ∀ text ∈ e.qualifiedColumns, text ≠ "" := by
    intro text htext
    obtain ⟨c, -, rfl⟩ := List.mem_map.1 htext
    intro h
    have hlist := congrArg String.toList h
    simp [Entry.qualified] at hlist
  cases call with
  | selectAll t => exact hentry _
  | selectItems t items =>
    intro text htext
    obtain ⟨e, -, he⟩ := List.mem_filterMap.1 htext
    simpa using (Option.filter_eq_some_iff.1 he).2
  | selectEvery =>
    intro text htext
    obtain ⟨e, -, he⟩ := List.mem_flatMap.1 htext
    exact hentry e text he
  | _ => exact List.forall_mem_nil _

theorem offered_ne_empty (q : Select) (calls : List Step) :
    ∀ text ∈ q.offered calls, text ≠ "" := by
  induction calls generalizing q with
  | nil => exact List.forall_mem_nil _
  | cons call calls ih =>
    exact List.forall_mem_append.2 ⟨q.offers_ne_empty call, ih (q.step call)⟩

/-- The columns of all types, type by type, under the alias of the place. -/
theorem qualifiedColumns_eq {r : Registry} (h : r.Numbered) : r.qualifiedColumns =
    r.entries.zipIdx.flatMap fun (e, k) => e.type.table.columns.map fun c =>
      "t" ++ toString k ++ "." ++ Text.bracketed c.name := by
  have hentries : r.entries = r.entries.zipIdx.map (·.1) := (List.zipIdx_map_fst 0 r.entries).symm
  rw [Registry.qualifiedColumns]
  conv_lhs => rw [hentries]
  rw [List.flatMap_map]
  refine List.flatMap_congr fun ⟨e, k⟩ he => List.map_congr_left fun c _ => ?_
  rw [Entry.qualified, h.aliasName_at (List.mem_zipIdx_iff_getElem?.1 he)]
  rfl

/-! ## The same call again -/

/-- Two queries are the same but for their events. -/
structure SameQuery (p q : Select) : Prop where
  quiet : p.quiet = q.quiet
  fault : p.draft.fault = q.draft.fault

namespace SameQuery

theorem step (h : p.SameQuery q) (call : Step) : (p.step call).SameQuery (q.step call) := by
  refine ⟨quiet_step h.quiet call, ?_⟩
  rw [step_fault, step_fault, failure?_of_quiet h.quiet, h.fault]

theorem run (h : p.SameQuery q) (calls : List Step) : (p.run calls).SameQuery (q.run calls) := by
  induction calls generalizing p q with
  | nil => exact h
  | cons call calls ih => exact ih (h.step call)

/-- Such queries are finished alike, with the same text or the same error. -/
theorem build (h : p.SameQuery q) : p.build = q.build := by
  have hfault := h.fault
  cases hq : q.draft.fault with
  | some e => rw [build_of_fault (hfault.trans hq), build_of_fault hq]
  | none =>
    rw [Select.build, Select.build, ← subquery_quiet (hfault.trans hq), h.quiet, subquery_quiet hq]

end SameQuery

/-- After a call on the columns the types that it names are mentioned. -/
theorem types_mentioned (hcall : call.clause? = some .columns) :
    ∀ t ∈ call.types, ((q.step call).draft.registry.get? t).isSome = true := by
  rw [step_registry]
  cases call with
  | selectAll t | selectItems t items =>
    refine List.forall_mem_singleton.2 ?_
    rw [registryAfter, Registry.get?_add]
    rfl
  | selectEvery => exact List.forall_mem_nil _
  | _ => cases hcall

theorem mention_again (h : p.draft.quiet = (q.mention t).draft.quiet) :
    (p.mention t).draft.quiet = (q.mention t).draft.quiet := by
  have hmentioned : (p.draft.registry.get? t).isSome = true := by
    rw [registry_of_quiet h]
    exact Option.isSome_iff_exists.2 ⟨_, Registry.get?_add⟩
  rw [mention, mention_of_isSome hmentioned false]
  exact h

/-- A call on the columns offers the same when it is made again, and fails alike. -/
theorem offers_again (q : Select) (hcall : call.clause? = some .columns) :
    (q.step call).offers call = q.offers call ∧
      (q.step call).failure? call = q.failure? call := by
  have hdraft := q.step_draft_quiet call
  cases call with
  | selectAll t =>
    refine ⟨?_, rfl⟩
    rw [offers, offers, registry_of_quiet (mention_again hdraft)]
  | selectItems t items =>
    have hcompile (e : Expr) := compile_of_quiet (mention_again hdraft) t true e
    constructor
    · refine List.filterMap_congr fun e _ => ?_
      rw [columnText?, columnText?, hcompile]
    · exact (foldl_selectItem_failure (mention_again hdraft) t items).trans
        (foldl_selectItem_failure rfl t items).symm
  | selectEvery =>
    refine ⟨?_, rfl⟩
    rw [offers, offers, registry_of_quiet hdraft]
    rfl
  | _ => cases hcall

/-- **A call on the columns that is made twice in a row** does nothing the second time but report
its errors. -/
theorem step_again (h : q.columns = l.eraseDups) (hcall : call.clause? = some .columns) :
    ((q.step call).step call).SameQuery (q.step call) := by
  obtain ⟨hoffers, hfailure⟩ := q.offers_again hcall
  constructor
  · refine quiet_eq_iff.2 ⟨step_quiet_of_mentioned (types_mentioned hcall), fun c => ?_⟩
    by_cases hc : c = .columns
    · have hfirst := step_columns h call
      have hsecond := step_columns hfirst call
      rw [hoffers, eraseDups_append_of_subset (List.subset_append_right l _), ← hfirst] at hsecond
      rw [hc]
      exact hsecond
    · exact (q.step call).step_clause call fun h => hc (Option.some.inj (h.symm.trans hcall))
  · rw [step_fault, step_fault, hfailure, Option.or_assoc, Option.or_self]

/-- **The columns of a query.** After any chain of calls the columns are without repetition: they
are the texts that the calls offer, each in the place where it is offered first, and none of them is
empty. The call for all columns offers those of every mentioned type, in the order of the aliases
and each under the alias of its type. A call on the columns that is made again at once, wherever in
the chain, makes no difference to the finished query or to the error given in its place. -/
theorem run_columns (settings : Settings) (calls : List Step) :
    let q := (new settings).run calls
    q.columns.Nodup ∧
    q.columns = ((new settings).offered calls).eraseDups ∧
    (∀ text ∈ q.columns, text ≠ "") ∧
    (q.offers .selectEvery = q.draft.registry.entries.zipIdx.flatMap fun (e, k) =>
      e.type.table.columns.map fun c => "t" ++ toString k ++ "." ++ Text.bracketed c.name) ∧
    ∀ call : Step, call.clause? = some .columns → ∀ rest,
      (q.run (call :: call :: rest)).build = (q.run (call :: rest)).build := by
  intro q
  have hcolumns : q.columns = ((new settings).offered calls).eraseDups :=
    run_columns_eq (l := []) rfl calls
  have hmade : q.draft.registry.IsMade :=
    Registry.IsMade.foldl (fun q : Select => q.draft.registry) step_extends (.empty _) calls
  refine ⟨?_, hcolumns, fun text htext => ?_, qualifiedColumns_eq hmade.numbered,
    fun call hcall rest => ((step_again hcolumns hcall).run rest).build⟩
  · rw [hcolumns]
    exact nodup_eraseDups _
  · rw [hcolumns, List.mem_eraseDups] at htext
    exact offered_ne_empty _ calls text htext

/-- All columns of all types, once before and twice after another type is joined. -/
example :
    let city : MappedType :=
      ⟨"City", "City", none, [Column.plain "Id" "Id", Column.plain "Name" "Name"]⟩
    let road : MappedType := ⟨"Road", "Road", none, [Column.plain "To" "To"]⟩
    let calls : List Step := [.selectItems city [.column city "Name", .parameter city], .selectEvery,
      .crossJoin city road, .selectEvery, .selectEvery]
    ((ofType .default city).run calls).columns = ["t0.[Name]", "t0.[Id]", "t1.[To]"] := by
  decide +kernel

end Select

end SqlWright
