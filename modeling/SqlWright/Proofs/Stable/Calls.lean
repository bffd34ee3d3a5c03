import SqlWright.Proofs.Scope.Sources
import SqlWright.Proofs.Stable.Compile

/-!
# Early and late rendering

A statement renders its clauses call by call, each with the registry of that moment, while later
calls go on to mention types and may make another one primary. Here a call is made once as it is and
once on the same statement with its final registry, and the two differ in nothing but the registry
and the events that report it. Two calls render no expression: the one for the columns of all types
means those of its moment, and the literals of assigned values follow the primary table.
-/

namespace SqlWright

open Outcome

/-! ## Drafts -/

namespace Draft

/-- The draft with another registry in place of its own. -/
def withRegistry (d : Draft) (r : Registry) : Draft :=
  { d with registry := r }

/-- The draft without its registry and without its events. -/
def bare (d : Draft) : Draft :=
  { d with registry := .empty "", journal := [] }

variable {early late : Draft} {α : Type} {t : MappedType}

theorem bare_withRegistry (d : Draft) (r : Registry) : (d.withRegistry r).bare = d.bare := rfl

theorem bare_accept (h : late.bare = early.bare) (result : Outcome α) (old : α) :
    Prod.map bare id (late.accept result old) = Prod.map bare id (early.accept result old) := by
  cases result with
  | ok new => exact congrArg (fun b => (b, new)) h
  | error e => exact congrArg (fun b : Draft => ({ b with fault := b.fault.or (some e) }, old)) h

theorem bare_acceptWith (h : late.bare = early.bare) {result result' : Registry × Outcome α}
    (hr : result'.2 = result.2) (old : α) :
    Prod.map bare id (late.acceptWith result' old) =
      Prod.map bare id (early.acceptWith result old) := by
  have hadopt : (late.adopt result'.1).bare = (early.adopt result.1).bare := h
  rw [acceptWith, acceptWith, hr]
  exact bare_accept hadopt _ old

theorem settings_of_bare (h : late.bare = early.bare) : late.settings = early.settings := by
  show late.bare.settings = early.bare.settings
  rw [h]

/-- The literals of assigned values look up the primary table only. -/
theorem columnValue_of_bare (h : late.bare = early.bare)
    (hp : late.registry.primary?.map (·.type) = early.registry.primary?.map (·.type))
    (name : String) (v : Value) : late.columnValue name v = early.columnValue name v := by
  have hcolumn : (late.registry.primary?.bind fun p => p.type.table.ofName? name) =
      early.registry.primary?.bind fun p => p.type.table.ofName? name := by
    have hbind := congrArg (fun t => Option.bind t fun t => t.table.ofName? name) hp
    rwa [Option.bind_map, Option.bind_map] at hbind
  rw [columnValue, columnValue, hcolumn, settings_of_bare h]

theorem compile_of_extends (hr : late.registry.Extends early.registry)
    (h : late.bare = early.bare) (named : Bool) {e : Expr}
    (he : e.isMentioned early.registry = true) :
    late.compile t named e = early.compile t named e := by
  rw [compile, compile, settings_of_bare h]
  exact Expr.compile_of_extends hr _ _ _ named he

theorem keysText_congr {keys : List Expr}
    (h : ∀ key ∈ keys, late.compile t false key = early.compile t false key) :
    late.keysText t keys = early.keysText t keys := by
  refine congrArg (fun texts : Outcome (List String) => texts >>= fun texts =>
    pure (String.intercalate "," texts)) (mapM_congr fun key hkey => ?_)
  rw [h key hkey]

end Draft

/-- The expressions of a grouping. -/
def Grouping.keyExprs : Grouping → List Expr
  | .keys ks | .rollup ks | .cube ks => ks
  | .sets ss => ss.flatten
  | .total => []

namespace Draft

variable {early late : Draft} {t : MappedType}

theorem groupingText_congr {g : Grouping}
    (h : ∀ key ∈ g.keyExprs, late.compile t false key = early.compile t false key) :
    late.groupingText t g = early.groupingText t g := by
  cases g with
  | keys ks | rollup ks | cube ks =>
    have hkeys : late.keysText t ks = early.keysText t ks := keysText_congr h
    rw [groupingText, groupingText, hkeys]
  | sets sets =>
    have hsets : (sets.mapM fun keys => (late.keysText t keys).map Text.parenthesized) =
        sets.mapM fun keys => (early.keysText t keys).map Text.parenthesized :=
      mapM_congr fun keys hkeys => by
        rw [keysText_congr fun key hkey => h key (List.mem_flatten_of_mem hkeys hkey)]
    rw [groupingText, groupingText, hsets]
  | total => rfl

theorem groupClause_congr {g : Grouping} {having : Option Expr}
    (h : ∀ e ∈ g.keyExprs ++ having.toList, late.compile t false e = early.compile t false e) :
    late.groupClause t g having = early.groupClause t g having := by
  rw [List.forall_mem_append] at h
  rw [groupClause, groupClause, groupingText_congr h.1]
  cases having with
  | none => rfl
  | some condition => simp only [h.2 condition (Option.mem_toList.2 rfl)]

end Draft

/-! ## Clauses -/

theorem Conditions.add_of_extends (cs : Conditions) (settings : Settings) {r final : Registry}
    {t : MappedType} (hr : final.Extends (r.add t false)) {e : Expr}
    (he : e.isMentioned (r.add t false) = true) (op : Connective) :
    (cs.add settings final t e op).2 = (cs.add settings r t e op).2 := by
  have hcompile : e.compile ⟨final.add t false, [t], settings.enumMode⟩ false =
      e.compile ⟨r.add t false, [t], settings.enumMode⟩ false :=
    Expr.compile_of_extends ((Registry.Extends.add final t false).trans hr) _ _ _ false he
  rw [add, add, hcompile]

/-- A statement of any kind takes over the same condition early and late. -/
theorem Conditions.bare_add {late early : Draft} (h : late.bare = early.bare) (cs : Conditions)
    {t : MappedType} (hr : late.registry.Extends (early.registry.add t false)) {e : Expr}
    (he : e.isMentioned (early.registry.add t false) = true) (op : Connective) :
    Prod.map Draft.bare id
        (late.acceptWith (cs.add late.settings late.registry t e op) cs) =
      Prod.map Draft.bare id
        (early.acceptWith (cs.add early.settings early.registry t e op) cs) := by
  have hadd : (cs.add late.settings late.registry t e op).2 =
      (cs.add early.settings early.registry t e op).2 := by
    rw [Draft.settings_of_bare h]
    exact cs.add_of_extends _ hr he op
  exact Draft.bare_acceptWith h hadd cs

namespace Joins

variable {settings : Settings} {r final : Registry} {left right : MappedType}

theorem add_of_extends (js : Joins) {e : Expr} (kind : JoinKind)
    (hr : final.Extends (js.add settings r left right e kind).1)
    (hleft : (r.get? left).isSome = true) (he : e.isMentioned (r.add right false) = true) :
    (js.add settings final left right e kind).2 = (js.add settings r left right e kind).2 := by
  obtain ⟨entry, hentry⟩ := Option.isSome_iff_exists.1 hleft
  obtain ⟨later, hlater, -⟩ := (hr.trans (js.add_extends e kind)).get?_names hentry
  rw [add, hentry] at hr
  rw [add, add, hentry, hlater]
  split
  · rfl
  · next hkind =>
    rw [if_neg hkind] at hr
    have hcompile : e.compile ⟨final.add right false, [left, right], settings.enumMode⟩ false =
        e.compile ⟨r.add right false, [left, right], settings.enumMode⟩ false :=
      Expr.compile_of_extends ((Registry.Extends.add final right false).trans hr) _ _ _ false he
    have htable := Entry.tableWithAlias_of_names (hr.entry_names false)
    show Except.map _ _ = Except.map _ _
    rw [hcompile, htable]

theorem addCross_of_extends (js : Joins)
    (hr : final.Extends (js.addCross settings r left right).1)
    (hleft : (r.get? left).isSome = true) :
    (js.addCross settings final left right).2 = (js.addCross settings r left right).2 := by
  obtain ⟨entry, hentry⟩ := Option.isSome_iff_exists.1 hleft
  obtain ⟨later, hlater, -⟩ := (hr.trans js.addCross_extends).get?_names hentry
  rw [addCross, hentry] at hr
  have htable := Entry.tableWithAlias_of_names (hr.entry_names false)
  rw [addCross, addCross, hentry, hlater]
  show Except.ok _ = Except.ok _
  rw [htable]

end Joins

/-! ## Queries -/

namespace Select

/-- The query on another draft. -/
def on (q : Select) (d : Draft) : Select :=
  { q with draft := d }

/-- The query with another registry in place of its own. -/
def withRegistry (q : Select) (r : Registry) : Select :=
  q.on (q.draft.withRegistry r)

/-- The query without its registry and without its events. -/
def bare (q : Select) : Select :=
  q.on q.draft.bare

/-- The types in the expressions of a call are mentioned once the call is made, and so is the left
one of two joined types before. A call for the columns of all types is never settled. -/
def Step.isSettled (r : Registry) : Step → Bool
  | .selectItems t items => items.all (Expr.isMentioned (r.add t false))
  | .join left right condition _ =>
    (r.get? left).isSome && condition.isMentioned (r.add right false)
  | .crossJoin left _ => (r.get? left).isSome
  | .addCondition t condition _ => condition.isMentioned (r.add t false)
  | .groupBy t g having => (g.keyExprs ++ having.toList).all (Expr.isMentioned (r.add t false))
  | .orderBy t key _ => key.isMentioned (r.add t false)
  | .selectEvery => false
  | .fromType _ | .selectAll _ | .selectDistinct | .limit _ | .addHints _ | .intoType _
  | .intoTable _ | .joinRaw _ _ _ | .addConditionRaw _ _ => true

variable {p q : Select} {d : Draft}

/-- Queries that differ in their registries and events are one query on two drafts. -/
theorem eq_on_of_bare (h : p.bare = q.bare) :
    p = q.on p.draft ∧ p.draft.bare = q.draft.bare := by
  have hdraft : p.bare.draft = q.bare.draft := by rw [h]
  have hrest : q.on p.draft = p.bare.on p.draft := by
    rw [h]
    rfl
  exact ⟨hrest.symm, hdraft⟩

theorem bare_on (h : d.bare = q.draft.bare) : (q.on d).bare = q.bare :=
  congrArg q.on h

theorem joins_bare (q : Select) : q.bare.joins = q.joins := rfl

theorem addColumns_on (q : Select) (d : Draft) (texts : List String) :
    (q.on d).addColumns texts = (q.addColumns texts).on d := by
  induction texts generalizing q with
  | nil => rfl
  | cons text texts ih =>
    have hcolumn : (q.on d).addColumn text = (q.addColumn text).on d := by
      show (if q.columns.contains text = true then q.on d else _) = _
      rw [addColumn]
      split <;> rfl
    show ((q.on d).addColumn text).addColumns texts = _
    rw [hcolumn]
    exact ih (q.addColumn text)

theorem selectItem_bare (h : d.bare = q.draft.bare) {t : MappedType} {e : Expr}
    (he : d.compile t true e = q.draft.compile t true e) :
    ((q.on d).selectItem t e).bare = (q.selectItem t e).bare := by
  have hcompile : (q.on d).draft.compile t true e = q.draft.compile t true e := he
  rw [selectItem, selectItem, hcompile]
  cases q.draft.compile t true e with
  | error fault =>
    exact congrArg (fun x => q.on x.1) (Draft.bare_accept h (.error fault : Outcome Unit) ())
  | ok text =>
    show (if text = "" then q.on d else (q.on d).addColumns [text]).bare =
      (if text = "" then q else q.addColumns [text]).bare
    rw [addColumns_on]
    split
    · exact bare_on h
    · exact bare_on (by rw [addColumns_draft]; exact h)

theorem selectItems_bare (h : d.bare = q.draft.bare) (hr : d.registry.Extends q.draft.registry)
    {t : MappedType} {items : List Expr}
    (hi : ∀ e ∈ items, e.isMentioned q.draft.registry = true) :
    (items.foldl (fun q e => q.selectItem t e) (q.on d)).bare =
      (items.foldl (fun q e => q.selectItem t e) q).bare := by
  induction items generalizing q d with
  | nil => exact bare_on h
  | cons e items ih =>
    rw [List.forall_mem_cons] at hi
    have hitem := selectItem_bare h (Draft.compile_of_extends (t := t) hr h true hi.1)
    obtain ⟨hon, hdraft⟩ := eq_on_of_bare hitem
    have hearly : (q.selectItem t e).draft.registry = q.draft.registry :=
      (selectItem_frame q t e).1
    have hlate : ((q.on d).selectItem t e).draft.registry = d.registry :=
      (selectItem_frame (q.on d) t e).1
    rw [List.foldl_cons, List.foldl_cons, hon]
    exact ih hdraft (by rw [hearly, hlate]; exact hr) (by rw [hearly]; exact hi.2)

/-- An expression on a type that a call mentions first. -/
theorem mention_compile (h : d.bare = q.draft.bare) {t : MappedType}
    (hr : d.registry.Extends (q.draft.registry.add t false)) {e : Expr}
    (he : e.isMentioned (q.draft.registry.add t false) = true) :
    ((q.on d).mention t).draft.compile t false e = (q.mention t).draft.compile t false e := by
  have hbare : (d.mention t false).bare = (q.draft.mention t false).bare := h
  exact Draft.compile_of_extends ((Registry.Extends.add d.registry t false).trans hr) hbare false he

/-- **One call, early and late.** A settled call renders on a draft whose registry has gone on what
it renders now. -/
theorem step_bare (h : d.bare = q.draft.bare) {call : Step}
    (hs : call.isSettled q.draft.registry = true)
    (hr : d.registry.Extends (q.step call).draft.registry) :
    ((q.on d).step call).bare = (q.step call).bare := by
  have hsettings := Draft.settings_of_bare h
  cases call with
  | fromType t => exact bare_on (q := q.fromType t) (d := d.mention t true) h
  | selectAll t =>
    rw [step, selectAll, addColumns_draft] at hr
    have hcolumns := Entry.qualifiedColumns_of_names (hr.entry_names false)
    show (((q.mention t).on (d.mention t false)).addColumns
      (d.registry.entry t false).qualifiedColumns).bare = _
    rw [hcolumns, addColumns_on]
    refine bare_on ?_
    rw [addColumns_draft]
    exact h
  | selectItems t items =>
    rw [step, (q.selectItems_frame t items).1] at hr
    exact selectItems_bare (q := q.mention t) (d := d.mention t false) h
      ((Registry.Extends.add d.registry t false).trans hr) (List.all_eq_true.1 hs)
  | selectEvery => cases hs
  | intoType t =>
    show bare { q.on d with
      destination := some (t.table.qualifiedName d.settings.defaultSchema) } = _
    rw [hsettings]
    exact bare_on (q := q.intoType t) h
  | intoTable name =>
    exact congrArg (fun x => ({ q with draft := x.1, destination := x.2 } : Select))
      (Draft.bare_accept h (name.text.map some) q.destination)
  | join left right condition kind =>
    rw [Step.isSettled, Bool.and_eq_true] at hs
    rw [step, join, Draft.acceptWith_registry] at hr
    have hjoins : (q.joins.add d.settings d.registry left right condition kind).2 =
        (q.joins.add q.draft.settings q.draft.registry left right condition kind).2 := by
      rw [hsettings]
      exact q.joins.add_of_extends kind hr hs.1 hs.2
    exact congrArg (fun x => ({ q with draft := x.1, joins := x.2 } : Select))
      (Draft.bare_acceptWith h hjoins q.joins)
  | crossJoin left right =>
    rw [step, crossJoin, Draft.acceptWith_registry] at hr
    have hjoins : (q.joins.addCross d.settings d.registry left right).2 =
        (q.joins.addCross q.draft.settings q.draft.registry left right).2 := by
      rw [hsettings]
      exact q.joins.addCross_of_extends hr hs
    exact congrArg (fun x => ({ q with draft := x.1, joins := x.2 } : Select))
      (Draft.bare_acceptWith h hjoins q.joins)
  | joinRaw table condition kind =>
    have hjoins : Prod.map Draft.bare id
          (d.accept (q.joins.addRaw d.settings table condition kind) q.joins) =
        Prod.map Draft.bare id
          (q.draft.accept (q.joins.addRaw q.draft.settings table condition kind) q.joins) := by
      rw [hsettings]
      exact Draft.bare_accept h _ _
    exact congrArg (fun x => ({ q with draft := x.1, joins := x.2 } : Select)) hjoins
  | addCondition t condition op =>
    rw [step, addCondition, Draft.acceptWith_registry] at hr
    exact congrArg (fun x => ({ q with draft := x.1, conditions := x.2 } : Select))
      (q.conditions.bare_add h hr hs op)
  | groupBy t g having =>
    by_cases hgroup : q.group.isSome = true
    · have hrefused (p : Select) (hp : p.group = q.group) :
          p.step (.groupBy t g having) = p.reject (.misuse .repeatedGrouping) := by
        rw [step, groupBy, hp, if_pos hgroup]
      rw [hrefused q rfl, hrefused (q.on d) rfl]
      exact congrArg (fun x => q.on x.1)
        (Draft.bare_accept h (.error (.misuse .repeatedGrouping) : Outcome Unit) ())
    · rw [step, groupBy, if_neg hgroup, Draft.accept_registry] at hr
      have hclause : ((q.on d).mention t).draft.groupClause t g having =
          (q.mention t).draft.groupClause t g having :=
        Draft.groupClause_congr fun e he => mention_compile h hr (List.all_eq_true.1 hs e he)
      have hgroup' : ¬ (q.on d).group.isSome = true := hgroup
      have hbare : ((q.on d).mention t).draft.bare = (q.mention t).draft.bare := h
      rw [step, step, groupBy, groupBy, if_neg hgroup, if_neg hgroup']
      dsimp only
      rw [hclause]
      exact congrArg (fun x => ({ q with draft := x.1, group := x.2 } : Select))
        (Draft.bare_accept hbare _ q.group)
  | orderBy t key direction =>
    rw [step, orderBy, Draft.accept_registry] at hr
    have hcompile : ((q.on d).mention t).draft.compile t false key =
        (q.mention t).draft.compile t false key := mention_compile h hr hs
    have hbare : ((q.on d).mention t).draft.bare = (q.mention t).draft.bare := h
    rw [step, step, orderBy, orderBy, hcompile]
    exact congrArg (fun x => ({ q with draft := x.1, order := x.2 } : Select))
      (Draft.bare_accept hbare _ q.order)
  | selectDistinct => exact bare_on (q := q.selectDistinct) h
  | limit top => exact bare_on (q := q.limit top) h
  | addHints hints => exact bare_on (q := q.addHints hints) h
  | addConditionRaw condition op => exact bare_on (q := q.addConditionRaw condition op) h

theorem addColumns_prefix (q : Select) (texts : List String) :
    q.columns <+: (q.addColumns texts).columns := by
  induction texts generalizing q with
  | nil => exact List.prefix_rfl
  | cons text texts ih =>
    have hcolumn : q.columns <+: (q.addColumn text).columns := by
      rw [addColumn]
      split
      · exact List.prefix_rfl
      · exact List.prefix_append _ _
    exact hcolumn.trans (ih (q.addColumn text))

/-- The columns of all types so far come first among those of all types in the end. -/
theorem selectEvery_prefix (q : Select) {final : Registry} (hr : final.Extends q.draft.registry) :
    q.selectEvery.columns <+: (q.withRegistry final).selectEvery.columns := by
  obtain ⟨more, hmore⟩ := hr.qualifiedColumns_prefix
  have hlate : (q.withRegistry final).selectEvery =
      (q.addColumns final.qualifiedColumns).on (q.draft.withRegistry final) :=
    addColumns_on q (q.draft.withRegistry final) final.qualifiedColumns
  have hcolumns : q.addColumns final.qualifiedColumns =
      (q.addColumns q.draft.registry.qualifiedColumns).addColumns more := by
    rw [← hmore, addColumns, List.foldl_append]
    rfl
  rw [hlate, hcolumns]
  exact addColumns_prefix _ more

theorem run_extends (q : Select) (calls : List Step) :
    (q.run calls).draft.registry.Extends q.draft.registry :=
  Registry.Extends.foldl (fun q : Select => q.draft.registry) step_extends q calls

end Select

/-! ## Statements that change rows -/

namespace Update

/-- The statement on another draft. -/
def on (s : Update) (d : Draft) : Update :=
  { s with draft := d }

/-- The statement with another registry in place of its own. -/
def withRegistry (s : Update) (r : Registry) : Update :=
  s.on (s.draft.withRegistry r)

/-- The statement without its registry and without its events. -/
def bare (s : Update) : Update :=
  s.on s.draft.bare

/-- The types in the condition of a call are mentioned once the call is made, and a call that
assigns values to columns meets the primary table of the end. -/
def Step.isSettled (r final : Registry) : Step → Bool
  | .addCondition t condition _ => condition.isMentioned (r.add t false)
  | .addValues _ | .setValue _ _ => final.primary?.map (·.type) == r.primary?.map (·.type)
  | .target _ | .limit _ | .addHints _ | .addItem _ _ | .addItems _ _ | .addConditionRaw _ _ =>
    true

variable {s : Update} {d : Draft}

theorem bare_on (h : d.bare = s.draft.bare) : (s.on d).bare = s.bare :=
  congrArg s.on h

theorem rows_bare (s : Update) : s.bare.rows = s.rows := rfl

theorem addItem_bare (h : d.bare = s.draft.bare) (t : MappedType) (item : Record Field) :
    ((s.on d).addItem t item).bare = (s.addItem t item).bare := by
  have hsettings : (s.on d).draft.settings = s.draft.settings := Draft.settings_of_bare h
  rw [addItem, addItem, hsettings]
  exact congrArg (fun x => ({ s with draft := x.1, rows := x.2 } : Update))
    (Draft.bare_accept h _ s.rows)

theorem addItems_bare (h : d.bare = s.draft.bare) (t : MappedType)
    (items : List (Record Field)) :
    ((s.on d).addItems t items).bare = (s.addItems t items).bare := by
  induction items generalizing s d with
  | nil => exact bare_on h
  | cons item items ih =>
    have hitem := addItem_bare h t item
    have hon : (s.on d).addItem t item = (s.addItem t item).on ((s.on d).addItem t item).draft := by
      have hrest := congrArg (fun b : Update => b.on ((s.on d).addItem t item).draft) hitem
      exact hrest
    have hdraft := congrArg Update.draft hitem
    rw [addItems, addItems, List.foldl_cons, List.foldl_cons, hon]
    exact ih hdraft

/-- **One call, early and late.** -/
theorem step_bare (h : d.bare = s.draft.bare) {call : Step}
    (hs : call.isSettled s.draft.registry d.registry = true)
    (hr : d.registry.Extends (s.step call).draft.registry) :
    ((s.on d).step call).bare = (s.step call).bare := by
  cases call with
  | target t => exact bare_on (s := s.target t) (d := d.mention t true) h
  | limit top => exact bare_on (s := s.limit top) h
  | addHints hints => exact bare_on (s := s.addHints hints) h
  | addItem t item => exact addItem_bare h t item
  | addItems t items => exact addItems_bare h t items
  | addValues values =>
    have hvalue : ∀ name v, (s.on d).draft.columnValue name v = s.draft.columnValue name v :=
      Draft.columnValue_of_bare h (eq_of_beq hs)
    simp only [step, addValues, hvalue]
    exact congrArg (fun x => ({ s with draft := x.1, rows := x.2 } : Update))
      (Draft.bare_accept h _ s.rows)
  | setValue column value =>
    have hvalue : (s.on d).draft.columnValue column value = s.draft.columnValue column value :=
      Draft.columnValue_of_bare h (eq_of_beq hs) column value
    rw [step, step, setValue, setValue, hvalue]
    exact congrArg (fun x => ({ s with draft := x.1, rows := x.2 } : Update))
      (Draft.bare_accept h _ s.rows)
  | addCondition t condition op =>
    rw [step, addCondition, Draft.acceptWith_registry] at hr
    exact congrArg (fun x => ({ s with draft := x.1, conditions := x.2 } : Update))
      (s.conditions.bare_add h hr hs op)
  | addConditionRaw condition op => exact bare_on (s := s.addConditionRaw condition op) h

theorem run_extends (s : Update) (calls : List Step) :
    (s.run calls).draft.registry.Extends s.draft.registry :=
  Registry.Extends.foldl (fun s : Update => s.draft.registry) step_extends s calls

end Update

namespace Delete

/-- The statement on another draft. -/
def on (s : Delete) (d : Draft) : Delete :=
  { s with draft := d }

/-- The statement with another registry in place of its own. -/
def withRegistry (s : Delete) (r : Registry) : Delete :=
  s.on (s.draft.withRegistry r)

/-- The statement without its registry and without its events. -/
def bare (s : Delete) : Delete :=
  s.on s.draft.bare

/-- The types in the condition of a call are mentioned once the call is made. -/
def Step.isSettled (r : Registry) : Step → Bool
  | .addCondition t condition _ => condition.isMentioned (r.add t false)
  | .target _ | .limit _ | .addHints _ | .allowAll | .addConditionRaw _ _ | .addItem _ _ _ => true

variable {s : Delete} {d : Draft}

theorem bare_on (h : d.bare = s.draft.bare) : (s.on d).bare = s.bare :=
  congrArg s.on h

/-- **One call, early and late.** -/
theorem step_bare (h : d.bare = s.draft.bare) {call : Step}
    (hs : call.isSettled s.draft.registry = true)
    (hr : d.registry.Extends (s.step call).draft.registry) :
    ((s.on d).step call).bare = (s.step call).bare := by
  cases call with
  | target t => exact bare_on (s := s.target t) (d := d.mention t true) h
  | limit top => exact bare_on (s := s.limit top) h
  | addHints hints => exact bare_on (s := s.addHints hints) h
  | allowAll => exact bare_on (s := s.allowAll) h
  | addCondition t condition op =>
    rw [step, addCondition, Draft.acceptWith_registry] at hr
    exact congrArg (fun x => ({ s with draft := x.1, conditions := x.2 } : Delete))
      (s.conditions.bare_add h hr hs op)
  | addConditionRaw condition op => exact bare_on (s := s.addConditionRaw condition op) h
  | addItem t item op =>
    have hsettings : (s.on d).draft.settings = s.draft.settings := Draft.settings_of_bare h
    rw [step, step, addItem, addItem, hsettings]
    exact congrArg (fun x => ({ s with draft := x.1, conditions := x.2 } : Delete))
      (Draft.bare_accept h _ s.conditions)

theorem run_extends (s : Delete) (calls : List Step) :
    (s.run calls).draft.registry.Extends s.draft.registry :=
  Registry.Extends.foldl (fun s : Delete => s.draft.registry) step_extends s calls

end Delete

/-! ## Early and late -/

/-- **Early rendering is late rendering.** If the types in an expression are mentioned, its text or
its error is the same for all parameters and after any further mentions. So a call on a query, an
UPDATE or a DELETE whose expressions speak of mentioned types makes the same change, errors
included, if it is made over the registry that the statement has in the end, whatever calls follow.
So does a call that assigns values, if the primary table is then the same; and the columns of all
types so far come first among those of all types in the end. -/
theorem early_eq_late :
    (∀ (r : Registry) (e : Expr), e.isMentioned r = true →
      ∀ (mode : EnumMode) (named : Bool) (parameters parameters' : List MappedType)
        (mentions : List (MappedType × Bool)),
        e.compile ⟨r.addAll mentions, parameters', mode⟩ named =
          e.compile ⟨r, parameters, mode⟩ named) ∧
    (∀ (q : Select) (call : Select.Step) (more : List Select.Step),
      let final := ((q.step call).run more).draft.registry
      (call.isSettled q.draft.registry = true →
        ((q.withRegistry final).step call).bare = (q.step call).bare) ∧
      q.selectEvery.columns <+: (q.withRegistry final).selectEvery.columns) ∧
    (∀ (s : Update) (call : Update.Step) (more : List Update.Step),
      let final := ((s.step call).run more).draft.registry
      call.isSettled s.draft.registry final = true →
        ((s.withRegistry final).step call).bare = (s.step call).bare) ∧
    (∀ (s : Delete) (call : Delete.Step) (more : List Delete.Step),
      let final := ((s.step call).run more).draft.registry
      call.isSettled s.draft.registry = true →
        ((s.withRegistry final).step call).bare = (s.step call).bare) := by
  refine ⟨?_, ?_, ?_, ?_⟩
  · intro r e he mode named parameters parameters' mentions
    exact Expr.compile_of_extends ⟨mentions, rfl⟩ parameters parameters' mode named he
  · intro q call more final
    have hfinal : final.Extends (q.step call).draft.registry := (q.step call).run_extends more
    exact ⟨fun hs => Select.step_bare (Draft.bare_withRegistry q.draft final) hs hfinal,
      q.selectEvery_prefix (hfinal.trans (q.step_extends call))⟩
  · intro s call more final hs
    exact Update.step_bare (Draft.bare_withRegistry s.draft final) hs
      ((s.step call).run_extends more)
  · intro s call more final hs
    exact Delete.step_bare (Draft.bare_withRegistry s.draft final) hs
      ((s.step call).run_extends more)

/-- A join of two types, before a third one is mentioned and becomes primary. The parameters are of
no use to the condition, and those of the second compilation are of another table. A value is
assigned before a condition mentions another type. -/
theorem early_eq_late_primary :
    let city : MappedType := ⟨"City", "City", none, [(Column.plain "Id" "Id").asKey]⟩
    let road : MappedType := ⟨"Road", "Road", none, [Column.plain "Start" "CityId"]⟩
    let lake : MappedType := ⟨"Lake", "Lake", none, [Column.plain "Name" "Name"]⟩
    let e : Expr := .binary .equal (.column road "Start") (.column city "Id")
    let r := (Registry.empty "dbo").addAll [(city, true), (road, false)]
    let q := (Select.new .default).fromType city
    let call : Select.Step := .join city road e .left
    let more : List Select.Step :=
      [.fromType lake, .orderBy lake (.column lake "Name") .ascending]
    let final := ((q.step call).run more).draft.registry
    let s := Update.ofType .default city
    let assign : Update.Step := .setValue "Id" (.int 7)
    let filters : List Update.Step := [.addCondition road e .and]
    let mentioned := ((s.step assign).run filters).draft.registry
    e.isMentioned r = true ∧
      e.compile ⟨r, [city, road], .asInt⟩ false = .ok "(t1.[CityId] = t0.[Id])" ∧
      e.compile ⟨r.addAll [(lake, true), (city, true)], [lake], .asInt⟩ false =
        .ok "(t1.[CityId] = t0.[Id])" ∧
      (final.primary?.map (·.type)) = some lake ∧
      ((q.withRegistry final).step call).joins.text =
        "LEFT JOIN [dbo].[Road] [t1] WITH (NOLOCK) ON (t1.[CityId] = t0.[Id])" ∧
      mentioned.types = [city, road] ∧
      ((s.withRegistry mentioned).step assign).rows = [[⟨"Id", "7", true⟩]] := by
  intro city road lake e r q call more final s assign filters mentioned
  have hmentioned : e.isMentioned r = true := by decide
  have htext : e.compile ⟨r, [city, road], .asInt⟩ false = .ok "(t1.[CityId] = t0.[Id])" := by
    decide +kernel
  obtain ⟨hcompile, hselect, hupdate, -⟩ := early_eq_late
  have hjoin := (hselect q call more).1 (by decide)
  have hjoins := congrArg Select.joins hjoin
  rw [Select.joins_bare, Select.joins_bare] at hjoins
  have hassign := hupdate s assign filters (by decide)
  have hrows := congrArg Update.rows hassign
  rw [Update.rows_bare, Update.rows_bare] at hrows
  refine ⟨hmentioned, htext, ?_, by decide +kernel, ?_, by decide +kernel, ?_⟩
  · exact (hcompile r e hmentioned .asInt false _ _ _).trans htext
  · rw [hjoins]
    decide +kernel
  · rw [hrows]
    decide +kernel

end SqlWright
