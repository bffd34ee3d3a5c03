import SqlWright.Proofs.Closed.Clauses
import SqlWright.Proofs.Failure.Calls

/-!
# Queries are closed

Every call on a query that passes no text of the caller keeps all its parts closed, so a query that
is made by such calls alone is a closed text. Its aliases are those of the mentioned types, and it
introduces one for its primary table and one for each join. Calls that fail are allowed for: they
record an error and leave the parts as they are.
-/

namespace SqlWright

open Text Outcome

/-! ## Calls without text of the caller -/

/-- Whether a grouping holds no time of day and no time with an offset. -/
def Grouping.isTimeless : Grouping → Bool
  | .keys es | .rollup es | .cube es => es.all Expr.isTimeless
  | .sets ess => ess.all fun es => es.all Expr.isTimeless
  | .total => true

/-- Whether a call passes neither SQL that the caller wrote nor a time of day nor a time with an
offset. -/
def Select.Step.isSafe : Select.Step → Bool
  | .selectItems _ items => items.all Expr.isTimeless
  | .join _ _ condition _ => condition.isTimeless
  | .addCondition _ condition _ => condition.isTimeless
  | .groupBy _ g having => g.isTimeless && having.all Expr.isTimeless
  | .orderBy _ key _ => key.isTimeless
  | .joinRaw _ _ _ | .addConditionRaw _ _ => false
  | .fromType _ | .selectAll _ | .selectEvery | .selectDistinct | .limit _ | .addHints _
  | .intoType _ | .intoTable _ | .crossJoin _ _ => true

/-! ## Groupings -/

/-- The texts of a grouping are closed. -/
structure GroupClause.IsClosed (r : Registry) (g : GroupClause) : Prop where
  keys : r.Scopes g.keys
  having : ∀ t ∈ g.having, r.Scopes t

namespace Draft

variable {d : Draft} {t : MappedType} {text : String}

theorem keysText_scoped (hd : d.registry.Numbered) {keys : List Expr}
    (hk : keys.all Expr.isTimeless = true) (h : d.keysText t keys = .ok text) :
    d.registry.Scopes text := by
  obtain ⟨texts, ht, h⟩ := bind_eq_ok.1 h
  cases h
  refine .commas (forall_mem_of_mapM ht fun key hkey t hkt => ?_)
  obtain ⟨compiled, hc, hkt⟩ := bind_eq_ok.1 hkt
  split at hkt
  · cases hkt
  · cases hkt
    exact compile_scoped hd (List.all_eq_true.1 hk key hkey) hc

theorem groupingText_scoped (hd : d.registry.Numbered) {g : Grouping} (hg : g.isTimeless = true)
    (h : d.groupingText t g = .ok text) : d.registry.Scopes text := by
  cases g with
  | keys keys =>
    rw [groupingText] at h
    split at h
    · cases h
    · exact keysText_scoped hd hg h
  | rollup keys =>
    obtain ⟨t, ht, rfl⟩ := map_eq_ok.1 h
    exact .inside (.bare (by decide) (by decide)) (keysText_scoped hd hg ht)
  | cube keys =>
    obtain ⟨t, ht, rfl⟩ := map_eq_ok.1 h
    exact .inside (.bare (by decide) (by decide)) (keysText_scoped hd hg ht)
  | sets sets =>
    obtain ⟨texts, ht, h⟩ := bind_eq_ok.1 h
    cases h
    refine .inside (.bare (by decide) (by decide)) (.commas ?_)
    refine forall_mem_of_mapM ht fun keys hkeys t hkt => ?_
    obtain ⟨u, hu, rfl⟩ := map_eq_ok.1 hkt
    exact Scoped.parenthesized (keysText_scoped hd (List.all_eq_true.1 hg keys hkeys) hu)
  | total =>
    cases h
    exact .bare (by decide) (by decide)

theorem groupClause_closed (hd : d.registry.Numbered) {g : Grouping} (hg : g.isTimeless = true)
    {having : Option Expr} (hh : having.all Expr.isTimeless = true) {clause : GroupClause}
    (h : d.groupClause t g having = .ok clause) : clause.IsClosed d.registry := by
  obtain ⟨keys, hk, h⟩ := bind_eq_ok.1 h
  have hkeys := groupingText_scoped hd hg hk
  cases having with
  | none =>
    cases h
    exact ⟨hkeys, fun t ht => by cases ht⟩
  | some condition =>
    obtain ⟨text, ht, h⟩ := bind_eq_ok.1 h
    cases h
    refine ⟨hkeys, ?_⟩
    intro t hmem
    cases hmem
    exact compile_scoped hd hh ht

end Draft

namespace Select

/-! ## The invariant -/

/-- All parts of a query are closed; its aliases are those of a chain of mentions. -/
structure IsClosed (q : Select) : Prop where
  registry : q.draft.registry.Numbered
  columns : ∀ t ∈ q.columns, q.draft.registry.Scopes t
  destination : ∀ t ∈ q.destination, IsIdentifier t
  joins : q.joins.IsClosed q.draft.registry
  conditions : q.conditions.IsClosed q.draft.registry
  group : ∀ g ∈ q.group, g.IsClosed q.draft.registry
  order : ∀ t ∈ q.order, q.draft.registry.Scopes t

theorem new_closed (settings : Settings) : (new settings).IsClosed where
  registry := .empty _
  columns := List.forall_mem_nil _
  destination := fun t ht => by cases ht
  joins := List.forall_mem_nil _
  conditions := List.forall_mem_nil _
  group := fun g hg => by cases hg
  order := List.forall_mem_nil _

namespace IsClosed

variable {q : Select}

/-- Further mentions do no harm. -/
theorem withDraft (h : q.IsClosed) {d : Draft} (hd : d.registry.Extends q.draft.registry) :
    ({ q with draft := d } : Select).IsClosed where
  registry := hd.numbered h.registry
  columns := fun t ht => (h.columns t ht).of_extends hd
  destination := h.destination
  joins := h.joins.of_extends hd
  conditions := h.conditions.of_extends hd
  group := fun g hg =>
    ⟨(h.group g hg).keys.of_extends hd, fun t ht => ((h.group g hg).having t ht).of_extends hd⟩
  order := fun t ht => (h.order t ht).of_extends hd

theorem mention (h : q.IsClosed) (t : MappedType) : (q.mention t).IsClosed :=
  h.withDraft (.add _ t false)

theorem reject (h : q.IsClosed) (e : Error) : (q.reject e).IsClosed :=
  { h with }

theorem addColumn (h : q.IsClosed) {text : String} (ht : q.draft.registry.Scopes text) :
    (q.addColumn text).IsClosed := by
  rw [Select.addColumn]
  split
  · exact h
  · exact { h with
      columns := List.forall_mem_append.2 ⟨h.columns, List.forall_mem_singleton.2 ht⟩ }

theorem addColumns (h : q.IsClosed) {texts : List String}
    (ht : ∀ t ∈ texts, q.draft.registry.Scopes t) : (q.addColumns texts).IsClosed := by
  induction texts generalizing q with
  | nil => exact h
  | cons t texts ih =>
    rw [List.forall_mem_cons] at ht
    have hdraft : (q.addColumn t).draft = q.draft := addColumns_draft q [t]
    refine ih (h.addColumn ht.1) ?_
    rw [hdraft]
    exact ht.2

theorem selectAll (h : q.IsClosed) (t : MappedType) : (q.selectAll t).IsClosed := by
  have hm := h.mention t
  exact hm.addColumns (hm.registry.qualifiedColumns_scoped (q.draft.registry.entry_mem t false))

theorem selectItem (h : q.IsClosed) (t : MappedType) {e : Expr} (he : e.isTimeless = true) :
    (q.selectItem t e).IsClosed := by
  rw [Select.selectItem]
  cases hc : q.draft.compile t true e with
  | error fault => exact h.reject fault
  | ok text =>
    show (if text = "" then q else q.addColumn text).IsClosed
    split
    · exact h
    · exact h.addColumn (Draft.compile_scoped h.registry he hc)

theorem selectItems (h : q.IsClosed) (t : MappedType) {items : List Expr}
    (hi : items.all Expr.isTimeless = true) : (q.selectItems t items).IsClosed := by
  rw [Select.selectItems]
  have hm := h.mention t
  clear h
  generalize q.mention t = q at hm
  induction items generalizing q with
  | nil => exact hm
  | cons e items ih =>
    rw [List.all_cons, Bool.and_eq_true] at hi
    exact ih hi.2 _ (hm.selectItem t hi.1)

theorem selectEvery (h : q.IsClosed) : q.selectEvery.IsClosed :=
  h.addColumns h.registry.allColumns_scoped

theorem intoTable (h : q.IsClosed) (name : TableName) : (q.intoTable name).IsClosed :=
  { h.withDraft (Draft.accept_extends q.draft (name.text.map some) q.destination) with
    destination :=
      Draft.accept_some h.destination fun _ ht => TableName.text_isIdentifier ht }

/-- A join that is taken over or refused leaves all joins closed. -/
theorem acceptJoin (h : q.IsClosed) {result : Registry × Outcome Joins}
    (hr : result.1.Extends q.draft.registry)
    (hj : ∀ joins, result.2 = .ok joins → joins.IsClosed result.1) :
    ({ q with
      draft := (q.draft.acceptWith result q.joins).1
      joins := (q.draft.acceptWith result q.joins).2 } : Select).IsClosed :=
  { h.withDraft (Draft.acceptWith_extends hr q.joins) with
    joins := by
      show Joins.IsClosed _ (q.draft.acceptWith result q.joins).2
      rw [Draft.acceptWith_registry]
      exact Draft.acceptWith_induction (h.joins.of_extends hr) hj }

theorem join (h : q.IsClosed) (left right : MappedType) {condition : Expr}
    (hc : condition.isTimeless = true) (kind : JoinKind) :
    (q.join left right condition kind).IsClosed :=
  h.acceptJoin (q.joins.add_extends condition kind) fun _ hn => h.joins.add h.registry hc hn

theorem crossJoin (h : q.IsClosed) (left right : MappedType) :
    (q.crossJoin left right).IsClosed :=
  h.acceptJoin q.joins.addCross_extends fun _ hn => h.joins.addCross h.registry hn

theorem addCondition (h : q.IsClosed) (t : MappedType) {condition : Expr}
    (hc : condition.isTimeless = true) (op : Connective) :
    (q.addCondition t condition op).IsClosed := by
  have hresult := h.conditions.acceptWith h.registry t hc op
  exact { h.withDraft hresult.1 with conditions := hresult.2 }

theorem groupBy (h : q.IsClosed) (t : MappedType) {g : Grouping} (hg : g.isTimeless = true)
    {having : Option Expr} (hh : having.all Expr.isTimeless = true) :
    (q.groupBy t g having).IsClosed := by
  rw [Select.groupBy]
  split
  · exact h.reject _
  · have hm := h.mention t
    refine { hm.withDraft (Draft.accept_extends _ _ _) with group := ?_ }
    show ∀ g ∈ _, GroupClause.IsClosed (Draft.registry _) g
    rw [Draft.accept_registry]
    exact Draft.accept_some hm.group fun _ hc => Draft.groupClause_closed hm.registry hg hh hc

theorem orderBy (h : q.IsClosed) (t : MappedType) {key : Expr} (hk : key.isTimeless = true)
    (direction : Direction) : (q.orderBy t key direction).IsClosed := by
  have hm := h.mention t
  have hregistry : (q.orderBy t key direction).draft.registry = (q.mention t).draft.registry :=
    Draft.accept_registry _ _ _
  refine { hm.withDraft (Draft.accept_extends _ _ _) with order := ?_ }
  rw [hregistry]
  refine Draft.accept_induction (P := fun keys => ∀ u ∈ keys, (q.mention t).draft.registry.Scopes u)
    hm.order fun keys hn => ?_
  obtain ⟨text, ht, rfl⟩ := map_eq_ok.1 hn
  obtain ⟨compiled, hc, ht⟩ := bind_eq_ok.1 ht
  refine List.forall_mem_append.2 ⟨hm.order, List.forall_mem_singleton.2 ?_⟩
  split at ht
  · cases ht
  · cases ht
    have hdirection : (q.mention t).draft.registry.Scopes direction.keyword := by
      cases direction
      · exact .word (by decide)
      · exact .word (by decide)
    exact ((Draft.compile_scoped hm.registry hk hc).append .space).append hdirection

/-! ## One call and a chain of calls -/

theorem step (h : q.IsClosed) {call : Select.Step} (hc : call.isSafe = true) :
    (q.step call).IsClosed := by
  cases call with
  | fromType t => exact h.withDraft (.add _ t true)
  | selectAll t => exact h.selectAll t
  | selectItems t items => exact h.selectItems t hc
  | selectEvery => exact h.selectEvery
  | selectDistinct => exact { h with }
  | limit top => exact { h with }
  | addHints hints => exact { h with }
  | intoType t =>
    refine { h with destination := ?_ }
    intro text hmem
    cases hmem
    exact t.table.qualifiedName_isIdentifier _
  | intoTable name => exact h.intoTable name
  | join left right condition kind => exact h.join left right hc kind
  | crossJoin left right => exact h.crossJoin left right
  | joinRaw table condition kind => cases hc
  | addCondition t condition op => exact h.addCondition t hc op
  | addConditionRaw condition op => cases hc
  | groupBy t g having =>
    rw [Step.isSafe, Bool.and_eq_true] at hc
    exact h.groupBy t hc.1 hc.2
  | orderBy t key direction => exact h.orderBy t hc direction

theorem run (h : q.IsClosed) {calls : List Select.Step} (hc : ∀ call ∈ calls, call.isSafe = true) :
    (q.run calls).IsClosed := by
  show IsClosed (List.foldl _ _ calls)
  exact List.foldlRecOn calls _ h fun _ ih call hm => ih.step (hc call hm)

/-! ## The finished query -/

theorem columnsText (h : q.IsClosed) : q.draft.registry.Scopes q.columnsText := by
  rw [Select.columnsText]
  split
  · exact .word (by decide)
  · exact .commas h.columns

theorem groupText (h : q.IsClosed) :
    q.draft.registry.Scopes
      (match q.group with
        | none => ""
        | some g =>
          " GROUP BY " ++ g.keys ++
            (match g.having with
              | none => ""
              | some condition => " HAVING " ++ condition)) := by
  have hgroupBy : q.draft.registry.Scopes " GROUP BY " := .word (by decide)
  have hhaving : q.draft.registry.Scopes " HAVING " := .word (by decide)
  split
  · exact .empty
  · next g hg =>
    have hclause := h.group g hg
    refine (hgroupBy.append hclause.keys).append ?_
    split
    · exact .empty
    · next condition hc => exact hhaving.append (hclause.having condition hc)

theorem orderText (h : q.IsClosed) :
    q.draft.registry.Scopes
      (if q.order.isEmpty then "" else " ORDER BY " ++ String.intercalate "," q.order) := by
  have horderBy : q.draft.registry.Scopes " ORDER BY " := .word (by decide)
  split
  · exact .empty
  · exact horderBy.append (Scoped.commas h.order)

/-- The part of a query before the name of its primary table. -/
theorem front (h : q.IsClosed) :
    q.draft.registry.Scopes
      ("SELECT " ++ (if q.distinct then "DISTINCT " else "") ++
        (match q.top with
          | none => ""
          | some top => top.bareText) ++
        q.columnsText ++
        (match q.destination with
          | none => ""
          | some name => " INTO " ++ name)) := by
  have hselect : q.draft.registry.Scopes "SELECT " := .word (by decide)
  have hinto : q.draft.registry.Scopes " INTO " := .word (by decide)
  have hdistinct : q.draft.registry.Scopes (if q.distinct then "DISTINCT " else "") := by
    split
    · exact .word (by decide)
    · exact .empty
  refine (((hselect.append hdistinct).append ?top).append h.columnsText).append ?destination
  case top =>
    split
    · exact .empty
    · next top _ => exact top.bareText_scoped
  case destination =>
    split
    · exact .empty
    · next name hd => exact (h.destination name hd).scoped hinto (.of_ends (by decide))

/-- A query introduces the aliases of its primary table and of its joins. -/
theorem text (h : q.IsClosed) {primary : Entry} (hp : primary ∈ q.draft.registry.entries)
    {names : List String}
    (hn : List.Forall₂ (fun j name => IsSource name j.table) q.joins names) :
    Introduces q.draft.registry.entries.length ((primary.aliasName :: names).map bracketed)
      (q.text primary) := by
  have hfrom : q.draft.registry.Scopes " FROM " := .word (by decide)
  have hkeyword := EndsInKeyword.of_word h.front.closed.isSealed (w := " FROM ") (by decide)
    (.inl (by decide))
  have hprimary := (h.front.append hfrom).introduces.append_source hkeyword (h.registry.isSource hp)
  have hjoins := h.joins.introduces hn (hprimary.append_scoped q.hints.suffixed_scoped)
  have hassoc (t a b c d : String) : t ++ (a ++ b ++ c ++ d) = t ++ a ++ b ++ c ++ d := by
    simp only [String.append_assoc]
  have htext : q.text primary = _ := hassoc _ _ _ _ _
  rw [htext]
  exact ((hjoins.append_scoped h.conditions.clause).append_scoped h.groupText).append_scoped
    h.orderText

theorem subquery (h : q.IsClosed) {text : String} (ht : q.subquery = .ok text) : Closed text := by
  have ht := (Draft.finish_eq_ok ht).2
  split at ht
  · cases ht
  · next primary hp =>
    cases ht
    obtain ⟨names, hn⟩ := h.joins.exists_names
    exact (h.text (Registry.mem_of_primary? hp) hn).closed

theorem build (h : q.IsClosed) {text : String} (ht : q.build = .ok text) : IsStatement text := by
  obtain ⟨body, hb, rfl⟩ := map_eq_ok.1 ht
  exact ⟨body, h.subquery hb, rfl⟩

end IsClosed

/-- A query that is made by calls without text of the caller, under any settings. -/
def IsMadeSafely (q : Select) : Prop :=
  ∃ settings calls, q = (new settings).run calls ∧ ∀ call ∈ calls, call.isSafe = true

theorem IsMadeSafely.isClosed {q : Select} (h : q.IsMadeSafely) : q.IsClosed := by
  obtain ⟨settings, calls, rfl, hc⟩ := h
  exact (new_closed settings).run hc

end Select

end SqlWright
