import SqlWright.Proofs.Closed.Changes
import SqlWright.Proofs.Failure.Calls

/-!
# The tables that a statement names

A statement names tables under aliases: its primary table and, if it is a query, the table of every
type that it joins. The registry has an entry for each of them and maybe for others: whatever a
clause speaks of is mentioned, whether it is joined or not. So the joins are followed through a
chain of calls beside the registry. Each call makes the registry go on, and the joins of a query
without errors are those of its calls.
-/

namespace SqlWright

open Text Outcome

namespace Registry

/-! ## Aliases of types -/

/-- The mentioned types, in the order of their first mentions. -/
def types (r : Registry) : List MappedType :=
  r.entries.map (·.type)

/-- The alias in brackets that a type has by its place among the mentioned types. -/
def bracketedAlias (r : Registry) (t : MappedType) : String :=
  bracketed (aliasAt (r.types.idxOf t))

/-- A registry that is made from an empty one by mentions. -/
def IsMade (r : Registry) : Prop :=
  ∃ schema, r.Extends (empty schema)

namespace IsMade

variable {r r' : Registry}

theorem empty (schema : String) : (empty schema).IsMade := ⟨schema, .refl _⟩

theorem of_extends (h : r.IsMade) (hr : r'.Extends r) : r'.IsMade := by
  obtain ⟨schema, hschema⟩ := h
  exact ⟨schema, hr.trans hschema⟩

theorem numbered (h : r.IsMade) : r.Numbered := by
  obtain ⟨schema, hschema⟩ := h
  exact hschema.numbered (.empty schema)

theorem nodup_types (h : r.IsMade) : r.types.Nodup := by
  obtain ⟨schema, mentions, rfl⟩ := h
  rw [types, (Reflects.addAll schema mentions).types]
  exact nodup_firstMentions

/-- The alias of an entry is the one that its type has by its place. -/
theorem aliasName_eq (h : r.IsMade) {e : Entry} (he : e ∈ r.entries) :
    e.aliasName = aliasAt (r.types.idxOf e.type) := by
  obtain ⟨k, hk, rfl⟩ := List.mem_iff_getElem.1 he
  have htypes : k < r.types.length := by rwa [types, List.length_map]
  have htype : r.types[k] = r.entries[k].type := List.getElem_map _
  have hplace : r.types.idxOf r.entries[k].type = k := htype ▸ h.nodup_types.idxOf_getElem k htypes
  rw [hplace]
  exact h.numbered.aliasName_at (List.getElem?_eq_getElem hk)

/-- A registry that every call makes go on is made by mentions after any chain of calls. -/
theorem foldl {State Call : Type} {step : State → Call → State} (registry : State → Registry)
    (hstep : ∀ s call, (registry (step s call)).Extends (registry s)) {s : State}
    (h : (registry s).IsMade) (calls : List Call) : (registry (calls.foldl step s)).IsMade := by
  induction calls generalizing s with
  | nil => exact h
  | cons call calls ih => exact ih (h.of_extends (hstep s call))

end IsMade

variable {r r' : Registry} {t : MappedType}

theorem mem_types_of_mem {e : Entry} (he : e ∈ r.entries) : e.type ∈ r.types :=
  List.mem_map_of_mem he

/-- A type keeps its place. -/
theorem Extends.idxOf_types (h : r'.Extends r) (ht : t ∈ r.types) :
    t ∈ r'.types ∧ r'.types.idxOf t = r.types.idxOf t := by
  have hprefix : r.types <+: r'.types := by
    have hmap := h.names_prefix.map Prod.fst
    rwa [List.map_map, List.map_map] at hmap
  obtain ⟨more, hmore⟩ := hprefix
  rw [← hmore]
  exact ⟨List.mem_append_left more ht, List.idxOf_append_of_mem ht⟩

theorem mem_types_of_primary? (ht : t ∈ (r.primary?.map (·.type)).toList) : t ∈ r.types := by
  rw [Option.mem_toList] at ht
  obtain ⟨e, he, rfl⟩ := Option.map_eq_some_iff.1 ht
  exact mem_types_of_mem (mem_of_primary? he)

theorem entry_type (r : Registry) (t : MappedType) (primary : Bool) :
    (r.entry t primary).type = t := by
  rw [entry]
  cases hg : r.get? t with
  | none => rfl
  | some e =>
    have htype := List.find?_some hg
    exact eq_of_beq htype

/-- Mentioned types are told apart by their aliases. -/
theorem eq_of_bracketedAlias {u : MappedType} (ht : t ∈ r.types)
    (h : r.bracketedAlias t = r.bracketedAlias u) : t = u :=
  (List.idxOf_inj ht).1 (aliasAt_injective (bracketed_injective h))

/-- The alias of a place is that of the type which has the place. -/
theorem IsMade.bracketedAlias_getElem (h : r.IsMade) {k : Nat} (hk : k < r.types.length) :
    r.bracketedAlias r.types[k] = bracketed (aliasAt k) := by
  rw [bracketedAlias, h.nodup_types.idxOf_getElem k hk]

theorem primaryAlias_eq (h : r.IsMade) :
    r.primaryAlias = (r.primary?.map (·.type)).toList.map r.bracketedAlias := by
  rw [primaryAlias]
  cases hp : r.primary? with
  | none => rfl
  | some e => exact congrArg (fun name => [bracketed name]) (h.aliasName_eq (mem_of_primary? hp))

end Registry

/-! ## Joined types -/

/-- The joins are those of the given types, each under the alias of its place. -/
def Joins.AreOf (r : Registry) (js : Joins) (types : List MappedType) : Prop :=
  List.Forall₂ (fun j t => t ∈ r.types ∧ IsSource (Registry.aliasAt (r.types.idxOf t)) j.table)
    js types

namespace Joins.AreOf

variable {r r' : Registry} {js : Joins} {types : List MappedType}

theorem of_extends (h : js.AreOf r types) (hr : r'.Extends r) : js.AreOf r' types := by
  refine List.Forall₂.imp (fun j t hj => ?_) h
  obtain ⟨hmem, hplace⟩ := hr.idxOf_types hj.1
  rw [hplace]
  exact ⟨hmem, hj.2⟩

theorem mem_types (h : js.AreOf r types) : ∀ t ∈ types, t ∈ r.types := by
  induction h with
  | nil => exact List.forall_mem_nil _
  | cons hj _ ih => exact List.forall_mem_cons.2 ⟨hj.1, ih⟩

theorem append_entry (h : js.AreOf r types) (hr : r.IsMade) {j : Join} {t : MappedType}
    (hj : j.table = (r.entry t false).tableWithAlias) :
    Joins.AreOf (r.add t false) (js ++ [j]) (types ++ [t]) := by
  have hadd : (r.add t false).Extends r := .add r t false
  have hmem := r.entry_mem t false
  refine List.rel_append (h.of_extends hadd) (.cons ⟨?_, ?_⟩ .nil)
  · have ht := Registry.mem_types_of_mem hmem
    rwa [Registry.entry_type] at ht
  · have halias := (hr.of_extends hadd).aliasName_eq hmem
    rw [Registry.entry_type] at halias
    rw [hj, ← halias]
    exact (hr.of_extends hadd).numbered.isSource hmem

end Joins.AreOf

namespace Select

/-- The type that a call joins. -/
def Step.joined? : Step → Option MappedType
  | .join _ right _ _ | .crossJoin _ right => some right
  | .fromType _ | .selectAll _ | .selectItems _ _ | .selectEvery | .selectDistinct | .limit _
  | .addHints _ | .intoType _ | .intoTable _ | .joinRaw _ _ _ | .addCondition _ _ _
  | .addConditionRaw _ _ | .groupBy _ _ _ | .orderBy _ _ _ => none

theorem addColumns_joins (q : Select) (texts : List String) :
    (q.addColumns texts).joins = q.joins := by
  rw [addColumns_frame]

/-- Selecting an expression mentions no type and joins none. -/
theorem selectItem_frame (q : Select) (t : MappedType) (e : Expr) :
    (q.selectItem t e).draft.registry = q.draft.registry ∧ (q.selectItem t e).joins = q.joins := by
  rw [selectItem]
  cases q.draft.compile t true e with
  | error fault => exact ⟨rfl, rfl⟩
  | ok text =>
    show (if text = "" then q else q.addColumns [text]).draft.registry = _ ∧
      (if text = "" then q else q.addColumns [text]).joins = _
    split
    · exact ⟨rfl, rfl⟩
    · rw [addColumns_draft, addColumns_joins]
      exact ⟨rfl, rfl⟩

theorem selectItems_frame (q : Select) (t : MappedType) (items : List Expr) :
    (q.selectItems t items).draft.registry = (q.mention t).draft.registry ∧
      (q.selectItems t items).joins = q.joins := by
  show (List.foldl _ (q.mention t) items).draft.registry = _ ∧
    (List.foldl _ (q.mention t) items).joins = (q.mention t).joins
  generalize q.mention t = p
  induction items generalizing p with
  | nil => exact ⟨rfl, rfl⟩
  | cons e items ih =>
    obtain ⟨hregistry, hjoins⟩ := p.selectItem_frame t e
    exact ⟨(ih _).1.trans hregistry, (ih _).2.trans hjoins⟩

/-- **What a call does to the registry**: it mentions types. -/
theorem step_extends (q : Select) (call : Step) :
    (q.step call).draft.registry.Extends q.draft.registry := by
  cases call with
  | fromType t => exact .add _ t true
  | selectAll t =>
    rw [step, selectAll, addColumns_draft]
    exact .add _ t false
  | selectItems t items =>
    rw [step, (q.selectItems_frame t items).1]
    exact .add _ t false
  | selectEvery =>
    rw [step, selectEvery, addColumns_draft]
    exact .refl _
  | intoTable name => exact Draft.accept_extends _ _ _
  | join left right condition kind =>
    exact Draft.acceptWith_extends (q.joins.add_extends condition kind) _
  | crossJoin left right => exact Draft.acceptWith_extends q.joins.addCross_extends _
  | joinRaw table condition kind => exact Draft.accept_extends _ _ _
  | addCondition t condition op => exact Draft.acceptWith_extends (.add _ t false) _
  | groupBy t g having =>
    rw [step, groupBy]
    split
    · exact .refl _
    · exact (Draft.accept_extends (q.mention t).draft _ _).trans (.add _ t false)
  | orderBy t key direction =>
    exact (Draft.accept_extends (q.mention t).draft _ _).trans (.add _ t false)
  | selectDistinct | limit _ | addHints _ | intoType _ | addConditionRaw _ _ => exact .refl _

/-- Calls that join nothing leave the joins as they are. -/
theorem step_joins (q : Select) {call : Step} (hs : call.isSafe = true)
    (hj : call.joined? = none) : (q.step call).joins = q.joins := by
  cases call with
  | selectAll t => exact addColumns_joins _ _
  | selectItems t items => exact (q.selectItems_frame t items).2
  | selectEvery => exact addColumns_joins _ _
  | join left right condition kind => cases hj
  | crossJoin left right => cases hj
  | joinRaw table condition kind => cases hs
  | groupBy t g having =>
    rw [step, groupBy]
    split <;> rfl
  | fromType _ | selectDistinct | limit _ | addHints _ | intoType _ | intoTable _
  | addCondition _ _ _ | addConditionRaw _ _ | orderBy _ _ _ => rfl

/-- The registry of a query is made by mentions, and unless there is an error its joins are those of
the given types. -/
structure Tracks (q : Select) (types : List MappedType) : Prop where
  registry : q.draft.registry.IsMade
  joins : q.draft.fault = none → q.joins.AreOf q.draft.registry types

theorem Tracks.new (settings : Settings) : (new settings).Tracks [] :=
  ⟨.empty _, fun _ => .nil⟩

/-- A join that is taken over or refused. -/
theorem Tracks.acceptJoin {q : Select} {types : List MappedType} (h : q.Tracks types)
    {right : MappedType} {result : Registry × Outcome Joins}
    (hr : result.1.Extends q.draft.registry)
    (hj : ∀ joins, result.2 = .ok joins → result.1 = q.draft.registry.add right false ∧
      ∃ j : Join, j.table = (q.draft.registry.entry right false).tableWithAlias ∧
        joins = q.joins ++ [j]) :
    ({ q with
      draft := (q.draft.acceptWith result q.joins).1
      joins := (q.draft.acceptWith result q.joins).2 } : Select).Tracks (types ++ [right]) := by
  refine ⟨h.registry.of_extends (Draft.acceptWith_extends hr _), fun hf => ?_⟩
  dsimp only at hf ⊢
  rw [Draft.acceptWith_fault, Option.or_eq_none_iff] at hf
  rw [Draft.acceptWith_registry]
  obtain ⟨hfault, herror⟩ := hf
  obtain ⟨registry, joins | joins⟩ := result
  · cases herror
  · obtain ⟨hregistry, j, htable, rfl⟩ := hj joins rfl
    dsimp only at hregistry ⊢
    rw [hregistry]
    exact (h.joins hfault).append_entry h.registry htable

/-- **One call**: if it joins a type, this is the one that the joins then have besides. -/
theorem Tracks.step {q : Select} {types : List MappedType} (h : q.Tracks types) {call : Step}
    (hs : call.isSafe = true) : (q.step call).Tracks (types ++ call.joined?.toList) := by
  cases hj : call.joined? with
  | none =>
    have hextends := q.step_extends call
    refine ⟨h.registry.of_extends hextends, fun hf => ?_⟩
    rw [step_fault, Option.or_eq_none_iff] at hf
    rw [step_joins q hs hj, Option.toList_none, List.append_nil]
    exact (h.joins hf.1).of_extends hextends
  | some right =>
    cases call with
    | join left t condition kind =>
      cases hj
      refine h.acceptJoin (q.joins.add_extends condition kind) fun joins hn => ?_
      obtain ⟨hregistry, text, -, heq⟩ := Joins.add_eq_ok hn
      exact ⟨hregistry, _, rfl, heq⟩
    | crossJoin left t =>
      cases hj
      refine h.acceptJoin q.joins.addCross_extends fun joins hn => ?_
      obtain ⟨hregistry, heq⟩ := Joins.addCross_eq_ok hn
      exact ⟨hregistry, _, rfl, heq⟩
    | _ => cases hj

/-- **A chain of calls**: the joined types are those of its calls, in their order. -/
theorem Tracks.run {q : Select} {types : List MappedType} (h : q.Tracks types)
    {calls : List Step} (hs : ∀ call ∈ calls, call.isSafe = true) :
    (q.run calls).Tracks (types ++ calls.filterMap Step.joined?) := by
  induction calls generalizing q types with
  | nil =>
    rw [List.filterMap_nil, List.append_nil]
    exact h
  | cons call calls ih =>
    obtain ⟨hcall, hcalls⟩ := List.forall_mem_cons.1 hs
    have hrest := ih (h.step hcall) hcalls
    have htypes : (call :: calls).filterMap Step.joined? =
        call.joined?.toList ++ calls.filterMap Step.joined? := by
      rw [List.filterMap_cons]
      cases call.joined? <;> rfl
    rw [htypes, ← List.append_assoc]
    exact hrest

/-- A finished query introduces the aliases of its primary table and of the joined types, all of
which are mentioned. -/
theorem statement {q : Select} {types : List MappedType} (hc : q.IsClosed) (ht : q.Tracks types)
    {text : String} (hb : q.build = .ok text) :
    (∀ t ∈ types, t ∈ q.draft.registry.types) ∧
      IsStatementOf q.draft.registry.entries.length
        (((q.draft.registry.primary?.map (·.type)).toList ++ types).map
          q.draft.registry.bracketedAlias) text := by
  obtain ⟨body, hbody, rfl⟩ := map_eq_ok.1 hb
  obtain ⟨hfault, hbody⟩ := Draft.finish_eq_ok hbody
  split at hbody
  · cases hbody
  · next primary hp =>
    cases hbody
    have hjoins := ht.joins hfault
    refine ⟨hjoins.mem_types, ?_⟩
    have hnames : List.Forall₂ (fun j name => IsSource name j.table) q.joins
        (types.map fun t => Registry.aliasAt (q.draft.registry.types.idxOf t)) :=
      List.forall₂_map_right_iff.2 (List.Forall₂.imp (fun _ _ hj => hj.2) hjoins)
    have htext := hc.text (Registry.mem_of_primary? hp) hnames
    rw [ht.registry.aliasName_eq (Registry.mem_of_primary? hp), List.map_cons, List.map_map]
      at htext
    rw [hp]
    exact ⟨_, htext, rfl⟩

end Select

/-! ## Statements that change rows -/

namespace Update

theorem addItem_extends (s : Update) (t : MappedType) (item : Record Field) :
    (s.addItem t item).draft.registry.Extends s.draft.registry :=
  Draft.accept_extends _ _ _

theorem step_extends (s : Update) (call : Step) :
    (s.step call).draft.registry.Extends s.draft.registry := by
  cases call with
  | target t => exact .add _ t true
  | addItem t item => exact s.addItem_extends t item
  | addItems t items =>
    rw [step, addItems]
    induction items generalizing s with
    | nil => exact .refl _
    | cons item items ih => exact (ih (s.addItem t item)).trans (s.addItem_extends t item)
  | addValues values => exact Draft.accept_extends _ _ _
  | setValue column value => exact Draft.accept_extends _ _ _
  | addCondition t condition op => exact Draft.acceptWith_extends (.add _ t false) _
  | limit _ | addHints _ | addConditionRaw _ _ => exact .refl _

theorem ofTable_isMade (settings : Settings) (name : TableName) :
    (ofTable settings name).draft.registry.IsMade :=
  (Registry.IsMade.empty settings.defaultSchema).of_extends (Draft.accept_extends _ _ _)

end Update

namespace Delete

theorem step_extends (s : Delete) (call : Step) :
    (s.step call).draft.registry.Extends s.draft.registry := by
  cases call with
  | target t => exact .add _ t true
  | addCondition t condition op => exact Draft.acceptWith_extends (.add _ t false) _
  | addItem t item op => exact Draft.accept_extends _ _ _
  | limit _ | addHints _ | allowAll | addConditionRaw _ _ => exact .refl _

theorem ofTable_isMade (settings : Settings) (name : TableName) :
    (ofTable settings name).draft.registry.IsMade :=
  (Registry.IsMade.empty settings.defaultSchema).of_extends (Draft.accept_extends _ _ _)

end Delete

end SqlWright
