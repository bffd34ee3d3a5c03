import SqlWright.Proofs.Closed.Chain
import SqlWright.Proofs.Scope.Sources

/-!
# The aliases of a built statement

A query, an UPDATE or a DELETE introduces one alias for its primary table and, if it is a query, one
for each call that joins a type. Every alias before a dot is that of a mentioned type. Nothing
checks that a type which a clause speaks of is joined, nor that a type is joined once only: a type
has one alias in the whole statement, and a table is joined to itself by means of a second type that
is mapped to it. So an alias before a dot is introduced just if its type is the primary or a joined
one, and no alias is introduced twice just if these types are distinct.
-/

namespace SqlWright

open Text Outcome

/-- Statements that name the tables of some types under aliases say so once for each, and speak of
other types only under aliases that they do not introduce. -/
theorem Text.IsStatementOf.sources {r : Registry} (hr : r.IsMade) {sources : List MappedType}
    (hs : ∀ t ∈ sources, t ∈ r.types) {s : String}
    (h : IsStatementOf r.entries.length (sources.map r.bracketedAlias) s) :
    introductions s = sources.map r.bracketedAlias ∧
    (∀ k, HasQualifier k s → ∃ t, r.types[k]? = some t ∧
      (bracketed (Registry.aliasAt k) ∈ introductions s ↔ t ∈ sources)) ∧
    ((introductions s).Nodup ↔ sources.Nodup) := by
  have hinj : ∀ t ∈ sources, ∀ u ∈ sources, r.bracketedAlias t = r.bracketedAlias u → t = u :=
    fun t ht u _ heq => Registry.eq_of_bracketedAlias (hs t ht) heq
  rw [h.introductions_eq]
  refine ⟨rfl, fun k hk => ?_, .of_map _, fun hn => hn.map_on hinj⟩
  have hlt : k < r.types.length := by
    rw [Registry.types, List.length_map]
    exact h.lt_of_hasQualifier hk
  refine ⟨r.types[k], List.getElem?_eq_getElem hlt, ?_⟩
  rw [← hr.bracketedAlias_getElem hlt]
  constructor
  · intro hmem
    obtain ⟨t, ht, heq⟩ := List.mem_map.1 hmem
    rwa [← Registry.eq_of_bracketedAlias (hs t ht) heq]
  · exact List.mem_map_of_mem

namespace Chain

/-- The registry of a statement that may name tables under aliases: a query, an UPDATE or a
DELETE. -/
def registry? (settings : Settings) : Chain → Option Registry
  | .select calls => some (selected settings calls).draft.registry
  | .update table calls => some (updated settings table calls).draft.registry
  | .delete table calls => some (deleted settings table calls).draft.registry
  | .insert _ | .merge _ _ => none

/-- The types that the calls of a chain join, once for each such call. -/
def joined : Chain → List MappedType
  | .select calls => calls.filterMap Select.Step.joined?
  | .insert _ | .update _ _ | .delete _ _ | .merge _ _ => []

/-- The types whose tables a statement names under aliases, in the order of its text. -/
def sources (r : Registry) (chain : Chain) : List MappedType :=
  (r.primary?.map (·.type)).toList ++ chain.joined

theorem selected_tracks (settings : Settings) {calls : List Select.Step}
    (h : ∀ call ∈ calls, call.isSafe = true) :
    (selected settings calls).Tracks (calls.filterMap Select.Step.joined?) :=
  (Select.Tracks.new settings).run h

theorem updated_isMade (settings : Settings) (table : Option TableName) (calls : List Update.Step) :
    (updated settings table calls).draft.registry.IsMade := by
  refine Registry.IsMade.foldl (fun s : Update => s.draft.registry) Update.step_extends ?_ calls
  cases table with
  | none => exact .empty settings.defaultSchema
  | some name => exact Update.ofTable_isMade settings name

theorem deleted_isMade (settings : Settings) (table : Option TableName) (calls : List Delete.Step) :
    (deleted settings table calls).draft.registry.IsMade := by
  refine Registry.IsMade.foldl (fun s : Delete => s.draft.registry) Delete.step_extends ?_ calls
  cases table with
  | none => exact .empty settings.defaultSchema
  | some name => exact Delete.ofTable_isMade settings name

/-- Each statement of the text introduces the aliases of its tables, whose types are mentioned. -/
theorem statements (settings : Settings) (chain : Chain) {r : Registry}
    (hr : chain.registry? settings = some r) (h : chain.IsSafe) {text : String}
    (hb : chain.build settings = .ok text) :
    r.IsMade ∧ (∀ t ∈ chain.sources r, t ∈ r.types) ∧
      ∃ texts, text = String.intercalate "\n" texts ∧ texts.length = chain.count settings ∧
        ∀ s ∈ texts,
          IsStatementOf r.entries.length ((chain.sources r).map r.bracketedAlias) s := by
  cases chain with
  | select calls =>
    cases hr
    have htracks := selected_tracks settings h
    obtain ⟨hmem, hstatement⟩ := Select.statement ((Select.new_closed settings).run h) htracks hb
    refine ⟨htracks.registry, List.forall_mem_append.2 ⟨?_, hmem⟩, [text], ?_, rfl, ?_⟩
    · exact fun t => Registry.mem_types_of_primary?
    · rw [String.intercalate_singleton]
    · exact List.forall_mem_singleton.2 hstatement
  | update table calls =>
    cases hr
    have hmade := updated_isMade settings table calls
    obtain ⟨texts, htext, hlength, -, htexts⟩ := (updated_closed settings table h).statements hb
    rw [Registry.primaryAlias_eq hmade] at htexts
    rw [sources, joined, List.append_nil]
    exact ⟨hmade, fun t => Registry.mem_types_of_primary?, texts, htext, hlength, htexts⟩
  | delete table calls =>
    cases hr
    have hmade := deleted_isMade settings table calls
    have hstatement := (deleted_closed settings table h).statement hb
    rw [Registry.primaryAlias_eq hmade] at hstatement
    rw [sources, joined, List.append_nil]
    refine ⟨hmade, fun t => Registry.mem_types_of_primary?, [text], ?_, rfl, ?_⟩
    · rw [String.intercalate_singleton]
    · exact List.forall_mem_singleton.2 hstatement
  | insert calls => cases hr
  | merge table calls => cases hr

/-- **The aliases of a built statement.** Each statement of a query, an UPDATE or a DELETE that is
built without SQL of the caller introduces one alias for the primary table and one for each call
that joins a type, in this order, and the alias is that of the type's place among the mentioned
ones. Every alias before a dot is that of a mentioned type, and it is introduced in the same
statement just if this is the primary type or a joined one. No alias is introduced twice just if
these types are distinct. -/
theorem build_introduces (settings : Settings) (chain : Chain) {r : Registry}
    (hr : chain.registry? settings = some r) (h : chain.IsSafe) {text : String}
    (hb : chain.build settings = .ok text) :
    (∀ t ∈ chain.sources r, t ∈ r.types) ∧
    ∃ texts, text = String.intercalate "\n" texts ∧ texts.length = chain.count settings ∧
      ∀ s ∈ texts, Terminated 1 s ∧
        introductions s =
          (chain.sources r).map (fun t => bracketed (Registry.aliasAt (r.types.idxOf t))) ∧
        (∀ k, HasQualifier k s → ∃ t, r.types[k]? = some t ∧
          (bracketed (Registry.aliasAt k) ∈ introductions s ↔ t ∈ chain.sources r)) ∧
        ((introductions s).Nodup ↔ (chain.sources r).Nodup) := by
  obtain ⟨hmade, hmem, texts, htext, hlength, hstatements⟩ := statements settings chain hr h hb
  refine ⟨hmem, texts, htext, hlength, fun s hs => ?_⟩
  have hstatement := hstatements s hs
  exact ⟨hstatement.isStatement.terminated, hstatement.sources hmade hmem⟩

/-- A query that first speaks of a type which it joins later, and selects a string that looks like
an alias. -/
theorem build_introduces_join :
    let city : MappedType := ⟨"City", "City", none, [Column.plain "Id" "Id"]⟩
    let road : MappedType := ⟨"Road", "Road", none, [Column.plain "To" "To"]⟩
    let calls : List Select.Step :=
      [.selectAll road, .fromType city, .crossJoin city road,
        .selectItems city [.column city "Id", .constant (.string "t7.")]]
    let chain : Chain := .select calls
    let r := (selected .default calls).draft.registry
    let text := "SELECT t0.[To],t1.[Id],'t7.' FROM [dbo].[City] [t1] " ++
      "CROSS JOIN [dbo].[Road] [t0] WITH (NOLOCK);"
    chain.registry? .default = some r ∧ chain.IsSafe ∧ chain.build .default = .ok text ∧
      ∃ texts, text = String.intercalate "\n" texts ∧ texts.length = 1 ∧
        ∀ s ∈ texts, Terminated 1 s ∧ introductions s = ["[t1]", "[t0]"] ∧
          (∀ k, HasQualifier k s → ∃ t, [road, city][k]? = some t ∧
            (bracketed (Registry.aliasAt k) ∈ introductions s ↔ t ∈ [city, road])) ∧
          ((introductions s).Nodup ↔ [city, road].Nodup) := by
  intro city road calls chain r text
  have hsafe : chain.IsSafe := by
    show ∀ call ∈ calls, call.isSafe = true
    decide
  have hbuild : chain.build .default = .ok text := by decide
  have htypes : r.types = [road, city] := by decide
  have hsources : chain.sources r = [city, road] := by decide
  have hnames : [city, road].map
      (fun t => bracketed (Registry.aliasAt ([road, city].idxOf t))) = ["[t1]", "[t0]"] := by
    decide
  obtain ⟨-, texts, htext, hlength, hstatements⟩ :=
    build_introduces .default chain rfl hsafe hbuild
  rw [show (selected .default calls).draft.registry = r from rfl, htypes, hsources, hnames]
    at hstatements
  exact ⟨rfl, hsafe, hbuild, texts, htext, hlength, hstatements⟩

/-- Two queries whose aliases do not go together with their tables: one selects the columns of a
type that it does not join, and one joins a type to itself. -/
theorem build_unintroduced :
    let employee : MappedType :=
      ⟨"Employee", "Employee", some "dbo", [(Column.plain "Id" "Id").asKey, .plain "Name" "Name"]⟩
    let department : MappedType :=
      ⟨"Department", "Department", some "dbo",
        [(Column.plain "Id" "Id").asKey, .plain "Title" "Title"]⟩
    let unjoined : Chain := .select [.fromType employee, .selectAll department]
    let looped : Chain := .select [.fromType employee, .crossJoin employee employee]
    let text := "SELECT t1.[Id],t1.[Title] FROM [dbo].[Employee] [t0];"
    let twice :=
      "SELECT * FROM [dbo].[Employee] [t0] CROSS JOIN [dbo].[Employee] [t0] WITH (NOLOCK);"
    (unjoined.IsSafe ∧ unjoined.build .default = .ok text ∧ HasQualifier 1 text ∧
      "[t1]" ∉ introductions text) ∧
    (looped.IsSafe ∧ looped.build .default = .ok twice ∧
      introductions twice = ["[t0]", "[t0]"]) := by
  intro employee department unjoined looped text twice
  refine ⟨⟨?unjoined, by decide, by decide +kernel, by decide +kernel⟩, ?looped, by decide,
    by decide +kernel⟩
  case unjoined =>
    show ∀ call ∈ _, Select.Step.isSafe call = true
    decide
  case looped =>
    show ∀ call ∈ _, Select.Step.isSafe call = true
    decide

end Chain

end SqlWright
