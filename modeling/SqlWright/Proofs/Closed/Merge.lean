import SqlWright.Proofs.Closed.Query
import SqlWright.Statement.Merge

/-!
# MERGE is closed

MERGE statements whose source is a query, without a condition of a match, and whose clauses have
only the two conditions that are keywords. Their actions come from the functions that make actions
of items, of values or of the columns of the source. All names may be anything, also the alias of
the source.
-/

namespace SqlWright

open Text Outcome

/-! ## Actions -/

namespace MergeAction

/-- The texts in an action are closed. -/
def IsClosed : MergeAction → Prop
  | .update assignments => ∀ a ∈ assignments, Closed a.2
  | .insert _ values => ∀ v ∈ values, Closed v
  | .delete => True
  | .raw _ => False

/-- An action that is made without SQL that the caller wrote and without times of day and times with
an offset. -/
inductive IsSafe : MergeAction → Prop
  | ofValues {values : List (String × Value)} :
      (∀ v ∈ values, v.2.timeless = true) → IsSafe (ofValues values)
  | updateItem {t : MappedType} {item : Record Field} {a : MergeAction} :
      item.allValues Value.timeless = true → updateItem t item = .ok a → IsSafe a
  | insertItem {t : MappedType} {item : Record Field} {a : MergeAction} :
      item.allValues Value.timeless = true → insertItem t item = .ok a → IsSafe a
  | updateSource (t : MappedType) (source : String) : IsSafe (updateSource t source)
  | insertSource (t : MappedType) (source : String) : IsSafe (insertSource t source)
  | delete : IsSafe .delete

theorem sourceColumn_closed (source : String) (c : Column) : Closed (sourceColumn source c) := by
  exact ((Closed.bracketed source).append .dot).append (.bracketed c.name)

theorem IsSafe.isClosed {a : MergeAction} (h : a.IsSafe) : a.IsClosed := by
  cases h with
  | ofValues hv =>
    intro p hp
    obtain ⟨v, hm, rfl⟩ := List.mem_map.1 hp
    exact Value.literal_closed enumMode v.2 (hv v hm)
  | updateItem hi ha =>
    obtain ⟨row, hr, rfl⟩ := map_eq_ok.1 ha
    exact fun p hp => ((MappedType.row_closed hi hr).pairs p hp).closed
  | insertItem hi ha =>
    obtain ⟨row, hr, rfl⟩ := map_eq_ok.1 ha
    intro t ht
    obtain ⟨v, hv, rfl⟩ := List.mem_map.1 ht
    exact (MappedType.row_closed hi hr v hv).closed
  | updateSource t source =>
    intro p hp
    obtain ⟨c, -, rfl⟩ := List.mem_map.1 hp
    exact sourceColumn_closed source c
  | insertSource t source =>
    intro v hv
    obtain ⟨c, -, rfl⟩ := List.mem_map.1 hv
    exact sourceColumn_closed source c
  | delete => trivial

theorem IsClosed.text {a : MergeAction} (h : a.IsClosed) {text : String}
    (ht : a.text = .ok text) : Closed text := by
  have hupdate : Closed "UPDATE SET " := .of_inert (by decide)
  have hinsert : Spans 0 1 "INSERT (" := .plain (by decide) (by decide)
  have hvalues : Spans 1 1 ") VALUES (" := .plain (by decide) (by decide)
  cases a with
  | update assignments =>
    rw [MergeAction.text] at ht
    split at ht
    · cases ht
    · cases ht
      refine hupdate.append (Closed.commas fun t hm => ?_)
      obtain ⟨p, hp, rfl⟩ := List.mem_map.1 hm
      exact ((Closed.bracketed p.1).append .equal).append (h p hp)
  | insert columns values =>
    rw [MergeAction.text] at ht
    split at ht
    · cases ht
    · split at ht
      · cases ht
      · cases ht
        have hnames : Closed (String.intercalate "," (columns.map Text.bracketed)) := by
          refine .commas fun t hm => ?_
          obtain ⟨name, -, rfl⟩ := List.mem_map.1 hm
          exact .bracketed name
        have hall := Closed.commas h
        exact (((hinsert.append (hnames.under 1)).append hvalues).append (hall.under 1)).append
          Spans.closing
  | delete =>
    cases ht
    exact .of_inert (by decide)
  | raw sql => exact h.elim

end MergeAction

/-! ## Clauses -/

namespace MergeClause

/-- A condition that is absent or one of the two keywords. -/
def IsKeyword (condition : Option String) : Prop :=
  condition = none ∨ condition = some "BY TARGET" ∨ condition = some "BY SOURCE"

/-- A clause without text of the caller. -/
structure IsSafe (c : MergeClause) : Prop where
  condition : IsKeyword c.condition
  action : c.action.IsSafe

theorem conditionText_closed {condition : Option String} (h : IsKeyword condition) :
    Closed (conditionText condition) := by
  rcases h with rfl | rfl | rfl
  · exact .empty
  · exact .of_inert (t := " BY TARGET") (by decide)
  · exact .of_inert (t := " BY SOURCE") (by decide)

theorem IsSafe.text {c : MergeClause} (h : c.IsSafe) {text : String} (ht : c.text = .ok text) :
    Closed text := by
  have hwhen : Closed "WHEN " := .of_inert (by decide)
  have hthen : Closed " THEN " := .of_inert (by decide)
  have hmatched : Closed (if c.matched then "MATCHED" else "NOT MATCHED") := by
    split
    · exact .of_inert (by decide)
    · exact .of_inert (by decide)
  obtain ⟨action, ha, rfl⟩ := map_eq_ok.1 ht
  have haction := h.action.isClosed.text ha
  exact (((hwhen.append hmatched).append (conditionText_closed h.condition)).append hthen).append
    haction

end MergeClause

namespace Merge

/-- A call that passes neither SQL that the caller wrote nor a time of day nor a time with an
offset. -/
def Step.IsSafe : Step → Prop
  | .setSource _ _ _ => False
  | .setSourceQuery q _ condition => q.IsMadeSafely ∧ condition = none
  | .addClause c => c.IsSafe
  | .target _ | .limit _ | .addHints _ => True

/-- All parts of a MERGE statement are closed; its aliases are those of a chain of mentions. -/
structure IsClosed (s : Merge) : Prop where
  registry : s.draft.registry.Numbered
  table : ∀ named ∈ s.table, Closed named.1
  source : ∀ t ∈ s.source, Closed t
  clauses : ∀ c ∈ s.clauses, c.IsSafe

theorem new_closed (settings : Settings) : (new settings).IsClosed where
  registry := .empty _
  table := fun named h => by cases h
  source := fun t h => by cases h
  clauses := List.forall_mem_nil _

theorem ofTable_closed (settings : Settings) (name : TableName) (aliasName : String) :
    (ofTable settings name aliasName).IsClosed := by
  have h := new_closed settings
  refine { h with registry := (Draft.accept_extends _ _ _).numbered h.registry, table := ?_ }
  exact Draft.accept_some h.table fun _ ht =>
    (TableName.text_isIdentifier ht).closed

theorem sourceText_closed {sql : String} (h : Closed sql) (aliasName : String) :
    Closed (sourceText sql aliasName none) := by
  have husing : Spans 0 1 "USING (" := .plain (by decide) (by decide)
  have has : Spans 1 0 ") AS " := .plain (by decide) (by decide)
  have hsource := husing.append ((Closed.trim h).under 1)
  exact ((hsource.append has).append (Closed.bracketed aliasName)).append Closed.empty

namespace IsClosed

variable {s : Merge}

theorem setSourceQuery (h : s.IsClosed) {q : Select} (hq : q.IsMadeSafely) (aliasName : String) :
    (s.setSourceQuery q aliasName none).IsClosed := by
  refine { h with registry := (Draft.accept_extends _ _ _).numbered h.registry, source := ?_ }
  exact Draft.accept_some h.source fun _ hsql =>
    sourceText_closed (hq.isClosed.subquery hsql) aliasName

theorem step (h : s.IsClosed) {call : Step} (hc : call.IsSafe) : (s.step call).IsClosed := by
  cases call with
  | target t => exact { h with registry := h.registry.add t true }
  | limit top => exact { h with }
  | addHints hints => exact { h with }
  | setSource sql aliasName condition => exact hc.elim
  | setSourceQuery q aliasName condition =>
    obtain ⟨hq, rfl⟩ := hc
    exact h.setSourceQuery hq aliasName
  | addClause c =>
    exact { h with
      clauses := List.forall_mem_append.2 ⟨h.clauses, List.forall_mem_singleton.2 hc⟩ }

theorem run (h : s.IsClosed) {calls : List Step} (hc : ∀ call ∈ calls, call.IsSafe) :
    (s.run calls).IsClosed := by
  show IsClosed (List.foldl _ _ calls)
  exact List.foldlRecOn calls _ h fun _ ih call hm => ih.step (hc call hm)

theorem targetNames (h : s.IsClosed) {table aliasName : String}
    (ht : s.targetNames = .ok (table, aliasName)) : Closed table := by
  unfold Merge.targetNames at ht
  split at ht
  · next primary hp =>
    cases ht
    exact (h.registry.qualifiedName_isIdentifier (Registry.mem_of_primary? hp)).closed
  · next named _ hn =>
    cases ht
    exact h.table _ hn
  · cases ht

theorem build (h : s.IsClosed) {text : String} (ht : s.build = .ok text) : IsStatement text := by
  have hmerge : Closed "MERGE " := .of_inert (by decide)
  have has : Closed " AS " := .of_inert (by decide)
  have ht := (Draft.finish_eq_ok ht).2
  obtain ⟨⟨table, aliasName⟩, hnames, ht⟩ := bind_eq_ok.1 ht
  dsimp only at ht
  split at ht
  · cases ht
  · next source hs =>
    split at ht
    · cases ht
    · obtain ⟨clauses, hc, ht⟩ := bind_eq_ok.1 ht
      cases ht
      have hclauses : ∀ t ∈ source :: clauses, Closed t := by
        refine List.forall_mem_cons.2 ⟨h.source source hs, ?_⟩
        exact forall_mem_of_mapM hc fun c hm t htext => (h.clauses c hm).text htext
      have hbody := Closed.intercalate Closed.space hclauses
      have hhints := (s.hints.suffixed_scoped (n := 0)).closed
      refine ⟨_, (((((((hmerge.append ?top).append (h.targetNames hnames)).append
        hhints).append has).append (Closed.bracketed aliasName)).append
        Closed.space).append hbody), rfl⟩
      split
      · exact .empty
      · next top _ => exact (top.groupedText_scoped (n := 0)).closed

end IsClosed

end Merge

end SqlWright
