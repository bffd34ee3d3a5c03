import SqlWright.Proofs.Closed.Query
import SqlWright.Statement.Delete
import SqlWright.Statement.Insert
import SqlWright.Statement.Update

/-!
# Statements that change rows are closed

INSERT, UPDATE and DELETE made by calls that pass no text of the caller. Each call keeps the parts
closed; the finished text is a closed one with a semicolon after it, and for UPDATE one such text
for every row. The only alias that an UPDATE or a DELETE introduces is the one of its primary table.
-/

namespace SqlWright

open Text Outcome

/-! ## INSERT -/

/-- The texts of what is inserted are closed. -/
def InsertSource.IsClosed : InsertSource → Prop
  | .rows literals => ∀ row ∈ literals, ∀ p ∈ row, Closed p.2
  | .query sql => Closed sql
  | .defaults => True

namespace Insert

/-- A call that passes neither SQL that the caller wrote nor a time of day nor a time with an
offset. -/
def Step.IsSafe : Step → Prop
  | .addItem _ item => item.allValues Value.timeless = true
  | .addItems _ items => ∀ item ∈ items, item.allValues Value.timeless = true
  | .addValues values => ∀ v ∈ values, v.2.timeless = true
  | .fromQuery q => q.IsMadeSafely
  | .setQuery _ => False
  | .intoType _ | .intoTable _ | .setColumns _ | .addHints _ | .setDefaults => True

/-- All parts of an INSERT statement are closed; its aliases are those of a chain of mentions. -/
structure IsClosed (s : Insert) : Prop where
  registry : s.draft.registry.Numbered
  destination : ∀ t ∈ s.destination, Closed t
  source : ∀ source ∈ s.source, source.IsClosed

theorem new_closed (settings : Settings) : (new settings).IsClosed where
  registry := .empty _
  destination := fun t ht => by cases ht
  source := fun source h => by cases h

namespace IsClosed

variable {s : Insert}

theorem reject (h : s.IsClosed) (e : Error) : (s.reject e).IsClosed :=
  { h with }

theorem intoTable (h : s.IsClosed) (name : TableName) : (s.intoTable name).IsClosed := by
  refine { h with
    registry := (Draft.accept_extends _ _ _).numbered h.registry
    destination := ?_ }
  exact Draft.accept_some h.destination fun _ ht => (TableName.text_isIdentifier ht).closed

theorem addRow (h : s.IsClosed) {row : List (String × String)} (hr : ∀ p ∈ row, Closed p.2) :
    (s.addRow row).IsClosed := by
  rw [Insert.addRow]
  split
  · refine { h with source := ?_ }
    intro source hmem
    cases hmem
    exact List.forall_mem_singleton.2 hr
  · next rows hs =>
    refine { h with source := ?_ }
    intro source hmem
    cases hmem
    exact List.forall_mem_append.2 ⟨h.source _ hs, List.forall_mem_singleton.2 hr⟩
  · exact h.reject _

theorem addRowOutcome (h : s.IsClosed) {result : Outcome (List (String × String))}
    (hr : ∀ row, result = .ok row → ∀ p ∈ row, Closed p.2) : (s.addRowOutcome result).IsClosed := by
  cases result with
  | ok row => exact h.addRow (hr row rfl)
  | error e => exact h.reject e

theorem addItem (h : s.IsClosed) (t : MappedType) {item : Record Field}
    (hi : item.allValues Value.timeless = true) : (s.addItem t item).IsClosed := by
  refine h.addRowOutcome fun pairs hp => ?_
  obtain ⟨row, hrow, rfl⟩ := map_eq_ok.1 hp
  exact fun p hp => ((MappedType.row_closed hi hrow).pairs p hp).closed

theorem addItems (h : s.IsClosed) (t : MappedType) {items : List (Record Field)}
    (hi : ∀ item ∈ items, item.allValues Value.timeless = true) :
    (s.addItems t items).IsClosed := by
  show IsClosed (List.foldl _ _ items)
  exact List.foldlRecOn items _ h fun _ ih item hm => ih.addItem t (hi item hm)

theorem addValues (h : s.IsClosed) {values : List (String × Value)}
    (hv : ∀ v ∈ values, v.2.timeless = true) : (s.addValues values).IsClosed := by
  refine h.addRowOutcome fun pairs hp => ?_
  obtain ⟨row, hrow, rfl⟩ := map_eq_ok.1 hp
  have hclosed : Row.IsClosed row :=
    forall_mem_of_mapM hrow fun v hm _ hc => Draft.columnValue_scoped (hv v hm) hc
  exact fun p hp => (hclosed.pairs p hp).closed

theorem setDefaults (h : s.IsClosed) : s.setDefaults.IsClosed := by
  rw [Insert.setDefaults]
  split
  · refine { h with source := ?_ }
    intro source hmem
    cases hmem
    trivial
  · refine { h with source := ?_ }
    intro source hmem
    cases hmem
    trivial
  · exact h.reject _

theorem fromQuery (h : s.IsClosed) {q : Select} (hq : q.IsMadeSafely) :
    (s.fromQuery q).IsClosed := by
  rw [Insert.fromQuery]
  cases hsub : q.subquery with
  | error e => exact h.reject e
  | ok sql =>
    show (s.setQuery sql).IsClosed
    rw [Insert.setQuery]
    split
    · refine { h with source := ?_ }
      intro source hmem
      cases hmem
      exact hq.isClosed.subquery hsub
    · exact h.reject _

theorem step (h : s.IsClosed) {call : Step} (hc : call.IsSafe) : (s.step call).IsClosed := by
  cases call with
  | intoType t =>
    refine ⟨h.registry.add t true, ?_, h.source⟩
    intro text hmem
    cases hmem
    exact ((h.registry.add t true).qualifiedName_isIdentifier (Registry.entry_mem _ t true)).closed
  | intoTable name => exact h.intoTable name
  | setColumns columns => exact { h with }
  | addHints hints => exact { h with }
  | addItem t item => exact h.addItem t hc
  | addItems t items => exact h.addItems t hc
  | addValues values => exact h.addValues hc
  | setDefaults => exact h.setDefaults
  | fromQuery q => exact h.fromQuery hc
  | setQuery sql => exact hc.elim

theorem run (h : s.IsClosed) {calls : List Step} (hc : ∀ call ∈ calls, call.IsSafe) :
    (s.run calls).IsClosed := by
  show IsClosed (List.foldl _ _ calls)
  exact List.foldlRecOn calls _ h fun _ ih call hm => ih.step (hc call hm)

end IsClosed

theorem columnsText_closed (columns : List String) : Closed (columnsText columns) := by
  refine Closed.parenthesized (.commas fun t ht => ?_)
  obtain ⟨name, -, rfl⟩ := List.mem_map.1 ht
  exact .bracketed name

theorem rowText_closed {columns : List String} {index : Nat} {row : List (String × String)}
    {text : String} (hr : ∀ p ∈ row, Closed p.2) (h : rowText columns index row = .ok text) :
    Closed text := by
  rw [rowText] at h
  split at h
  · cases h
  · obtain ⟨literals, hl, h⟩ := bind_eq_ok.1 h
    cases h
    refine Closed.parenthesized (.commas (forall_mem_of_mapM hl fun column _ literal hc => ?_))
    split at hc
    · next found hf =>
      cases hc
      obtain ⟨before, after, rfl, -⟩ := List.lookup_eq_some_iff.1 hf
      exact hr (column, literal) (List.mem_append_right _ List.mem_cons_self)
    · cases hc

theorem rowsText_closed {columns : List String} {rows : List (List (String × String))}
    {text : String} (hr : ∀ row ∈ rows, ∀ p ∈ row, Closed p.2)
    (h : rowsText columns rows = .ok text) : Closed text := by
  obtain ⟨texts, ht, h⟩ := bind_eq_ok.1 h
  cases h
  refine .commas (forall_mem_of_mapM ht fun numbered hn t hnt => ?_)
  exact rowText_closed (hr _ (List.fst_mem_of_mem_zipIdx hn)) hnt

theorem sourceText_closed {columns : List String} {source : Option InsertSource} {text : String}
    (hs : ∀ x ∈ source, InsertSource.IsClosed x) (h : sourceText columns source = .ok text) :
    Closed text := by
  have hvalues : Closed " VALUES " := .of_inert (by decide)
  have hcolumns := Closed.space.append (columnsText_closed columns)
  unfold sourceText at h
  split at h
  · cases h
  · cases h
    exact .of_inert (by decide)
  · next sql =>
    split at h
    · cases h
    · cases h
      have hsql : Closed sql := hs (.query sql) rfl
      exact (hcolumns.append .space).append hsql
  · next rows =>
    split at h
    · cases h
    · obtain ⟨t, ht, rfl⟩ := map_eq_ok.1 h
      have hrows : Closed t := rowsText_closed (hs (.rows rows) rfl) ht
      exact (hcolumns.append hvalues).append hrows

theorem IsClosed.build {s : Insert} (h : s.IsClosed) {text : String} (ht : s.build = .ok text) :
    IsStatement text := by
  have hinsert : Closed "INSERT INTO " := .of_inert (by decide)
  have ht := (Draft.finish_eq_ok ht).2
  split at ht
  · cases ht
  · next destination hd =>
    obtain ⟨source, hs, rfl⟩ := map_eq_ok.1 ht
    have hsource := sourceText_closed h.source hs
    have hhints := (s.hints.suffixed_scoped (n := 0)).closed
    exact ⟨_, ((hinsert.append (h.destination _ hd)).append hhints).append hsource, rfl⟩

end Insert

/-! ## UPDATE -/

namespace Update

/-- A call that passes neither SQL that the caller wrote nor a time of day nor a time with an
offset. -/
def Step.IsSafe : Step → Prop
  | .addItem _ item => item.allValues Value.timeless = true
  | .addItems _ items => ∀ item ∈ items, item.allValues Value.timeless = true
  | .addValues values => ∀ v ∈ values, v.2.timeless = true
  | .setValue _ value => value.timeless = true
  | .addCondition _ condition _ => condition.isTimeless = true
  | .addConditionRaw _ _ => False
  | .target _ | .limit _ | .addHints _ => True

/-- All parts of an UPDATE statement are closed; its aliases are those of a chain of mentions. -/
structure IsClosed (s : Update) : Prop where
  registry : s.draft.registry.Numbered
  table : ∀ t ∈ s.table, IsIdentifier t
  rows : ∀ row ∈ s.rows, row.IsClosed
  conditions : s.conditions.IsClosed s.draft.registry

theorem new_closed (settings : Settings) : (new settings).IsClosed where
  registry := .empty _
  table := fun t ht => by cases ht
  rows := List.forall_mem_nil _
  conditions := List.forall_mem_nil _

theorem setLast_closed {v : ColumnValue} (hv : Scoped 0 v.literal) {rows : List Row}
    (h : ∀ row ∈ rows, row.IsClosed) : ∀ row ∈ setLast v rows, row.IsClosed := by
  fun_induction setLast v rows with
  | case1 => exact List.forall_mem_singleton.2 (List.forall_mem_singleton.2 hv)
  | case2 row => exact List.forall_mem_singleton.2 ((h row List.mem_cons_self).set hv)
  | case3 row more _ ih =>
    rw [List.forall_mem_cons] at h ⊢
    exact ⟨h.1, ih h.2⟩

/-- Further mentions do no harm. -/
theorem IsClosed.withDraft {s : Update} (h : s.IsClosed) {d : Draft}
    (hd : d.registry.Extends s.draft.registry) : ({ s with draft := d } : Update).IsClosed where
  registry := hd.numbered h.registry
  table := h.table
  rows := h.rows
  conditions := h.conditions.of_extends hd

theorem ofTable_closed (settings : Settings) (name : TableName) :
    (ofTable settings name).IsClosed := by
  have h := new_closed settings
  refine { h.withDraft (Draft.accept_extends _ _ _) with table := ?_ }
  exact Draft.accept_some h.table fun _ ht => TableName.text_isIdentifier ht

namespace IsClosed

variable {s : Update}

/-- A call that offers rows keeps the statement closed if the offered rows are closed. -/
theorem acceptRows (h : s.IsClosed) {result : Outcome (List Row)}
    (hr : ∀ rows, result = .ok rows → ∀ row ∈ rows, row.IsClosed) :
    ({ s with
      draft := (s.draft.accept result s.rows).1
      rows := (s.draft.accept result s.rows).2 } : Update).IsClosed :=
  { h.withDraft (Draft.accept_extends _ _ _) with
    rows := Draft.accept_induction (P := fun rows => ∀ row ∈ rows, Row.IsClosed row) h.rows hr }

theorem acceptRow (h : s.IsClosed) {result : Outcome Row}
    (hr : ∀ row, result = .ok row → row.IsClosed) :
    ∀ rows, result.map (fun row => s.rows ++ [row]) = .ok rows → ∀ row ∈ rows, row.IsClosed := by
  intro rows hrows
  obtain ⟨row, hrow, rfl⟩ := map_eq_ok.1 hrows
  exact List.forall_mem_append.2 ⟨h.rows, List.forall_mem_singleton.2 (hr row hrow)⟩

theorem addItem (h : s.IsClosed) (t : MappedType) {item : Record Field}
    (hi : item.allValues Value.timeless = true) : (s.addItem t item).IsClosed :=
  h.acceptRows (h.acceptRow fun _ hrow => MappedType.row_closed hi hrow)

theorem addItems (h : s.IsClosed) (t : MappedType) {items : List (Record Field)}
    (hi : ∀ item ∈ items, item.allValues Value.timeless = true) :
    (s.addItems t items).IsClosed := by
  show IsClosed (List.foldl _ _ items)
  exact List.foldlRecOn items _ h fun _ ih item hm => ih.addItem t (hi item hm)

theorem addValues (h : s.IsClosed) {values : List (String × Value)}
    (hv : ∀ v ∈ values, v.2.timeless = true) : (s.addValues values).IsClosed :=
  h.acceptRows (h.acceptRow fun _ hrow =>
    forall_mem_of_mapM hrow fun v hm _ hc => Draft.columnValue_scoped (hv v hm) hc)

theorem setValue (h : s.IsClosed) (column : String) {value : Value}
    (hv : value.timeless = true) : (s.setValue column value).IsClosed := by
  refine h.acceptRows fun rows hrows => ?_
  obtain ⟨v, hc, rfl⟩ := map_eq_ok.1 hrows
  exact setLast_closed (Draft.columnValue_scoped hv hc) h.rows

theorem addCondition (h : s.IsClosed) (t : MappedType) {condition : Expr}
    (hc : condition.isTimeless = true) (op : Connective) :
    (s.addCondition t condition op).IsClosed := by
  have hresult := h.conditions.acceptWith h.registry t hc op
  exact { h.withDraft hresult.1 with conditions := hresult.2 }

theorem step (h : s.IsClosed) {call : Step} (hc : call.IsSafe) : (s.step call).IsClosed := by
  cases call with
  | target t => exact h.withDraft (.add _ t true)
  | limit top => exact { h with }
  | addHints hints => exact { h with }
  | addItem t item => exact h.addItem t hc
  | addItems t items => exact h.addItems t hc
  | addValues values => exact h.addValues hc
  | setValue column value => exact h.setValue column hc
  | addCondition t condition op => exact h.addCondition t hc op
  | addConditionRaw condition op => exact hc.elim

theorem run (h : s.IsClosed) {calls : List Step} (hc : ∀ call ∈ calls, call.IsSafe) :
    (s.run calls).IsClosed := by
  show IsClosed (List.foldl _ _ calls)
  exact List.foldlRecOn calls _ h fun _ ih call hm => ih.step (hc call hm)

theorem front {n : Nat} (s : Update) :
    Scoped n ("UPDATE " ++ s.topText) ∧ Guards (masked ("UPDATE " ++ s.topText)) := by
  have hupdate : Scoped n "UPDATE " := .word (by decide)
  rw [topText]
  split
  · rw [String.append_empty]
    exact ⟨hupdate, .of_ends (by decide)⟩
  · next top _ =>
    have htop : Scoped n top.groupedText := top.groupedText_scoped
    exact ⟨hupdate.append htop, top.groupedText_guards.masked_append hupdate.closed.isSealed
      htop.closed.no_bracket⟩

/-- What stands before the assignments introduces nothing; what stands after them introduces the
alias of the primary table. -/
theorem frame (h : s.IsClosed) {head tail : String} (hf : s.frame = .ok (head, tail)) :
    s.draft.registry.Scopes head ∧
      ∀ {t}, s.draft.registry.Scopes t →
        Introduces s.draft.registry.entries.length s.draft.registry.primaryAlias (t ++ tail) := by
  obtain ⟨hfront, hguards⟩ := front (n := s.draft.registry.entries.length) s
  have hfrom : s.draft.registry.Scopes " FROM " := .word (by decide)
  unfold Update.frame at hf
  rw [Registry.primaryAlias]
  split at hf
  · next primary hp =>
    cases hf
    rw [hp]
    refine ⟨hfront.named hguards primary.aliasName, fun {t} ht => ?_⟩
    have hkeyword : EndsInKeyword (t ++ " FROM ") :=
      .of_word ht.closed.isSealed (by decide) (.inl (by decide))
    have hsource := (Scoped.append ht hfrom).introduces.append_source hkeyword
      (h.registry.isSource (Registry.mem_of_primary? hp))
    rw [← String.append_assoc, ← String.append_assoc]
    exact hsource.append_scoped s.hints.suffixed_scoped
  · next table hp ht =>
    split at hf
    · cases hf
      rw [hp]
      refine ⟨((h.table table ht).scoped hfront hguards).append s.hints.suffixed_scoped, ?_⟩
      intro t ht
      rw [String.append_empty]
      exact Scoped.introduces ht
    · cases hf
  · cases hf

theorem keys {row : Row} (hr : row.IsClosed) {index : Nat} {keys : List (String × String)}
    (hk : s.keys index row = .ok keys) : ∀ k ∈ keys, Scoped 0 k.2 := by
  unfold Update.keys at hk
  split at hk
  · refine forall_mem_of_mapM hk fun key _ pair hp => ?_
    split at hp
    · next literal hl =>
      cases hp
      exact hr.literal? hl
    · cases hp
  · cases hk
    have hfiltered : Row.IsClosed (row.filter fun v => v.searchKey) :=
      fun v hv => hr v (List.mem_of_mem_filter hv)
    exact hfiltered.pairs

theorem conditionText (h : s.IsClosed) {row : Row} (hr : row.IsClosed) {index : Nat}
    {text : String} (ht : s.conditionText index row = .ok text) :
    s.draft.registry.Scopes text := by
  rw [Update.conditionText] at ht
  split at ht
  · obtain ⟨keys, hk, ht⟩ := bind_eq_ok.1 ht
    split at ht
    · cases ht
    · cases ht
      exact (keyCondition_scoped (IsClosed.keys hr hk)).mono (Nat.zero_le _)
  · cases ht
    exact h.conditions.text

theorem assignments {row : Row} (hr : row.IsClosed) :
    ∀ t ∈ Update.assignments row, StartsNamed 0 t := by
  intro t ht
  obtain ⟨v, hv, rfl⟩ := List.mem_map.1 ht
  exact ⟨v.column, "=" ++ v.literal, String.append_assoc ..,
    Scoped.equal.append (hr v (List.mem_of_mem_filter hv))⟩

theorem rowText (h : s.IsClosed) {head tail : String} (hf : s.frame = .ok (head, tail))
    {row : Row} (hr : row.IsClosed) {index : Nat} {text : String}
    (ht : s.rowText head tail index row = .ok text) :
    IsStatementOf s.draft.registry.entries.length s.draft.registry.primaryAlias text := by
  have hset : s.draft.registry.Scopes " SET " := .word (by decide)
  have hwhere : s.draft.registry.Scopes " WHERE " := .word (by decide)
  obtain ⟨hhead, htail⟩ := h.frame hf
  rw [Update.rowText] at ht
  split at ht
  · cases ht
  · obtain ⟨condition, hc, rfl⟩ := map_eq_ok.1 ht
    have hcondition := h.conditionText hr hc
    have hcomma : s.draft.registry.Scopes "," := .word (by decide)
    have hassignments := (hhead.append hset).listed (.ends hhead.closed.isSealed (by decide))
      hcomma (.of_ends (by decide)) fun t ht => (assignments hr t ht).mono (Nat.zero_le _)
    exact ⟨_, ((htail hassignments).append_scoped hwhere).append_scoped hcondition, rfl⟩

/-- The finished text has one statement for every row. -/
theorem statements (h : s.IsClosed) {text : String} (ht : s.build = .ok text) :
    ∃ texts, text = String.intercalate "\n" texts ∧ texts.length = s.rows.length ∧ texts ≠ [] ∧
      ∀ t ∈ texts,
        IsStatementOf s.draft.registry.entries.length s.draft.registry.primaryAlias t := by
  have ht := (Draft.finish_eq_ok ht).2
  obtain ⟨⟨head, tail⟩, hf, ht⟩ := bind_eq_ok.1 ht
  dsimp only at ht
  split at ht
  · cases ht
  · next hne =>
    obtain ⟨texts, hm, ht⟩ := bind_eq_ok.1 ht
    cases ht
    have hlength : texts.length = s.rows.length := by
      rw [← (mapM_eq_ok.1 hm).length_eq, List.length_zipIdx]
    refine ⟨texts, rfl, hlength, ?_, ?_⟩
    · intro hnil
      subst hnil
      exact hne (List.isEmpty_iff.2 (List.eq_nil_of_length_eq_zero hlength.symm))
    · exact forall_mem_of_mapM hm fun numbered hn t hnt =>
        h.rowText hf (h.rows _ (List.fst_mem_of_mem_zipIdx hn)) hnt

theorem build (h : s.IsClosed) {text : String} (ht : s.build = .ok text) :
    Terminated s.rows.length text := by
  obtain ⟨texts, rfl, hlength, hne, hstatements⟩ := h.statements ht
  rw [← hlength]
  exact .lines hne fun t hm => (hstatements t hm).isStatement

end IsClosed

end Update

/-! ## DELETE -/

namespace Delete

/-- A call that passes neither SQL that the caller wrote nor a time of day nor a time with an
offset. -/
def Step.IsSafe : Step → Prop
  | .addCondition _ condition _ => condition.isTimeless = true
  | .addConditionRaw _ _ => False
  | .addItem _ item _ => item.allValues Value.timeless = true
  | .target _ | .limit _ | .addHints _ | .allowAll => True

/-- All parts of a DELETE statement are closed; its aliases are those of a chain of mentions. -/
structure IsClosed (s : Delete) : Prop where
  registry : s.draft.registry.Numbered
  table : ∀ t ∈ s.table, IsIdentifier t
  conditions : s.conditions.IsClosed s.draft.registry

theorem new_closed (settings : Settings) : (new settings).IsClosed where
  registry := .empty _
  table := fun t ht => by cases ht
  conditions := List.forall_mem_nil _

/-- Further mentions do no harm. -/
theorem IsClosed.withDraft {s : Delete} (h : s.IsClosed) {d : Draft}
    (hd : d.registry.Extends s.draft.registry) : ({ s with draft := d } : Delete).IsClosed where
  registry := hd.numbered h.registry
  table := h.table
  conditions := h.conditions.of_extends hd

theorem ofTable_closed (settings : Settings) (name : TableName) :
    (ofTable settings name).IsClosed := by
  have h := new_closed settings
  refine { h.withDraft (Draft.accept_extends _ _ _) with table := ?_ }
  exact Draft.accept_some h.table fun _ ht => TableName.text_isIdentifier ht

theorem itemCondition_scoped {n : Nat} {settings : Settings} {t : MappedType}
    {item : Record Field} {text : String} (hi : item.allValues Value.timeless = true)
    (h : itemCondition settings t item = .ok text) : Scoped n text := by
  obtain ⟨row, hr, h⟩ := bind_eq_ok.1 h
  split at h
  · cases h
  · cases h
    exact (keyCondition_scoped (MappedType.row_closed hi hr).pairs).mono (Nat.zero_le _)

namespace IsClosed

variable {s : Delete}

theorem addCondition (h : s.IsClosed) (t : MappedType) {condition : Expr}
    (hc : condition.isTimeless = true) (op : Connective) :
    (s.addCondition t condition op).IsClosed := by
  have hresult := h.conditions.acceptWith h.registry t hc op
  exact { h.withDraft hresult.1 with conditions := hresult.2 }

theorem addItem (h : s.IsClosed) (t : MappedType) {item : Record Field}
    (hi : item.allValues Value.timeless = true) (op : Connective) :
    (s.addItem t item op).IsClosed := by
  have hregistry : (s.addItem t item op).draft.registry = s.draft.registry :=
    Draft.accept_registry _ _ _
  refine { h.withDraft (Draft.accept_extends _ _ _) with conditions := ?_ }
  rw [hregistry]
  refine Draft.accept_induction (P := Conditions.IsClosed _) h.conditions fun new hn => ?_
  obtain ⟨text, ht, rfl⟩ := map_eq_ok.1 hn
  exact h.conditions.addRaw (itemCondition_scoped hi ht) op

theorem step (h : s.IsClosed) {call : Step} (hc : call.IsSafe) : (s.step call).IsClosed := by
  cases call with
  | target t => exact h.withDraft (.add _ t true)
  | limit top => exact { h with }
  | addHints hints => exact { h with }
  | allowAll => exact { h with }
  | addCondition t condition op => exact h.addCondition t hc op
  | addConditionRaw condition op => exact hc.elim
  | addItem t item op => exact h.addItem t hc op

theorem run (h : s.IsClosed) {calls : List Step} (hc : ∀ call ∈ calls, call.IsSafe) :
    (s.run calls).IsClosed := by
  show IsClosed (List.foldl _ _ calls)
  exact List.foldlRecOn calls _ h fun _ ih call hm => ih.step (hc call hm)

/-- The table that rows are taken from introduces the alias of the primary table. -/
theorem targetText (h : s.IsClosed) {target : String} (ht : s.targetText = .ok target)
    {front : String} (hf : s.draft.registry.Scopes front) :
    Introduces s.draft.registry.entries.length s.draft.registry.primaryAlias
      (front ++ "FROM " ++ target) := by
  have hfrom : s.draft.registry.Scopes (front ++ "FROM ") := Scoped.append hf (.word (by decide))
  unfold Delete.targetText at ht
  rw [Registry.primaryAlias]
  split at ht
  · next primary hp =>
    cases ht
    rw [hp]
    have hkeyword : EndsInKeyword (front ++ "FROM ") :=
      .of_word hf.closed.isSealed (by decide) (.inl (by decide))
    exact hfrom.introduces.append_source hkeyword
      (h.registry.isSource (Registry.mem_of_primary? hp))
  · next table hp htable =>
    split at ht
    · cases ht
      rw [hp]
      have hguards : Guards (masked (front ++ "FROM ")) := .ends hf.closed.isSealed (by decide)
      exact ((h.table target htable).scoped hfrom hguards).introduces
    · cases ht
  · cases ht

theorem statement (h : s.IsClosed) {text : String} (ht : s.build = .ok text) :
    IsStatementOf s.draft.registry.entries.length s.draft.registry.primaryAlias text := by
  have hdelete : s.draft.registry.Scopes "DELETE " := .word (by decide)
  have ht := (Draft.finish_eq_ok ht).2
  obtain ⟨target, htarget, ht⟩ := bind_eq_ok.1 ht
  split at ht
  · cases ht
  · cases ht
    refine ⟨_, ((h.targetText htarget (hdelete.append ?top)).append_scoped
      s.hints.suffixed_scoped).append_scoped h.conditions.clause, rfl⟩
    split
    · exact .empty
    · next top _ => exact top.groupedText_scoped

theorem build (h : s.IsClosed) {text : String} (ht : s.build = .ok text) : IsStatement text :=
  (h.statement ht).isStatement

end IsClosed

end Delete

end SqlWright
