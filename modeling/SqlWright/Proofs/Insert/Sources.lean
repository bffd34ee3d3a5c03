import SqlWright.Proofs.Closed.Clauses
import SqlWright.Proofs.Failure.Calls

/-!
# What a chain of calls inserts

What each call on an INSERT statement gives to be inserted, said without looking at what the
statement holds by then: rows, defaults or a query. A statement that is finished has used all of it.
So the calls gave rows only, or asked for defaults only, or there was a single query among them and
nothing else to be inserted.
-/

namespace SqlWright

open Outcome

namespace Insert

/-! ## Tuples -/

/-- The text that a row becomes: in parentheses, and in the order of the columns, the literals that
the row has for them. The row has as many entries as there are columns. -/
def IsTuple (columns : List String) (row : List (String × String)) (tuple : String) : Prop :=
  row.length = columns.length ∧
    ∃ literals,
      List.Forall₂ (fun column literal => row.lookup column = some literal) columns literals ∧
        tuple = Text.parenthesized (String.intercalate "," literals)

variable {columns : List String} {row : List (String × String)} {text : String}

theorem rowText_eq_ok {index : Nat} :
    rowText columns index row = .ok text ↔ IsTuple columns row text := by
  rw [rowText, IsTuple]
  split
  · next hne =>
    refine iff_of_false (fun h => ?_) fun h => hne h.1
    cases h
  · next heq =>
    rw [bind_eq_ok, and_iff_right (not_not.1 heq)]
    refine exists_congr fun literals => and_congr ?_ ?_
    · rw [mapM_eq_ok]
      refine ⟨.imp fun column literal h => ?_, .imp fun column literal h => ?_⟩
      · cases hfound : row.lookup column with
        | none =>
          rw [hfound] at h
          cases h
        | some found =>
          rw [hfound] at h
          cases h
          rfl
      · rw [h]
    · rw [pure_eq_ok, Except.ok.injEq, eq_comm]

/-- Rows have a text just if each of them becomes a tuple. -/
theorem rowsText_eq_ok {rows : List (List (String × String))} :
    rowsText columns rows = .ok text ↔
      ∃ tuples, List.Forall₂ (IsTuple columns) rows tuples ∧
        text = String.intercalate "," tuples := by
  have htuples (tuples : List String) (first : Nat) :
      List.Forall₂ (fun (numbered : List (String × String) × Nat) tuple =>
          rowText columns numbered.2 numbered.1 = .ok tuple) (rows.zipIdx first) tuples ↔
        List.Forall₂ (IsTuple columns) rows tuples := by
    simp only [rowText_eq_ok]
    rw [← List.forall₂_map_left_iff (f := Prod.fst) (R := IsTuple columns), List.zipIdx_map_fst]
  rw [rowsText, bind_eq_ok]
  refine exists_congr fun tuples => and_congr ?_ ?_
  · rw [mapM_eq_ok]
    exact htuples tuples 0
  · rw [pure_eq_ok, Except.ok.injEq, eq_comm]

/-! ## What the calls give -/

/-- The row that a statement makes of an item. -/
def itemRow (s : Insert) (t : MappedType) (item : Record Field) :
    Outcome (List (String × String)) :=
  (t.row s.draft.settings.enumMode (fun c => c.inclusion.insert) item).map Row.pairs

/-- The row that a statement makes of some values. -/
def valuesRow (s : Insert) (values : List (String × Value)) : Outcome (List (String × String)) :=
  (values.mapM fun (name, v) => s.draft.columnValue name v).map Row.pairs

/-- One row as a source, if it is to be had. -/
def rowSource (row : Outcome (List (String × String))) : Outcome InsertSource :=
  row.map fun row => .rows [row]

/-- What a call gives to be inserted, or why it is not to be had: a row for every item, a row of
values, defaults or a query. The other calls give nothing. -/
def supply (s : Insert) : Step → List (Outcome InsertSource)
  | .addItem t item => [rowSource (s.itemRow t item)]
  | .addItems t items => items.map fun item => rowSource (s.itemRow t item)
  | .addValues values => [rowSource (s.valuesRow values)]
  | .setDefaults => [.ok .defaults]
  | .fromQuery q => [q.subquery.map .query]
  | .setQuery sql => [.ok (.query sql)]
  | .intoType _ | .intoTable _ | .setColumns _ | .addHints _ => []

/-- What the calls of a chain give to be inserted, in their order. Each call is made at the state
that the calls before it lead to. -/
def supplies : Insert → List Step → List (Outcome InsertSource)
  | _, [] => []
  | s, call :: calls => s.supply call ++ supplies (s.step call) calls

/-- What goes together, and the source that it makes: any number of rows, in their order; defaults,
however often they are asked for; a single query. -/
inductive Combines : List InsertSource → Option InsertSource → Prop
  | nothing : Combines [] none
  | rows {rows : List (List (String × String))} (h : rows ≠ []) :
      Combines (rows.map fun row => .rows [row]) (some (.rows rows))
  | defaults (more : Nat) : Combines (List.replicate (more + 1) .defaults) (some .defaults)
  | query (sql : String) : Combines [.query sql] (some (.query sql))

/-! ## One call after another -/

variable {s : Insert} {given : List InsertSource}

theorem fault_of_run {calls : List Step} (h : (s.run calls).draft.fault = none) :
    s.draft.fault = none := by
  rw [run_fault, Option.or_eq_none_iff] at h
  exact h.1

theorem failure?_of_step {call : Step} (h : (s.step call).draft.fault = none) :
    s.failure? call = none := by
  rw [step_fault, Option.or_eq_none_iff] at h
  exact h.2

/-- A row that is added without an error goes with what was given before. -/
theorem addRowOutcome_combines (h : Combines given s.source)
    {result : Outcome (List (String × String))}
    (hf : (s.addRowOutcome result).draft.fault = none) :
    ∃ row, rowSource result = .ok (.rows [row]) ∧
      Combines (given ++ [.rows [row]]) (s.addRowOutcome result).source := by
  rw [addRowOutcome_fault, rowFailure?, Option.or_eq_none_iff, Option.or_eq_none_iff] at hf
  obtain ⟨-, hresult, hclash⟩ := hf
  cases result with
  | error e => cases hresult
  | ok row =>
    refine ⟨row, rfl, ?_⟩
    show Combines _ (s.addRow row).source
    rw [rowClash?] at hclash
    rw [addRow]
    generalize s.source = source at h hclash
    cases h with
    | nothing => exact .rows (List.cons_ne_nil row [])
    | rows hne =>
      rw [← List.map_singleton (f := fun row => InsertSource.rows [row]), ← List.map_append]
      exact .rows (List.append_ne_nil_of_left_ne_nil hne [row])
    | defaults more => cases hclash
    | query sql => cases hclash

theorem addItem_settings (s : Insert) (t : MappedType) (item : Record Field) :
    (s.addItem t item).draft.settings = s.draft.settings := by
  show (s.addRowOutcome (s.itemRow t item)).draft.settings = _
  cases s.itemRow t item with
  | error e => rfl
  | ok row =>
    show (s.addRow row).draft.settings = _
    rw [addRow]
    split <;> rfl

/-- Several items give their rows one after the other. -/
theorem addItems_combines (t : MappedType) {items : List (Record Field)}
    (h : Combines given s.source) (hf : (s.addItems t items).draft.fault = none) :
    ∃ more, s.supply (.addItems t items) = more.map .ok ∧
      Combines (given ++ more) (s.addItems t items).source := by
  induction items generalizing s given with
  | nil => exact ⟨[], rfl, by rwa [List.append_nil]⟩
  | cons item items ih =>
    have hsame : (s.addItem t item).supply (.addItems t items) = s.supply (.addItems t items) := by
      simp only [supply, itemRow, addItem_settings]
    have hrest : ((s.addItem t item).run [.addItems t items]).draft.fault = none := hf
    have hfirst : (s.addRowOutcome (s.itemRow t item)).draft.fault = none := fault_of_run hrest
    obtain ⟨row, hrow, hcombines⟩ := addRowOutcome_combines h hfirst
    obtain ⟨more, hmore, hall⟩ := ih hcombines hf
    refine ⟨.rows [row] :: more, ?_, ?_⟩
    · show rowSource (s.itemRow t item) :: s.supply (.addItems t items) = _
      rw [← hsame]
      exact congrArg₂ List.cons hrow hmore
    · rw [List.append_cons]
      exact hall

theorem setDefaults_combines (h : Combines given s.source)
    (hf : s.setDefaults.draft.fault = none) :
    Combines (given ++ [.defaults]) s.setDefaults.source := by
  have hclash : s.failure? .setDefaults = none := failure?_of_step hf
  rw [failure?] at hclash
  rw [setDefaults]
  generalize s.source = source at h hclash
  cases h with
  | nothing => exact .defaults 0
  | rows hne => cases hclash
  | defaults more =>
    rw [← List.replicate_succ']
    exact .defaults (more + 1)
  | query sql => cases hclash

theorem setQuery_combines {sql : String} (h : Combines given s.source)
    (hf : (s.setQuery sql).draft.fault = none) :
    Combines (given ++ [.query sql]) (s.setQuery sql).source := by
  have hclash : s.failure? (.setQuery sql) = none := failure?_of_step hf
  rw [failure?, queryClash?] at hclash
  rw [setQuery]
  generalize s.source = source at h hclash
  cases h with
  | nothing => exact .query sql
  | rows _ | defaults _ | query _ => cases hclash

/-- **One call.** What a call gives without an error goes with what was given before. -/
theorem step_combines (h : Combines given s.source) {call : Step}
    (hf : (s.step call).draft.fault = none) :
    ∃ more, s.supply call = more.map .ok ∧ Combines (given ++ more) (s.step call).source := by
  cases call with
  | addItem t item =>
    obtain ⟨row, hrow, hcombines⟩ := addRowOutcome_combines h hf
    exact ⟨[.rows [row]], congrArg (fun x => [x]) hrow, hcombines⟩
  | addItems t items => exact addItems_combines t h hf
  | addValues values =>
    obtain ⟨row, hrow, hcombines⟩ := addRowOutcome_combines h hf
    exact ⟨[.rows [row]], congrArg (fun x => [x]) hrow, hcombines⟩
  | setDefaults => exact ⟨[.defaults], rfl, setDefaults_combines h hf⟩
  | setQuery sql => exact ⟨[.query sql], rfl, setQuery_combines h hf⟩
  | fromQuery q =>
    have hfailure := failure?_of_step hf
    rw [failure?, Option.or_eq_none_iff] at hfailure
    rw [step, fromQuery, supply] at *
    cases hq : q.subquery with
    | error e =>
      rw [hq] at hfailure
      cases hfailure.1
    | ok sql =>
      rw [hq] at hf
      exact ⟨[.query sql], rfl, setQuery_combines h hf⟩
  | intoType _ | intoTable _ | setColumns _ | addHints _ =>
    exact ⟨[], rfl, by rwa [List.append_nil]⟩

/-- **A chain of calls.** What the calls give without an error goes together, and the statement
holds all of it. -/
theorem run_combines (h : Combines given s.source) {calls : List Step}
    (hf : (s.run calls).draft.fault = none) :
    ∃ more, supplies s calls = more.map .ok ∧ Combines (given ++ more) (s.run calls).source := by
  induction calls generalizing s given with
  | nil => exact ⟨[], rfl, by rwa [List.append_nil]⟩
  | cons call calls ih =>
    have hrun : ((s.step call).run calls).draft.fault = none := hf
    obtain ⟨first, hfirst, hcombines⟩ := step_combines h (fault_of_run hrun)
    obtain ⟨rest, hrest, hall⟩ := ih hcombines hrun
    refine ⟨first ++ rest, ?_, ?_⟩
    · rw [supplies, hfirst, hrest, List.map_append]
    · rw [← List.append_assoc]
      exact hall

/-! ## The whole statement -/

/-- A finished statement has no error, a destination and something to be inserted. -/
theorem build_eq_ok {text : String} :
    s.build = .ok text ↔ s.draft.fault = none ∧ ∃ destination source,
      s.destination = some destination ∧ sourceText s.columns s.source = .ok source ∧
        text = "INSERT INTO " ++ destination ++ s.hints.suffixed ++ source ++ ";" := by
  constructor
  · intro h
    obtain ⟨hfault, ht⟩ := Draft.finish_eq_ok h
    split at ht
    · cases ht
    · next destination hd =>
      obtain ⟨source, hsource, rfl⟩ := map_eq_ok.1 ht
      exact ⟨hfault, destination, source, hd, hsource, rfl⟩
  · rintro ⟨hfault, destination, source, hd, hsource, rfl⟩
    rw [build, Draft.finish, hfault, hd]
    exact map_eq_ok.2 ⟨source, hsource, rfl⟩

/-- Rows are inserted as tuples after a list of columns that is not empty. -/
theorem sourceText_rows_eq_ok {columns : List String} {rows : List (List (String × String))}
    {source : String} :
    sourceText columns (some (.rows rows)) = .ok source ↔ columns ≠ [] ∧
      ∃ tuples, List.Forall₂ (IsTuple columns) rows tuples ∧
        source = " " ++ columnsText columns ++ " VALUES " ++ String.intercalate "," tuples := by
  rw [sourceText]
  split
  · next hempty => exact iff_of_false (fun h => nomatch h) fun h => h.1 (List.isEmpty_iff.1 hempty)
  · next hne =>
    rw [and_iff_right fun hnil => hne (List.isEmpty_iff.2 hnil), map_eq_ok]
    simp only [rowsText_eq_ok]
    constructor
    · rintro ⟨_, ⟨tuples, htuples, rfl⟩, rfl⟩
      exact ⟨tuples, htuples, rfl⟩
    · rintro ⟨tuples, htuples, rfl⟩
      exact ⟨_, ⟨tuples, htuples, rfl⟩, rfl⟩

/-- What the end of a statement makes of all that the calls gave to be inserted: one tuple for each
row, in order, if they gave rows; the mark for defaults if they asked for these; the query if there
was one and nothing else. -/
def Inserts (columns : List String) (given : List (Outcome InsertSource)) (source : String) :
    Prop :=
  (∃ rows tuples, rows ≠ [] ∧ (given = rows.map fun row => .ok (.rows [row])) ∧
    List.Forall₂ (IsTuple columns) rows tuples ∧
    source = " " ++ columnsText columns ++ " VALUES " ++ String.intercalate "," tuples) ∨
  (∃ more, given = List.replicate (more + 1) (.ok .defaults) ∧ source = " DEFAULT VALUES") ∨
  ∃ sql, given = [.ok (.query sql)] ∧ source = " " ++ columnsText columns ++ " " ++ sql

theorem Combines.inserts {columns : List String} {held : Option InsertSource} {source : String}
    (h : Combines given held) (hs : sourceText columns held = .ok source) :
    Inserts columns (given.map .ok) source := by
  cases h with
  | nothing => cases hs
  | @rows rows hne =>
    obtain ⟨-, tuples, htuples, rfl⟩ := sourceText_rows_eq_ok.1 hs
    exact .inl ⟨rows, tuples, hne, List.map_map, htuples, rfl⟩
  | defaults more =>
    cases hs
    exact .inr (.inl ⟨more, List.map_replicate, rfl⟩)
  | query sql =>
    rw [sourceText] at hs
    split at hs
    · cases hs
    · cases hs
      exact .inr (.inr ⟨sql, rfl, rfl⟩)

/-- **Nothing that is to be inserted gets lost.** A finished statement ends in one tuple for each
row that the calls gave, in the order of the calls, if they gave rows and nothing else; in the mark
for defaults if they asked for these and for nothing else; in a query if this is all that they gave.
If they gave anything else, or nothing, the statement is not finished. -/
theorem build_inserts (settings : Settings) (calls : List Step) :
    let s := (new settings).run calls
    let given := supplies (new settings) calls
    (∀ text, s.build = .ok text → ∃ destination source, s.destination = some destination ∧
      Inserts s.columns given source ∧
        text = "INSERT INTO " ++ destination ++ s.hints.suffixed ++ source ++ ";") ∧
    ((∀ source, ¬ Inserts s.columns given source) → ∃ e, s.build = .error e) := by
  intro s given
  have hinserts (text : String) (h : s.build = .ok text) :
      ∃ destination source, s.destination = some destination ∧
        Inserts s.columns given source ∧
          text = "INSERT INTO " ++ destination ++ s.hints.suffixed ++ source ++ ";" := by
    obtain ⟨hfault, destination, source, hd, hsource, htext⟩ := build_eq_ok.1 h
    obtain ⟨all, hall, hcombines⟩ := run_combines (s := new settings) .nothing hfault
    refine ⟨destination, source, hd, ?_, htext⟩
    rw [show given = all.map .ok from hall]
    exact hcombines.inserts hsource
  refine ⟨hinserts, fun hnone => ?_⟩
  cases hbuild : s.build with
  | error e => exact ⟨e, rfl⟩
  | ok text =>
    obtain ⟨-, source, -, hsource, -⟩ := hinserts text hbuild
    exact absurd hsource (hnone source)

/-- Two items and a row of values; a query after defaults, and no source at all. -/
theorem build_inserts_rows :
    let city : MappedType :=
      ⟨"City", "City", none, [Column.plain "Id" "Id", Column.plain "Name" "Name"]⟩
    let item (id : Int) (name : String) : Record Field :=
      ⟨"", [("Name", .value (.string name)), ("Id", .value (.int id))]⟩
    let rows : List Step :=
      [.intoType city, .addItems city [item 1 "Ulm", item 2 "Bern"], .addHints [.tabLock],
        .addValues [("Name", .null), ("Id", .int 3)]]
    let run := (new .default).run
    let text := "INSERT INTO [dbo].[City] WITH (TABLOCK) ([Id],[Name]) VALUES " ++
      "(1,'Ulm'),(2,'Bern'),(3,NULL);"
    (run rows).build = .ok text ∧
    (∃ destination source, (run rows).destination = some destination ∧
      Inserts (run rows).columns (supplies (new .default) rows) source ∧
        text = "INSERT INTO " ++ destination ++ (run rows).hints.suffixed ++ source ++ ";") ∧
    (∃ e, (run [.intoType city, .setDefaults, .setDefaults, .setQuery "SELECT 1"]).build =
      .error e) ∧
    ∃ e, (run [.intoType city, .addItems city [], .setColumns ["Id"]]).build = .error e := by
  intro city item rows run text
  have htext : (run rows).build = .ok text := by decide +kernel
  refine ⟨htext, (build_inserts .default rows).1 text htext, ?_, ?_⟩
  · refine (build_inserts .default _).2 fun source => ?_
    rintro (⟨_ | ⟨row, rows⟩, -, hne, hgiven, -⟩ | ⟨more, hgiven, -⟩ | ⟨sql, hgiven, -⟩)
    · exact hne rfl
    · cases hgiven
    · have hlast := congrArg List.getLast? hgiven
      rw [List.getLast?_replicate] at hlast
      cases hlast
    · cases hgiven
  · refine (build_inserts .default _).2 fun source => ?_
    rintro (⟨_ | ⟨row, rows⟩, -, hne, hgiven, -⟩ | ⟨more, hgiven, -⟩ | ⟨sql, hgiven, -⟩)
    · exact hne rfl
    · cases hgiven
    · cases hgiven
    · cases hgiven

end Insert

end SqlWright
