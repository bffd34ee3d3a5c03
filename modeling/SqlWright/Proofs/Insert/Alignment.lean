import Mathlib.Data.List.Nodup
import Mathlib.Data.List.Perm.Subperm
import SqlWright.Proofs.Insert.Sources

/-!
# Rows and destination columns

A row is matched with the destination columns by name, whatever order its entries stand in. Only its
length is compared and every destination column looked up in it; if no destination column stands
twice, that leaves no entry of the row over. So the statement is finished just if every row names
each destination column once and nothing else, and then every literal stands at its own column.
-/

namespace SqlWright

open Outcome

namespace Insert

variable {columns : List String} {row row' : List (String × String)} {tuple : String}

/-! ## One row -/

theorem lookup_of_mem (hnames : (row.map (·.1)).Nodup) {column literal : String}
    (h : (column, literal) ∈ row) : row.lookup column = some literal := by
  obtain ⟨before, after, rfl⟩ := List.append_of_mem h
  refine List.lookup_eq_some_iff.2 ⟨before, after, rfl, fun entry hentry => ?_⟩
  rw [List.map_append, List.nodup_append] at hnames
  have hne := hnames.2.2 entry.1 (List.mem_map_of_mem hentry) column List.mem_cons_self
  exact bne_iff_ne.2 hne.symm

theorem mem_of_lookup {column literal : String} (h : row.lookup column = some literal) :
    (column, literal) ∈ row := by
  obtain ⟨before, after, rfl, -⟩ := List.lookup_eq_some_iff.1 h
  exact List.mem_append_right before List.mem_cons_self

/-- If no destination column stands twice, the entries of a row that becomes a tuple are the columns
with the literals of the tuple, in some order. -/
theorem isTuple_iff (hcolumns : columns.Nodup) :
    IsTuple columns row tuple ↔ ∃ literals, literals.length = columns.length ∧
      (columns.zip literals).Perm row ∧
        tuple = Text.parenthesized (String.intercalate "," literals) := by
  constructor
  · rintro ⟨hlength, literals, hfound, rfl⟩
    have hliterals : columns.length = literals.length := hfound.length_eq
    have hfst : (columns.zip literals).map Prod.fst = columns :=
      List.map_fst_zip hliterals.le
    -- the entries found are distinct, and there are as many as the row has
    have hnodup : (columns.zip literals).Nodup := by
      refine List.Nodup.of_map Prod.fst ?_
      rwa [hfst]
    have hsubset : columns.zip literals ⊆ row := fun entry hentry =>
      mem_of_lookup ((List.forall₂_iff_zip.1 hfound).2 hentry)
    have hzip : (columns.zip literals).length = columns.length := by
      rw [← List.length_map (f := Prod.fst), hfst]
    refine ⟨literals, hliterals.symm, ?_, rfl⟩
    exact (hnodup.subperm hsubset).perm_of_length_le (by rw [hlength, hzip])
  · rintro ⟨literals, hliterals, hperm, rfl⟩
    have hfst : (columns.zip literals).map Prod.fst = columns :=
      List.map_fst_zip hliterals.ge
    have hnames : (row.map (·.1)).Perm columns := by
      rw [← hfst]
      exact (hperm.map Prod.fst).symm
    refine ⟨?_, literals, List.forall₂_iff_zip.2 ⟨hliterals.symm, fun hentry => ?_⟩, rfl⟩
    · rw [← List.length_map (f := Prod.fst)]
      exact hnames.length_eq
    · exact lookup_of_mem (hnames.nodup_iff.2 hcolumns) (hperm.mem_iff.1 hentry)

/-- A row becomes a tuple just if its names are the destination columns in some order. -/
theorem exists_isTuple_iff (hcolumns : columns.Nodup) :
    (∃ tuple, IsTuple columns row tuple) ↔ (row.map (·.1)).Perm columns := by
  constructor
  · rintro ⟨tuple, htuple⟩
    obtain ⟨literals, hliterals, hperm, -⟩ := (isTuple_iff hcolumns).1 htuple
    rw [← List.map_fst_zip hliterals.ge]
    exact (hperm.map Prod.fst).symm
  · intro hnames
    have hfound (column : String) (hcolumn : column ∈ columns) :
        row.lookup column = some ((row.lookup column).getD "") := by
      obtain ⟨⟨name, literal⟩, hentry, rfl⟩ := List.mem_map.1 (hnames.mem_iff.2 hcolumn)
      rw [lookup_of_mem (hnames.nodup_iff.2 hcolumns) hentry]
      rfl
    refine ⟨_, ?_, columns.map fun column => (row.lookup column).getD "", ?_, rfl⟩
    · rw [← List.length_map (f := Prod.fst)]
      exact hnames.length_eq
    · exact List.forall₂_map_right_iff.2 (List.forall₂_same.2 hfound)

/-- The order of its entries makes no difference to the tuple of a row. -/
theorem IsTuple.perm (hcolumns : columns.Nodup) (h : IsTuple columns row tuple)
    (hperm : row.Perm row') : IsTuple columns row' tuple := by
  obtain ⟨literals, hliterals, hzip, rfl⟩ := (isTuple_iff hcolumns).1 h
  exact (isTuple_iff hcolumns).2 ⟨literals, hliterals, hzip.trans hperm, rfl⟩

/-! ## All rows -/

variable {rows rows' : List (List (String × String))} {tuples : List String}

theorem exists_tuples_iff (hcolumns : columns.Nodup) :
    (∃ tuples, List.Forall₂ (IsTuple columns) rows tuples) ↔
      ∀ row ∈ rows, (row.map (·.1)).Perm columns := by
  simp only [← exists_isTuple_iff hcolumns]
  constructor
  · rintro ⟨tuples, htuples⟩
    induction htuples with
    | nil => exact List.forall_mem_nil _
    | cons htuple _ ih => exact List.forall_mem_cons.2 ⟨⟨_, htuple⟩, ih⟩
  · intro h
    induction rows with
    | nil => exact ⟨[], .nil⟩
    | cons row rows ih =>
      obtain ⟨⟨tuple, htuple⟩, hrest⟩ := List.forall_mem_cons.1 h
      obtain ⟨tuples, htuples⟩ := ih hrest
      exact ⟨tuple :: tuples, .cons htuple htuples⟩

/-- The tuples of rows as lists of literals. -/
theorem exists_literals (hcolumns : columns.Nodup)
    (h : List.Forall₂ (IsTuple columns) rows tuples) :
    ∃ literals : List (List String),
      List.Forall₂ (fun row literals => literals.length = columns.length ∧
        (columns.zip literals).Perm row) rows literals ∧
      tuples = literals.map fun literals =>
        Text.parenthesized (String.intercalate "," literals) := by
  induction h with
  | nil => exact ⟨[], .nil, rfl⟩
  | cons htuple _ ih =>
    obtain ⟨literals, hliterals, hperm, rfl⟩ := (isTuple_iff hcolumns).1 htuple
    obtain ⟨rest, hrest, rfl⟩ := ih
    exact ⟨literals :: rest, .cons ⟨hliterals, hperm⟩ hrest, rfl⟩

theorem forall₂_isTuple_perm (hcolumns : columns.Nodup)
    (h : List.Forall₂ (IsTuple columns) rows tuples) (hperm : List.Forall₂ List.Perm rows rows') :
    List.Forall₂ (IsTuple columns) rows' tuples := by
  induction h generalizing rows' with
  | nil =>
    cases hperm
    exact .nil
  | cons htuple _ ih =>
    cases hperm with
    | cons hfirst hrest => exact .cons (htuple.perm hcolumns hfirst) (ih hrest)

/-! ## Calls on a statement that has rows -/

/-- The statement with these destination columns and these rows. -/
def withRows (s : Insert) (columns : List String) (rows : List (List (String × String))) :
    Insert :=
  { s with columns, source := some (.rows rows) }

/-- What calls do to a statement that has rows hangs neither on the rows nor on the columns: they
add always the same rows, and they change the columns in the same way. -/
def AddsRows (s : Insert) (calls : Insert → Insert) (renamed : List String → List String) : Prop :=
  ∃ (s' : Insert) (more : List (List (String × String))), ∀ columns rows,
    calls (s.withRows columns rows) = s'.withRows (renamed columns) (rows ++ more)

variable {s : Insert}

theorem AddsRows.of_none {call : Insert → Insert} {renamed : List String → List String}
    (s' : Insert)
    (h : ∀ columns rows, call (s.withRows columns rows) = s'.withRows (renamed columns) rows) :
    s.AddsRows call renamed :=
  ⟨s', [], fun columns rows => by rw [List.append_nil, h]⟩

theorem AddsRows.trans {first last : Insert → Insert} {renamed after : List String → List String}
    (h : s.AddsRows first renamed) (hlast : ∀ s : Insert, s.AddsRows last after) :
    s.AddsRows (last ∘ first) (after ∘ renamed) := by
  obtain ⟨s', row, hrow⟩ := h
  obtain ⟨s'', more, hmore⟩ := hlast s'
  refine ⟨s'', row ++ more, fun columns rows => ?_⟩
  rw [Function.comp_apply, hrow, hmore, List.append_assoc, Function.comp_apply]

theorem addRowOutcome_addsRows (s : Insert) (result : Outcome (List (String × String))) :
    s.AddsRows (·.addRowOutcome result) id := by
  cases result with
  | error e => exact .of_none (s.reject e) fun _ _ => rfl
  | ok row => exact ⟨s, [row], fun _ _ => rfl⟩

theorem addItems_addsRows (s : Insert) (t : MappedType) (items : List (Record Field)) :
    s.AddsRows (·.addItems t items) id := by
  induction items generalizing s with
  | nil => exact .of_none s fun _ _ => rfl
  | cons item items ih => exact (s.addRowOutcome_addsRows (s.itemRow t item)).trans ih

/-- The destination columns after a call on a statement that has rows. -/
def Step.renamed (columns : List String) : Step → List String
  | .setColumns named => named
  | _ => columns

/-- **One call** on a statement that has rows. -/
theorem step_addsRows (s : Insert) (call : Step) :
    s.AddsRows (·.step call) fun columns => call.renamed columns := by
  cases call with
  | addItem t item => exact s.addRowOutcome_addsRows (s.itemRow t item)
  | addItems t items => exact s.addItems_addsRows t items
  | addValues values => exact s.addRowOutcome_addsRows (s.valuesRow values)
  | fromQuery q =>
    cases hq : q.subquery with
    | error e =>
      refine .of_none (s.reject e) fun columns rows => ?_
      rw [step, fromQuery, hq]
      rfl
    | ok sql =>
      refine .of_none (s.reject (.misuse .queryBesideValues)) fun columns rows => ?_
      rw [step, fromQuery, hq]
      rfl
  | setDefaults => exact .of_none (s.reject (.misuse .defaultsBesideValues)) fun _ _ => rfl
  | setQuery sql => exact .of_none (s.reject (.misuse .queryBesideValues)) fun _ _ => rfl
  | intoType t => exact .of_none (s.intoType t) fun _ _ => rfl
  | intoTable name => exact .of_none (s.intoTable name) fun _ _ => rfl
  | setColumns named => exact .of_none s fun _ _ => rfl
  | addHints hints => exact .of_none (s.addHints hints) fun _ _ => rfl

/-- **A chain of calls** on a statement that has rows. -/
theorem run_addsRows (s : Insert) (calls : List Step) :
    s.AddsRows (·.run calls) fun columns => calls.foldl Step.renamed columns := by
  induction calls generalizing s with
  | nil => exact .of_none s fun _ _ => rfl
  | cons call calls ih => exact (s.step_addsRows call).trans ih

/-- Columns that a call of the chain names do not hang on those named before. -/
theorem foldl_renamed {calls : List Step} {named : List String}
    (h : Step.setColumns named ∈ calls) (columns columns' : List String) :
    calls.foldl Step.renamed columns = calls.foldl Step.renamed columns' := by
  induction calls generalizing columns columns' with
  | nil => cases h
  | cons call calls ih =>
    rcases List.mem_cons.1 h with rfl | h
    · rfl
    · exact ih h _ _

/-! ## A row of values in another order -/

/-- The values of a row in another order give the same entries in another order. -/
theorem valuesRow_perm {values values' : List (String × Value)} (h : s.valuesRow values = .ok row)
    (hperm : values.Perm values') : ∃ row', s.valuesRow values' = .ok row' ∧ row.Perm row' := by
  obtain ⟨found, hfound, rfl⟩ := map_eq_ok.1 h
  obtain ⟨found', hfound', hsame⟩ := List.perm_comp_forall₂ hperm.symm (mapM_eq_ok.1 hfound)
  exact ⟨_, map_eq_ok.2 ⟨found', mapM_eq_ok.2 hfound', rfl⟩, (hsame.map _).symm⟩

/-- A row that is added without an error comes after the rows before it. It names the columns if
nothing did before. -/
theorem addRowOutcome_eq {result : Outcome (List (String × String))}
    (hf : (s.addRowOutcome result).draft.fault = none) :
    ∃ row rows, result = .ok row ∧ ∀ row', s.addRowOutcome (.ok row') =
      s.withRows (if s.source = none ∧ s.columns = [] then row'.map (·.1) else s.columns)
        (rows ++ [row']) := by
  rw [addRowOutcome_fault, rowFailure?, Option.or_eq_none_iff, Option.or_eq_none_iff] at hf
  obtain ⟨-, hresult, hclash⟩ := hf
  cases result with
  | error e => cases hresult
  | ok row =>
    have hadd (row' : List (String × String)) : s.addRowOutcome (.ok row') = s.addRow row' := rfl
    simp only [hadd, addRow]
    rw [rowClash?] at hclash
    cases hs : s.source with
    | none =>
      refine ⟨row, [], rfl, fun row' => ?_⟩
      simp only [true_and, List.isEmpty_iff]
      rfl
    | some source =>
      rw [hs] at hclash
      cases source with
      | rows rows =>
        refine ⟨row, rows, rfl, fun row' => ?_⟩
        dsimp only
        rw [if_neg fun h => Option.some_ne_none _ h.1]
        rfl
      | query sql => cases hclash
      | defaults => cases hclash

/-! ## The whole statement -/

theorem Combines.of_rows {given : List InsertSource} {held : Option InsertSource}
    (h : Combines given held) (hgiven : given = rows.map fun row => .rows [row])
    (hne : rows ≠ []) : held = some (.rows rows) := by
  obtain ⟨row, others, rfl⟩ := List.exists_cons_of_ne_nil hne
  cases h with
  | nothing => cases hgiven
  | @rows held =>
    have hinjective : Function.Injective fun row => InsertSource.rows [row] := by
      rintro a b ⟨⟩
      rfl
    rw [List.map_injective_iff.2 hinjective hgiven]
  | defaults more => cases hgiven
  | query sql => cases hgiven

theorem build_eq_ok_of_rows (hs : s.source = some (.rows rows)) {text : String} :
    s.build = .ok text ↔ s.draft.fault = none ∧ s.columns ≠ [] ∧ ∃ destination tuples,
      s.destination = some destination ∧ List.Forall₂ (IsTuple s.columns) rows tuples ∧
        text = "INSERT INTO " ++ destination ++ s.hints.suffixed ++ " " ++ columnsText s.columns ++
          " VALUES " ++ String.intercalate "," tuples ++ ";" := by
  simp only [build_eq_ok, hs, sourceText_rows_eq_ok]
  constructor
  · rintro ⟨hfault, destination, _, hd, ⟨hcolumns, tuples, htuples, rfl⟩, rfl⟩
    refine ⟨hfault, hcolumns, destination, tuples, hd, htuples, ?_⟩
    simp only [String.append_assoc]
  · rintro ⟨hfault, hcolumns, destination, tuples, hd, htuples, rfl⟩
    refine ⟨hfault, destination, _, hd, ⟨hcolumns, tuples, htuples, rfl⟩, ?_⟩
    simp only [String.append_assoc]

/-- Two statements that differ only in the order of the entries within their rows. -/
theorem build_withRows_perm (hcolumns : columns.Nodup) (h : List.Forall₂ List.Perm rows rows')
    {text : String} (hb : (s.withRows columns rows).build = .ok text) :
    (s.withRows columns rows').build = .ok text := by
  obtain ⟨hfault, hne, destination, tuples, hd, htuples, rfl⟩ := (build_eq_ok_of_rows rfl).1 hb
  exact (build_eq_ok_of_rows rfl).2
    ⟨hfault, hne, destination, tuples, hd, forall₂_isTuple_perm hcolumns htuples h, rfl⟩

/-- **A row of values in another order** leaves the finished text as it is, if the columns are named
before it, by an earlier row or by a later call. -/
theorem build_of_perm {before after : List Step} {values values' : List (String × Value)}
    (hfault : (s.run (before ++ .addValues values :: after)).draft.fault = none)
    (hcolumns : (s.run (before ++ .addValues values :: after)).columns.Nodup)
    (hperm : values.Perm values')
    (hnamed : (s.run before).source ≠ none ∨ (s.run before).columns ≠ [] ∨
      ∃ named, .setColumns named ∈ after) {text : String} :
    (s.run (before ++ .addValues values' :: after)).build = .ok text ↔
      (s.run (before ++ .addValues values :: after)).build = .ok text := by
  have hrun (values : List (String × Value)) : s.run (before ++ .addValues values :: after) =
      (((s.run before).addRowOutcome ((s.run before).valuesRow values)).run after) :=
    List.foldl_append
  rw [hrun] at hfault hcolumns
  rw [hrun, hrun]
  generalize s.run before = s at *
  obtain ⟨row, rows, hrow, hadd⟩ := addRowOutcome_eq (fault_of_run hfault)
  obtain ⟨row', hrow', hsame⟩ := valuesRow_perm hrow hperm
  obtain ⟨s', more, hafter⟩ := s.run_addsRows after
  have hafter (columns : List String) (rows : List (List (String × String))) :
      (s.withRows columns rows).run after =
        s'.withRows (after.foldl Step.renamed columns) (rows ++ more) := hafter columns rows
  rw [hrow, hadd, hafter] at hcolumns
  rw [hrow, hrow', hadd, hadd, hafter, hafter]
  have hnames : (after.foldl Step.renamed
        (if s.source = none ∧ s.columns = [] then row'.map (·.1) else s.columns)) =
      after.foldl Step.renamed
        (if s.source = none ∧ s.columns = [] then row.map (·.1) else s.columns) := by
    rcases hnamed with hsource | hne | ⟨named, hmem⟩
    · rw [if_neg fun h => hsource h.1, if_neg fun h => hsource h.1]
    · rw [if_neg fun h => hne h.2, if_neg fun h => hne h.2]
    · exact foldl_renamed hmem _ _
  have hrows {one other : List (String × String)} (h : one.Perm other) :
      List.Forall₂ List.Perm (rows ++ [one] ++ more) (rows ++ [other] ++ more) :=
    List.rel_append (List.rel_append (List.forall₂_same.2 fun row _ => .refl row) (.cons h .nil))
      (List.forall₂_same.2 fun row _ => .refl row)
  rw [hnames]
  exact ⟨build_withRows_perm hcolumns (hrows hsame.symm),
    build_withRows_perm hcolumns (hrows hsame)⟩

/-- **Rows are aligned with the columns.** A statement that was given rows only, without an error,
and that has a destination and some destination columns, none of them twice, is finished just if
every row names these columns in some order. Then the text has a tuple for every row, in order,
whose literals stand at their own columns, none left out and none used twice. So the order in which
the values of a row are given makes no difference. -/
theorem build_aligned {settings : Settings} {calls : List Step} {s : Insert}
    (hs : (new settings).run calls = s) {rows : List (List (String × String))}
    (hgiven : supplies (new settings) calls = rows.map fun row => .ok (.rows [row]))
    (hrows : rows ≠ []) (hfault : s.draft.fault = none) {destination : String}
    (hdestination : s.destination = some destination) (hcolumns : s.columns ≠ [])
    (hnodup : s.columns.Nodup) :
    ((∃ text, s.build = .ok text) ↔ ∀ row ∈ rows, (row.map (·.1)).Perm s.columns) ∧
    (∀ text, s.build = .ok text → ∃ tuples : List (List String),
      List.Forall₂ (fun row literals => literals.length = s.columns.length ∧
        (s.columns.zip literals).Perm row) rows tuples ∧
      text = "INSERT INTO " ++ destination ++ s.hints.suffixed ++ " " ++ columnsText s.columns ++
        " VALUES " ++ String.intercalate ","
          (tuples.map fun literals => Text.parenthesized (String.intercalate "," literals)) ++
        ";") ∧
    ∀ before values values' after, calls = before ++ .addValues values :: after →
      values.Perm values' →
      (((new settings).run before).source ≠ none ∨ ((new settings).run before).columns ≠ [] ∨
        ∃ named, .setColumns named ∈ after) →
      ∀ text, ((new settings).run (before ++ .addValues values' :: after)).build = .ok text ↔
        s.build = .ok text := by
  have hsource : s.source = some (.rows rows) := by
    rw [← hs] at hfault ⊢
    obtain ⟨all, hall, hcombines⟩ := run_combines (s := new settings) .nothing hfault
    refine Combines.of_rows hcombines ?_ hrows
    have hinjective : Function.Injective (Except.ok : InsertSource → Outcome InsertSource) :=
      fun _ _ => Except.ok.inj
    refine List.map_injective_iff.2 hinjective ?_
    rw [← List.nil_append all] at hall
    rw [← hall, hgiven, List.map_map]
    rfl
  refine ⟨?_, fun text htext => ?_, ?_⟩
  · rw [← exists_tuples_iff hnodup]
    constructor
    · rintro ⟨text, htext⟩
      obtain ⟨-, -, -, tuples, -, htuples, -⟩ := (build_eq_ok_of_rows hsource).1 htext
      exact ⟨tuples, htuples⟩
    · rintro ⟨tuples, htuples⟩
      exact ⟨_, (build_eq_ok_of_rows hsource).2
        ⟨hfault, hcolumns, destination, tuples, hdestination, htuples, rfl⟩⟩
  · obtain ⟨-, -, found, tuples, hfound, htuples, rfl⟩ := (build_eq_ok_of_rows hsource).1 htext
    cases hdestination.symm.trans hfound
    obtain ⟨literals, hliterals, rfl⟩ := exists_literals hnodup htuples
    exact ⟨literals, hliterals, rfl⟩
  · rintro before values values' after rfl hperm hnamed text
    rw [← hs] at hfault hnodup ⊢
    exact build_of_perm hfault hnodup hperm hnamed

/-- A row of values and the row of an item under columns in an order that is neither's. -/
theorem build_aligned_named :
    let city : MappedType := ⟨"City", "City", none,
      [Column.plain "Id" "Id", Column.plain "Name" "Name", Column.plain "Size" "Size"]⟩
    let item : Record Field :=
      ⟨"", [("Id", .value (.int 2)), ("Name", .value .null), ("Size", .value (.int 7))]⟩
    let values := [("Size", Value.int 5), ("Id", Value.int 1), ("Name", Value.string "Ulm")]
    let permuted := [("Name", Value.string "Ulm"), ("Size", Value.int 5), ("Id", Value.int 1)]
    let calls (values : List (String × Value)) : List Step :=
      [.intoType city, .addValues values, .addItem city item, .setColumns ["Name", "Id", "Size"]]
    let s := (new .default).run (calls values)
    let rows := [[("Size", "5"), ("Id", "1"), ("Name", "'Ulm'")],
      [("Id", "2"), ("Name", "NULL"), ("Size", "7")]]
    let text := "INSERT INTO [dbo].[City] ([Name],[Id],[Size]) VALUES ('Ulm',1,5),(NULL,2,7);"
    (supplies (new .default) (calls values) = rows.map fun row => .ok (.rows [row])) ∧
    s.draft.fault = none ∧ s.destination = some "[dbo].[City]" ∧
    s.columns = ["Name", "Id", "Size"] ∧ (∃ text, s.build = .ok text) ∧ s.build = .ok text ∧
    ((new .default).run (calls permuted)).build = .ok text := by
  intro city item values permuted calls s rows text
  have hgiven : supplies (new .default) (calls values) =
      rows.map fun row => .ok (.rows [row]) := by decide +kernel
  have hfault : s.draft.fault = none := by decide +kernel
  have hdestination : s.destination = some "[dbo].[City]" := by decide +kernel
  have hcolumns : s.columns = ["Name", "Id", "Size"] := rfl
  have htext : s.build = .ok text := by decide +kernel
  have hnodup : s.columns.Nodup := by
    rw [hcolumns]
    decide
  have haligned := build_aligned rfl hgiven (List.cons_ne_nil _ _) hfault hdestination
    (List.cons_ne_nil _ _) hnodup
  refine ⟨hgiven, hfault, hdestination, hcolumns, haligned.1.2 ?_, htext, ?_⟩
  · rw [hcolumns]
    decide
  · have hnamed : Step.setColumns ["Name", "Id", "Size"] ∈ (calls values).drop 2 :=
      List.mem_cons_of_mem _ List.mem_cons_self
    have hpermuted : values.Perm permuted := .trans (.cons _ (.swap _ _ _)) (.swap _ _ _)
    exact (haligned.2.2 [.intoType city] values permuted _ rfl hpermuted
      (.inr (.inr ⟨_, hnamed⟩)) text).2 htext

end Insert

end SqlWright
