import SqlWright.Proofs.Update.KeyCondition

/-!
# Columns that are set one after the other

A call that sets a column sets a value in the last row, or begins a row with it. So a sequence of
such calls leaves of the last row what it does not touch, and behind it, for each column that it
sets, the value of the last call on that column, in the order of these last calls. Rows before the
last are not touched at all.
-/

namespace SqlWright

open Outcome

namespace Update

/-! ## One call after the other -/

/-- Calls that set columns, one after the other. -/
def setCalls (sets : List (String × Value)) : List Step :=
  sets.map fun set => .setValue set.1 set.2

/-- The row that the next call sets a column in: the last one, or a new one if there is none. -/
def openRow (rows : List Row) : Row :=
  rows.getLast?.getD []

/-- Sets values in the last row, one after the other. -/
def setAll (values : Row) (rows : List Row) : List Row :=
  values.foldl (fun rows v => setLast v rows) rows

/-- Two statements that differ at most in the order of the values in their last rows: each column
has the same literal in both. -/
structure SameValues (s s' : Update) : Prop where
  rest : s' = { s with rows := s'.rows }
  earlier : s'.rows.dropLast = s.rows.dropLast
  last : (openRow s'.rows).Perm (openRow s.rows)
  literals : ∀ column, (openRow s'.rows).literal? column = (openRow s.rows).literal? column

variable {s : Update} {rows : List Row} {values : Row} {sets : List (String × Value)}

@[simp] theorem openRow_concat (earlier : List Row) (row : Row) :
    openRow (earlier ++ [row]) = row := by
  rw [openRow, List.getLast?_concat, Option.getD_some]

theorem setLast_eq (v : ColumnValue) (rows : List Row) :
    setLast v rows = rows.dropLast ++ [(openRow rows).set v] := by
  rcases rows.eq_nil_or_concat' with rfl | ⟨earlier, row, rfl⟩
  · rfl
  · rw [setLast_concat, List.dropLast_concat, openRow_concat]

theorem setAll_append (values later : Row) (rows : List Row) :
    setAll (values ++ later) rows = setAll later (setAll values rows) :=
  List.foldl_append

/-- The first of several values begins a row if there is none; the rows before stay. -/
theorem setAll_eq (hvalues : values ≠ []) (rows : List Row) :
    setAll values rows = rows.dropLast ++ [values.foldl Row.set (openRow rows)] := by
  induction values using List.reverseRecOn with
  | nil => exact absurd rfl hvalues
  | append_singleton values v ih =>
    rw [setAll_append, List.foldl_concat]
    rcases eq_or_ne values [] with rfl | hne
    · exact setLast_eq v rows
    · rw [ih hne]
      exact setLast_concat v _ _

theorem dropLast_setAll (values : Row) (rows : List Row) :
    (setAll values rows).dropLast = rows.dropLast := by
  rcases eq_or_ne values [] with rfl | hne
  · rfl
  · rw [setAll_eq hne, List.dropLast_concat]

theorem openRow_setAll (values : Row) (rows : List Row) :
    openRow (setAll values rows) = values.foldl Row.set (openRow rows) := by
  rcases eq_or_ne values [] with rfl | hne
  · rfl
  · rw [setAll_eq hne, openRow_concat]

theorem setAll_eq_nil : setAll values rows = [] ↔ rows = [] ∧ values = [] := by
  rcases eq_or_ne values [] with rfl | hne
  · simp [setAll]
  · simp [setAll_eq hne, hne]

/-- A value is lost if its column is set again in the same row. -/
theorem setAll_again {v : ColumnValue} (hv : v.column ∈ values.map (·.column)) (rows : List Row) :
    setAll (v :: values) rows = setAll values rows := by
  have hne : values ≠ [] := List.ne_nil_of_mem (List.mem_map.1 hv).choose_spec.1
  rw [setAll_eq hne, setAll_eq (List.cons_ne_nil _ _), Row.foldl_set_again hv]

/-! ## Calls that do not fail -/

variable {column : String} {value : Value} {v : ColumnValue}

theorem setValue_of_columnValue (h : s.draft.columnValue column value = .ok v) :
    s.setValue column value = { s with rows := setLast v s.rows } := by
  rw [setValue, h]
  rfl

/-- Calls do not fail exactly if the draft that the first one meets takes all their values. -/
theorem firstFailure?_setCalls : firstFailure? step failure? s (setCalls sets) = none ↔
    ∃ values, Takes s.draft sets values := by
  induction sets generalizing s with
  | nil => exact ⟨fun _ => ⟨[], .nil⟩, fun _ => rfl⟩
  | cons set sets ih =>
    rw [setCalls, List.map_cons, firstFailure?_cons, Option.or_eq_none_iff]
    constructor
    · rintro ⟨hfirst, hrest⟩
      obtain ⟨v, hv⟩ := eq_ok_of_error?_eq_none hfirst
      rw [step, setValue_of_columnValue hv] at hrest
      obtain ⟨values, hvalues⟩ := ih.1 hrest
      exact ⟨v :: values, .cons hv hvalues⟩
    · rintro ⟨_, _ | ⟨hv, hvalues⟩⟩
      refine ⟨?_, ?_⟩
      · rw [failure?, hv]
        rfl
      · rw [step, setValue_of_columnValue hv]
        exact ih.2 ⟨_, hvalues⟩

/-- Such calls change the rows only. -/
theorem run_setCalls (h : Takes s.draft sets values) :
    s.run (setCalls sets) = { s with rows := setAll values s.rows } := by
  induction sets generalizing s values with
  | nil =>
    cases h
    rfl
  | cons set sets ih =>
    obtain _ | ⟨hv, hvalues⟩ := h
    show (s.step (.setValue set.1 set.2)).run (setCalls sets) = _
    rw [step, setValue_of_columnValue hv]
    exact ih hvalues

theorem takes_append {before after : List (String × Value)}
    (h : Takes s.draft (before ++ after) values) :
    ∃ first later, values = first ++ later ∧ Takes s.draft before first ∧
      Takes s.draft after later := by
  induction before generalizing values with
  | nil => exact ⟨[], values, rfl, .nil, h⟩
  | cons set before ih =>
    obtain _ | ⟨hv, hrest⟩ := h
    obtain ⟨first, later, rfl, hfirst, hlater⟩ := ih hrest
    exact ⟨_ :: first, later, rfl, .cons hv hfirst, hlater⟩

/-- The same calls in another order do the same, if each is on a column of its own. -/
theorem sameValues_of_perm {others : List (String × Value)} (h : Takes s.draft sets values)
    (hperm : others.Perm sets) (hdistinct : (sets.map (·.1)).Nodup) :
    SameValues (s.run (setCalls sets)) (s.run (setCalls others)) := by
  obtain ⟨values', hvalues', hrows⟩ := List.perm_comp_forall₂ hperm h
  rw [← h.columns] at hdistinct
  rw [run_setCalls h, run_setCalls hvalues']
  exact
    { rest := rfl
      earlier := (dropLast_setAll ..).trans (dropLast_setAll ..).symm
      last := by
        rw [openRow_setAll, openRow_setAll]
        exact Row.foldl_set_perm hrows hdistinct _
      literals := fun column => by
        rw [Row.literal?_eq, Row.literal?_eq, openRow_setAll, openRow_setAll,
          Row.filter_column_foldl_set_perm hrows hdistinct] }

/-- **Of several calls on a column the last one counts.** Calls that set columns and do not fail
change nothing but the last row, and begin a row if there is none. In this row the values of all
other columns stay in front as they were; behind them stands one value for each column that is set,
in the order of the last calls on the columns, and it is the value of that last call. So a call may
be left out if its column is set again, and calls on different columns may be made in any order, as
far as the literals of the columns are concerned. -/
theorem run_sets (hok : firstFailure? step failure? s (setCalls sets) = none) :
    let s' := s.run (setCalls sets)
    s' = { s with rows := s'.rows } ∧
    s'.rows.dropLast = s.rows.dropLast ∧
    (s'.rows = [] ↔ s.rows = [] ∧ sets = []) ∧
    (∃ last, openRow s'.rows =
        (openRow s.rows).filter (fun w => !(sets.map (·.1)).contains w.column) ++ last ∧
      last.map (·.column) = (sets.map (·.1)).dedup) ∧
    (∀ before column value after, sets = before ++ (column, value) :: after →
      column ∉ after.map (·.1) → ∃ v, s.draft.columnValue column value = .ok v ∧
        (openRow s'.rows).filter (·.column == column) = [v]) ∧
    (∀ before column value after, sets = before ++ (column, value) :: after →
      column ∈ after.map (·.1) → s' = s.run (setCalls (before ++ after))) ∧
    ∀ others, others.Perm sets → (sets.map (·.1)).Nodup →
      s'.SameValues (s.run (setCalls others)) := by
  intro s'
  obtain ⟨values, htakes⟩ := firstFailure?_setCalls.1 hok
  have hcolumns := htakes.columns
  have hs' : s' = { s with rows := setAll values s.rows } := run_setCalls htakes
  have hlast : openRow s'.rows = values.foldl Row.set (openRow s.rows) := by
    rw [hs']
    exact openRow_setAll values s.rows
  refine ⟨?_, ?_, ?_, ?_, ?_, ?_, ?_⟩
  · rw [hs']
  · rw [hs']
    exact dropLast_setAll values s.rows
  · have hempty : values = [] ↔ sets = [] := by
      rw [← List.map_eq_nil_iff (f := (·.column)), hcolumns, List.map_eq_nil_iff]
    rw [hs', ← hempty]
    exact setAll_eq_nil
  · refine ⟨Row.latest values, ?_, ?_⟩
    · rw [hlast, Row.foldl_set, hcolumns]
    · rw [Row.columns_latest, hcolumns]
  · rintro before column value after rfl hcolumn
    obtain ⟨first, _, rfl, -, _ | @⟨_, v, _, later, hv, hafter⟩⟩ := takes_append htakes
    obtain ⟨rfl, -⟩ := Draft.columnValue_eq_ok hv
    have hlater : v.column ∉ later.map (·.column) := by
      rwa [Takes.columns hafter]
    refine ⟨v, hv, ?_⟩
    rw [hlast, Row.filter_column_foldl_set, if_pos (by simp), List.filter_append,
      List.filter_cons_of_pos (by simp), Row.filter_column_eq_nil.2 hlater, List.getLast?_concat]
    rfl
  · rintro before column value after rfl hcolumn
    obtain ⟨first, _, rfl, hbefore, _ | @⟨_, v, _, later, hv, hafter⟩⟩ := takes_append htakes
    have hlater : v.column ∈ later.map (·.column) := by
      rwa [Takes.columns hafter, (Draft.columnValue_eq_ok hv).1]
    rw [hs', run_setCalls (List.rel_append hbefore hafter), setAll_append, setAll_append,
      setAll_again hlater]
  · exact fun others hperm hdistinct => sameValues_of_perm htakes hperm hdistinct

/-- A row of values names a column twice, and then two columns are set, one of them twice. -/
theorem run_sets_again :
    let s := ((ofTable .default (.written "Stock")).addValues [("Sku", .string "X")]).addValues
      [("Qty", .int 1), ("Sku", .string "Y"), ("Qty", .int 2)]
    let sets : List (String × Value) := [("Bin", .int 7), ("Qty", .int 3), ("Bin", .null)]
    firstFailure? step failure? s (setCalls sets) = none ∧
      (s.run (setCalls sets)).rows.map Row.pairs =
        [[("Sku", "'X'")], [("Sku", "'Y'"), ("Qty", "3"), ("Bin", "NULL")]] ∧
      s.run (setCalls sets) = s.run (setCalls [("Qty", .int 3), ("Bin", .null)]) := by
  intro s sets
  have hok : firstFailure? step failure? s (setCalls sets) = none := by decide +kernel
  obtain ⟨-, -, -, -, -, hagain, -⟩ := run_sets hok
  refine ⟨hok, by decide +kernel, ?_⟩
  exact hagain [] "Bin" (.int 7) [("Qty", .int 3), ("Bin", .null)] rfl (by decide)

end Update

end SqlWright
