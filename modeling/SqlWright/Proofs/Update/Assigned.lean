import SqlWright.Proofs.Closed.Chain
import SqlWright.Proofs.Update.Rows

/-!
# Search keys among the assignments

The primary table of an UPDATE statement may be named after the values are given, and items may be
of other types. So a finished statement can assign a column that is a search key of its table. This
happens just if some call gives the column a value that is not taken for that of a search key when
the call is made, and the column is not set again in the same row.
-/

namespace SqlWright

open Outcome

namespace Update

variable {s : Update} {call : Step} {calls : List Step} {column : String}

/-! ## Columns that a chain of calls assigns -/

/-- One of the rows before the last assigns a column. -/
def EarlierAssigns (rows : List Row) (column : String) : Prop :=
  ∃ row ∈ rows.dropLast, row.Assigns column

/-- The last row assigns a column. -/
def LastAssigns (rows : List Row) (column : String) : Prop :=
  ∃ row ∈ rows.getLast?, row.Assigns column

theorem lastAssigns_concat {earlier : List Row} {row : Row} :
    LastAssigns (earlier ++ [row]) column ↔ row.Assigns column := by
  simp [LastAssigns]

theorem earlierAssigns_concat {earlier : List Row} {row : Row} :
    EarlierAssigns (earlier ++ [row]) column ↔ ∃ row ∈ earlier, row.Assigns column := by
  simp [EarlierAssigns]

theorem exists_assigns_iff {rows : List Row} : (∃ row ∈ rows, row.Assigns column) ↔
    EarlierAssigns rows column ∨ LastAssigns rows column := by
  rcases rows.eq_nil_or_concat' with rfl | ⟨earlier, row, rfl⟩
  · simp [EarlierAssigns, LastAssigns]
  · rw [earlierAssigns_concat, lastAssigns_concat]
    simp [or_and_right, exists_or]

theorem setLast_earlierAssigns {v : ColumnValue} {rows : List Row} :
    EarlierAssigns (setLast v rows) column ↔ EarlierAssigns rows column := by
  rw [EarlierAssigns, EarlierAssigns, setLast_dropLast]

theorem setLast_lastAssigns {v : ColumnValue} {rows : List Row} :
    LastAssigns (setLast v rows) column ↔ (v.column = column ∧ v.searchKey = false) ∨
      (v.column ≠ column ∧ LastAssigns rows column) := by
  rcases rows.eq_nil_or_concat' with rfl | ⟨earlier, row, rfl⟩
  · simp [LastAssigns, setLast, Row.assigns_singleton]
  · rw [setLast_concat, lastAssigns_concat, lastAssigns_concat, Row.assigns_set]

/-- After a call the earlier rows assign what they did before, and what the last row did if the call
begins another. -/
theorem step_earlierAssigns (hsingle : call.single = [call])
    (hf : (s.step call).draft.fault = none) : EarlierAssigns (s.step call).rows column ↔
      EarlierAssigns s.rows column ∨ (call.beginsRow = true ∧ LastAssigns s.rows column) := by
  rcases step_rows hsingle hf with ⟨hbegins, -, row, hrows, -⟩ |
    ⟨hbegins, name, value, v, -, -, hrows⟩ | ⟨hbegins, -, -, hrows⟩
  · rw [hrows, hbegins, earlierAssigns_concat, exists_assigns_iff]
    simp
  · rw [hrows, hbegins, setLast_earlierAssigns]
    simp
  · rw [hrows, hbegins]
    simp

/-- After a call the last row assigns what the call gives it, and what it assigned before if the
call neither begins another row nor sets that column. -/
theorem step_lastAssigns (hsingle : call.single = [call]) (hf : (s.step call).draft.fault = none) :
    LastAssigns (s.step call).rows column ↔ call.Assigns s.draft column ∨
      (call.beginsRow = false ∧ call.set?.map (·.1) ≠ some column ∧ LastAssigns s.rows column) := by
  rcases step_rows hsingle hf with ⟨hbegins, -, row, hrows, hassigns⟩ |
    ⟨hbegins, name, value, v, rfl, hv, hrows⟩ | ⟨hbegins, hset, hnone, hrows⟩
  · rw [hrows, hbegins, lastAssigns_concat, hassigns]
    simp
  · obtain ⟨rfl, hkey⟩ := Draft.columnValue_eq_ok hv
    rw [hrows, setLast_lastAssigns, hkey]
    have hfirst : (v.column = column ∧ s.draft.isKey v.column = false) ↔
        (v.column = column ∧ s.draft.isKey column = false) :=
      and_congr_right fun h => by rw [h]
    simp [Step.Assigns, Step.beginsRow, Step.set?, hfirst]
  · rw [hrows, hbegins, hset]
    simp [hnone]

/-- What the last row has for a column stays there: the column is not set again before another row
begins. -/
def Stays (column : String) (calls : List Step) : Prop :=
  column ∉ (ownSets calls).map (·.1)

theorem stays_cons : Stays column (call :: calls) ↔
    call.beginsRow = true ∨ (call.set?.map (·.1) ≠ some column ∧ Stays column calls) := by
  cases hbegins : call.beginsRow with
  | true => simp [Stays, ownSets_of_begins hbegins]
  | false =>
    cases hset : call.set? with
    | none => simp [Stays, ownSets_of_not_begins hbegins, hset]
    | some set => simp [Stays, ownSets_of_not_begins hbegins, hset, eq_comm]

/-- **The columns that a chain of calls assigns.** A row assigns a column after a chain of calls if
an earlier row did so before, or if the last row did and keeps it, or if some call gives the column
a value that is not taken for that of a search key and stays in its row. -/
theorem run_assigns (hsingle : ∀ call ∈ calls, call.single = [call])
    (hf : (s.run calls).draft.fault = none) :
    (∃ row ∈ (s.run calls).rows, row.Assigns column) ↔
      EarlierAssigns s.rows column ∨ (LastAssigns s.rows column ∧ Stays column calls) ∨
        ∃ before call after, calls = before ++ call :: after ∧
          call.Assigns (s.run before).draft column ∧ Stays column after := by
  induction calls generalizing s with
  | nil => simp [run, Stays, ownSets, exists_assigns_iff]
  | cons call calls ih =>
    obtain ⟨hcall, hcalls⟩ := List.forall_mem_cons.1 hsingle
    have hrun : ((s.step call).run calls).draft.fault = none := hf
    have hstep := fault_of_run hrun
    -- the first call gives the value, or a later one does
    have hgiven : (∃ before c after, call :: calls = before ++ c :: after ∧
          c.Assigns (s.run before).draft column ∧ Stays column after) ↔
        (call.Assigns s.draft column ∧ Stays column calls) ∨
          ∃ before c after, calls = before ++ c :: after ∧
            c.Assigns ((s.step call).run before).draft column ∧ Stays column after := by
      constructor
      · rintro ⟨_ | ⟨first, before⟩, c, after, heq, hassigns, hstays⟩
        · cases heq
          exact .inl ⟨hassigns, hstays⟩
        · cases heq
          exact .inr ⟨before, c, after, rfl, hassigns, hstays⟩
      · rintro (⟨hassigns, hstays⟩ | ⟨before, c, after, rfl, hassigns, hstays⟩)
        · exact ⟨[], call, calls, rfl, hassigns, hstays⟩
        · exact ⟨call :: before, c, after, rfl, hassigns, hstays⟩
    show (∃ row ∈ ((s.step call).run calls).rows, row.Assigns column) ↔ _
    rw [ih hcalls hrun, step_earlierAssigns hcall hstep, step_lastAssigns hcall hstep, hgiven,
      stays_cons]
    generalize (∃ before c after, _) = later
    generalize LastAssigns s.rows column = last
    cases call.beginsRow with
    | true => simp only [true_and, true_or, and_true, reduceCtorEq, false_and, or_false, or_assoc]
    | false =>
      simp only [reduceCtorEq, false_and, or_false, true_and, false_or, or_and_right, or_assoc,
        and_assoc, or_left_comm, and_left_comm (a := last)]

/-! ## The search keys of the final primary table -/

theorem updated_rows_nil (settings : Settings) (table : Option TableName) :
    (Chain.updated settings table []).rows = [] := by
  cases table <;> rfl

theorem frame_primary {primary : Entry} (hp : s.draft.registry.primary? = some primary) :
    s.frame = .ok ("UPDATE " ++ s.topText ++ Text.bracketed primary.aliasName,
      " FROM " ++ primary.tableWithAlias ++ s.hints.suffixed) := by
  rw [frame, hp]

/-- **Search keys that are assigned.** A statement that is built on the table of a type has one line
for each row, with the assignments of the row. Some line assigns a search key of this table just if
some call gives the key a value that is not taken for that of a search key, by what is known when
the call is made, and the key is not set again in the same row. -/
theorem build_assigns_key_iff (settings : Settings) (table : Option TableName) (calls : List Step)
    {text : String} (hb : (Chain.updated settings table calls).build = .ok text) {primary : Entry}
    (hp : (Chain.updated settings table calls).draft.registry.primary? = some primary) :
    let s := Chain.updated settings table calls
    (∃ lines, text = String.intercalate "\n" lines ∧
      List.Forall₂ (fun row line => ∃ condition, line =
        lineText ("UPDATE " ++ s.topText ++ Text.bracketed primary.aliasName)
          (" FROM " ++ primary.tableWithAlias ++ s.hints.suffixed) row condition) s.rows lines) ∧
    ((∃ row ∈ s.rows, ∃ key ∈ primary.type.table.searchKeys, row.Assigns key.name) ↔
      ∃ before call after, calls.flatMap Step.single = before ++ call :: after ∧
        ∃ key ∈ primary.type.table.searchKeys,
          call.Assigns (Chain.updated settings table before).draft key.name ∧
            Stays key.name after) := by
  intro s
  obtain ⟨hfault, head, tail, lines, hframe, htext, hlines⟩ := build_eq_ok hb
  rw [frame_primary hp] at hframe
  cases hframe
  refine ⟨⟨lines, htext, ?_⟩, ?_⟩
  · have hrows : s.rows = s.rows.zipIdx.map (·.1) := (List.zipIdx_map_fst 0 s.rows).symm
    rw [hrows, List.forall₂_map_left_iff]
    exact hlines.imp fun _ _ ⟨condition, _, hline⟩ => ⟨condition, hline⟩
  -- calls on several items are taken apart, and the chain starts without rows
  have hrun : (Chain.updated settings table []).run (calls.flatMap Step.single) = s :=
    run_single _ calls
  have hassigned (column : String) := @run_assigns (Chain.updated settings table []) _ column
    (single_singles calls) (by rw [hrun]; exact hfault)
  simp only [hrun, updated_rows_nil, EarlierAssigns, LastAssigns, List.dropLast_nil,
    List.not_mem_nil, List.getLast?_nil, Option.mem_def, reduceCtorEq, false_and, exists_false,
    false_or] at hassigned
  constructor
  · rintro ⟨row, hrow, key, hkey, hassigns⟩
    obtain ⟨before, call, after, hcalls, hgiven, hstays⟩ :=
      (hassigned key.name).1 ⟨row, hrow, hassigns⟩
    exact ⟨before, call, after, hcalls, key, hkey, hgiven, hstays⟩
  · rintro ⟨before, call, after, hcalls, key, hkey, hgiven, hstays⟩
    obtain ⟨row, hrow, hassigns⟩ :=
      (hassigned key.name).2 ⟨before, call, after, hcalls, hgiven, hstays⟩
    exact ⟨row, hrow, key, hkey, hassigns⟩

/-- A row of values that comes before the table is named, and an item that comes after it. -/
theorem build_assigns_key_iff_late :
    let employee : MappedType := ⟨"Employee", "Employee", some "dbo",
      [(Column.plain "Id" "Id").asKey, Column.plain "Name" "Name"]⟩
    let item : Record Field := ⟨"", [("Id", .value (.int 2)), ("Name", .value (.string "y"))]⟩
    let calls : List Step := [.addValues [("Name", .string "x"), ("Id", .int 1)], .target employee,
      .addItem employee item]
    let s := Chain.updated .default none calls
    s.build = .ok
      ("UPDATE [t0] SET [Name]='x',[Id]=1 FROM [dbo].[Employee] [t0] WHERE ([Id]=1);\n" ++
        "UPDATE [t0] SET [Name]='y' FROM [dbo].[Employee] [t0] WHERE ([Id]=2);") ∧
    s.draft.registry.primary? = some ⟨employee, "[dbo].[Employee]", "t0", true⟩ ∧
    ∃ row ∈ s.rows, ∃ key ∈ employee.table.searchKeys, row.Assigns key.name := by
  intro employee item calls s
  have hbuild : s.build = .ok
      ("UPDATE [t0] SET [Name]='x',[Id]=1 FROM [dbo].[Employee] [t0] WHERE ([Id]=1);\n" ++
        "UPDATE [t0] SET [Name]='y' FROM [dbo].[Employee] [t0] WHERE ([Id]=2);") := by
    decide +kernel
  have hprimary : s.draft.registry.primary? =
      some ⟨employee, "[dbo].[Employee]", "t0", true⟩ := by
    decide +kernel
  refine ⟨hbuild, hprimary, (build_assigns_key_iff .default none calls hbuild hprimary).2.2 ?_⟩
  refine ⟨[], .addValues [("Name", .string "x"), ("Id", .int 1)],
    [.target employee, .addItem employee item], rfl, (Column.plain "Id" "Id").asKey, by decide,
    ?_, ?_⟩
  · exact ⟨by decide, by decide⟩
  · exact List.not_mem_nil

/-- The values of a row come first and the table afterwards: the search key is assigned, and it is
also what the row is found by. -/
theorem build_writes_key :
    let employee : MappedType := ⟨"Employee", "Employee", some "dbo",
      [(Column.plain "Id" "Id").asKey, Column.plain "Name" "Name"]⟩
    let calls : List Step :=
      [.addValues [("Id", .int 1), ("Name", .string "x")], .target employee]
    let s := Chain.updated .default none calls
    s.build = .ok
      "UPDATE [t0] SET [Id]=1,[Name]='x' FROM [dbo].[Employee] [t0] WHERE ([Id]=1);" ∧
    s.draft.registry.primary?.map (·.type) = some employee ∧
    employee.table.searchKeys = [(Column.plain "Id" "Id").asKey] ∧
    s.rows.map Row.assigned = [[("Id", "1"), ("Name", "'x'")]] := by
  decide +kernel

end Update

end SqlWright
