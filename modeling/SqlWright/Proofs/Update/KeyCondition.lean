import SqlWright.Proofs.Closed.Clauses
import SqlWright.Proofs.Update.Latest
import SqlWright.Proofs.Update.Rows

/-!
# Columns set in the row of an item

The row of an item keeps the search keys of its type among its values, and without conditions of its
own a statement finds the row by them. A column that is set in the row afterwards takes the place of
the earlier value. On the table of the item's type the search keys are looked up by their names, so
all of them still stand in the condition. A named table has no columns to look up: a search key that
is set there is a plain value from then on, is assigned and no longer narrows the condition.
-/

namespace SqlWright

open Outcome

namespace Update

/-! ## What the calls on rows leave as it is -/

/-- Whether a call neither names the changed table nor adds a condition. -/
def Step.isPlain : Step → Bool
  | .target _ | .addCondition _ _ _ | .addConditionRaw _ _ => false
  | .limit _ | .addHints _ | .addItem _ _ | .addItems _ _ | .addValues _ | .setValue _ _ => true

/-- A statement with the types, the settings and the conditions of another. -/
structure SameGround (s' s : Update) : Prop where
  registry : s'.draft.registry = s.draft.registry
  settings : s'.draft.settings = s.draft.settings
  conditions : s'.conditions = s.conditions

variable {s s' s'' : Update} {call : Step} {calls : List Step} {t : MappedType}
  {item : Record Field}

theorem SameGround.refl (s : Update) : s.SameGround s := ⟨rfl, rfl, rfl⟩

theorem SameGround.trans (h : s''.SameGround s') (h' : s'.SameGround s) : s''.SameGround s :=
  ⟨h.registry.trans h'.registry, h.settings.trans h'.settings, h.conditions.trans h'.conditions⟩

theorem SameGround.columnValue_eq (h : s'.SameGround s) (name : String) (value : Value) :
    s'.draft.columnValue name value = s.draft.columnValue name value := by
  rw [Draft.columnValue, Draft.columnValue, h.registry, h.settings]

theorem acceptRows_sameGround (s : Update) (result : Outcome (List Row)) :
    SameGround { s with draft := (s.draft.accept result s.rows).1,
                        rows := (s.draft.accept result s.rows).2 } s :=
  ⟨Draft.accept_registry _ _ _, by cases result <;> rfl, rfl⟩

theorem step_sameGround (hsingle : call.single = [call]) (hplain : call.isPlain = true) :
    (s.step call).SameGround s := by
  cases call with
  | addItem t item => exact acceptRows_sameGround s _
  | addValues values => exact acceptRows_sameGround s _
  | setValue column value => exact acceptRows_sameGround s _
  | limit _ | addHints _ => exact ⟨rfl, rfl, rfl⟩
  | addItems t items => rcases items with _ | ⟨item, items⟩ <;> cases hsingle
  | target _ | addCondition _ _ _ | addConditionRaw _ _ => cases hplain

theorem run_sameGround (hsingle : ∀ call ∈ calls, call.single = [call])
    (hplain : ∀ call ∈ calls, call.isPlain = true) : (s.run calls).SameGround s := by
  induction calls generalizing s with
  | nil => exact .refl s
  | cons call calls ih =>
    rw [List.forall_mem_cons] at hsingle hplain
    exact (ih hsingle.2 hplain.2).trans (step_sameGround hsingle.1 hplain.1)

theorem isPlain_singles (hplain : ∀ call ∈ calls, call.isPlain = true) :
    ∀ call ∈ calls.flatMap Step.single, call.isPlain = true := by
  intro call hcall
  obtain ⟨c, hmem, hc⟩ := List.mem_flatMap.1 hcall
  have hkind := hplain c hmem
  cases c with
  | addItems t items =>
    obtain ⟨item, -, rfl⟩ := List.mem_map.1 hc
    rfl
  | _ =>
    cases List.mem_singleton.1 hc
    exact hkind

/-! ## The row that columns are set in -/

theorem step_keeps_earlier (hsingle : call.single = [call])
    (hf : (s.step call).draft.fault = none) : s.rows.dropLast <+: (s.step call).rows.dropLast := by
  rcases step_rows hsingle hf with ⟨-, -, row, hrows, -⟩ | ⟨-, column, value, v, -, -, hrows⟩ |
    ⟨-, -, -, hrows⟩
  · rw [hrows, List.dropLast_concat]
    exact List.dropLast_prefix s.rows
  · rw [hrows, setLast_dropLast]
  · rw [hrows]

/-- Calls leave the rows before the last as they are. -/
theorem run_keeps_earlier (hsingle : ∀ call ∈ calls, call.single = [call])
    (hf : (s.run calls).draft.fault = none) : s.rows.dropLast <+: (s.run calls).rows.dropLast := by
  induction calls generalizing s with
  | nil => exact List.prefix_rfl
  | cons call calls ih =>
    obtain ⟨hcall, hcalls⟩ := List.forall_mem_cons.1 hsingle
    have hrun : ((s.step call).run calls).draft.fault = none := hf
    exact (step_keeps_earlier hcall (fault_of_run hrun)).trans (ih hcalls hrun)

/-- The values of columns as a statement takes them. -/
def Takes (d : Draft) (sets : List (String × Value)) (values : Row) : Prop :=
  List.Forall₂ (fun set v => d.columnValue set.1 set.2 = .ok v) sets values

theorem Takes.columns {d : Draft} {sets : List (String × Value)} {values : Row}
    (h : Takes d sets values) : values.map (·.column) = sets.map (·.1) := by
  induction h with
  | nil => rfl
  | cons hv _ ih => rw [List.map_cons, List.map_cons, ih, (Draft.columnValue_eq_ok hv).1]

theorem Takes.of_sameGround {sets : List (String × Value)} {values : Row}
    (h : Takes s'.draft sets values) (hground : s'.SameGround s) : Takes s.draft sets values :=
  h.imp fun _ _ hv => (hground.columnValue_eq _ _).symm.trans hv

/-- **The last row of a chain of calls.** It takes the columns that are set before another row
begins, and nothing changes it after that. -/
theorem run_lastRow {earlier : List Row} {row : Row} (hrows : s.rows = earlier ++ [row])
    (hsingle : ∀ call ∈ calls, call.single = [call])
    (hplain : ∀ call ∈ calls, call.isPlain = true) (hf : (s.run calls).draft.fault = none) :
    ∃ values later, Takes s.draft (ownSets calls) values ∧
      (s.run calls).rows = earlier ++ values.foldl Row.set row :: later := by
  induction calls generalizing s row with
  | nil => exact ⟨[], [], .nil, hrows⟩
  | cons call calls ih =>
    rw [List.forall_mem_cons] at hsingle hplain
    have hrun : ((s.step call).run calls).draft.fault = none := hf
    have hground := step_sameGround (s := s) hsingle.1 hplain.1
    rcases step_rows hsingle.1 (fault_of_run hrun) with ⟨hbegins, -, next, hnext, -⟩ |
      ⟨hbegins, column, value, v, rfl, hv, hset⟩ | ⟨hbegins, hset, -, hsame⟩
    · -- another row begins, so this one is among the rows before the last
      have hprefix := run_keeps_earlier hsingle.2 hrun
      rw [hnext, List.dropLast_concat, hrows] at hprefix
      obtain ⟨later, hlater⟩ := hprefix.trans (List.dropLast_prefix _)
      refine ⟨[], later, ?_, ?_⟩
      · rw [ownSets_of_begins hbegins]
        exact .nil
      · rw [List.append_assoc] at hlater
        exact hlater.symm
    · rw [hrows, setLast_concat] at hset
      obtain ⟨values, later, hvalues, hfinal⟩ := ih hset hsingle.2 hplain.2 hrun
      refine ⟨v :: values, later, ?_, hfinal⟩
      rw [ownSets_of_not_begins hbegins]
      exact .cons hv (hvalues.of_sameGround hground)
    · rw [← hsame] at hrows
      obtain ⟨values, later, hvalues, hfinal⟩ := ih hrows hsingle.2 hplain.2 hrun
      refine ⟨values, later, ?_, hfinal⟩
      rw [ownSets_of_not_begins hbegins, hset]
      exact hvalues.of_sameGround hground

/-! ## The values that are left for search keys -/

/-- Plain values drop the search keys that they are set for, and add none. -/
theorem filter_foldl_set {values : Row} (hvalues : ∀ v ∈ values, v.searchKey = false) (row : Row) :
    (values.foldl Row.set row).filter (·.searchKey) =
      (row.filter (·.searchKey)).filter fun w => !(values.map (·.column)).contains w.column := by
  have hnone : (Row.latest values).filter (·.searchKey) = [] := by
    refine List.filter_eq_nil_iff.2 fun v hv => ?_
    rw [hvalues v ((Row.latest_sublist values).subset hv)]
    exact Bool.false_ne_true
  rw [Row.foldl_set, List.filter_append, hnone, List.append_nil, List.filter_filter,
    List.filter_filter]
  exact List.filter_congr fun w _ => Bool.and_comm _ _

theorem filter_keptRow (t : MappedType) (mode : EnumMode) (item : Record Field) :
    (keptRow t mode item).filter (·.searchKey) =
      t.table.searchKeys.map fun c => c.valueOf mode item := by
  rw [keptRow, List.filter_map, List.filter_filter, Table.searchKeys]
  congr 1
  refine List.filter_congr fun c _ => ?_
  cases hkey : c.searchKey <;> simp [isKept, Column.valueOf, hkey]

/-- The search keys that stay among the values of an item after columns are set: all of them on the
table of the type, and on a named table those that are not set. -/
def keysLeft (t : MappedType) (table : Option TableName) (sets : List (String × Value)) :
    List Column :=
  t.table.searchKeys.filter fun key => table.isNone || !(sets.map (·.1)).contains key.name

theorem keysLeft_eq_iff {table : Option TableName} {sets : List (String × Value)} :
    (keysLeft t table sets).map (·.name) = t.table.searchKeys.map (·.name) ↔
      table = none ∨ ∀ key ∈ t.table.searchKeys, key.name ∉ sets.map (·.1) := by
  have hall : (keysLeft t table sets).map (·.name) = t.table.searchKeys.map (·.name) ↔
      keysLeft t table sets = t.table.searchKeys := by
    refine ⟨fun h => ?_, fun h => by rw [h]⟩
    have hlength := congrArg List.length h
    rw [List.length_map, List.length_map] at hlength
    exact List.filter_sublist.eq_of_length hlength
  rw [hall, keysLeft, List.filter_eq_self]
  cases table with
  | none => simp
  | some name => simp

/-! ## The statement of an item -/

/-- A statement on the table of a type, or on a named table. -/
def start (settings : Settings) (t : MappedType) : Option TableName → Update
  | none => ofType settings t
  | some name => ofTable settings name

theorem start_conditions (settings : Settings) (t : MappedType) (table : Option TableName) :
    (start settings t table).conditions = [] := by
  cases table <;> rfl

theorem primary?_ofTable (settings : Settings) (name : TableName) :
    (ofTable settings name).draft.registry.primary? = none :=
  congrArg Registry.primary? (Draft.accept_registry _ (name.text.map some) none)

/-- On a named table all values are plain. -/
theorem Takes.plain {d : Draft} {sets : List (String × Value)} {values : Row}
    (h : Takes d sets values) (hp : d.registry.primary? = none) :
    ∀ v ∈ values, v.searchKey = false := by
  induction h with
  | nil => exact List.forall_mem_nil _
  | cons hv _ ih =>
    refine List.forall_mem_cons.2 ⟨?_, ih⟩
    rw [(Draft.columnValue_eq_ok hv).2, Draft.isKey, hp]
    rfl

theorem mem_pairs_of_literal? {row : Row} {column literal : String}
    (h : row.literal? column = some literal) : (column, literal) ∈ row.pairs := by
  rw [Row.literal?, Option.map_eq_some_iff] at h
  obtain ⟨v, hv, rfl⟩ := h
  have hcolumn : v.column = column := by simpa using List.find?_some hv
  exact hcolumn ▸ List.mem_map_of_mem (List.mem_of_find?_eq_some hv)

/-- On the table of a type all its search keys are looked up in the row. -/
theorem keys_primary {primary : Entry} (hp : s.draft.registry.primary? = some primary) {row : Row}
    {index : Nat} {found : List (String × String)} (hkeys : s.keys index row = .ok found) :
    (∀ key ∈ found, key ∈ row.pairs) ∧
      found.map (·.1) = primary.type.table.searchKeys.map (·.name) := by
  rw [keys, hp] at hkeys
  have hfound := mapM_eq_ok.1 hkeys
  clear hkeys
  generalize primary.type.table.searchKeys = searchKeys at hfound ⊢
  induction hfound with
  | nil => exact ⟨List.forall_mem_nil _, rfl⟩
  | cons hkey _ ih =>
    split at hkey
    · next literal hliteral =>
      cases hkey
      exact ⟨List.forall_mem_cons.2 ⟨mem_pairs_of_literal? hliteral, ih.1⟩,
        congrArg (List.cons _) ih.2⟩
    · cases hkey

/-- The row of an item after columns are set in it, with the values as the statement takes them. -/
def IsSetRow (d : Draft) (t : MappedType) (item : Record Field) (sets : List (String × Value))
    (row : Row) : Prop :=
  ∃ values, Takes d sets values ∧ row = values.foldl Row.set (keptRow t d.settings.enumMode item)

/-- The search keys that a statement without conditions finds a set row by. -/
theorem keys_setRow {settings : Settings} {table : Option TableName}
    (hground : s.SameGround (start settings t table)) {sets : List (String × Value)} {row : Row}
    (hrow : IsSetRow (start settings t table).draft t item sets row) {index : Nat}
    {found : List (String × String)} (hkeys : s.keys index row = .ok found) :
    (∀ key ∈ found, key ∈ row.pairs) ∧
      found.map (·.1) = (keysLeft t table sets).map (·.name) := by
  cases table with
  | none =>
    -- all search keys of the primary table are looked up
    have hprimary : s.draft.registry.primary? = some
        ⟨t, t.table.qualifiedName settings.defaultSchema, Registry.aliasAt 0, true⟩ :=
      congrArg Registry.primary? hground.registry
    have hleft : keysLeft t none sets = t.table.searchKeys := List.filter_eq_self.2 fun _ _ => rfl
    rw [hleft]
    exact keys_primary hprimary hkeys
  | some name =>
    -- the values that are still taken for search keys are those of the item
    obtain ⟨values, htakes, rfl⟩ := hrow
    have hprimary : s.draft.registry.primary? = none :=
      (congrArg Registry.primary? hground.registry).trans (primary?_ofTable settings name)
    rw [keys, hprimary] at hkeys
    cases hkeys
    refine ⟨?_, ?_⟩
    · exact List.Sublist.subset (List.filter_sublist.map _)
    · have hplain := htakes.plain (primary?_ofTable settings name)
      rw [filter_foldl_set hplain, filter_keptRow, htakes.columns, Row.pairs, List.map_map,
        List.filter_map, List.map_map]
      rfl

/-- The row of an item stands where it was begun, with the columns that are set in it. -/
theorem run_setRow {before after : List Step}
    (hsingle : ∀ call ∈ before ++ .addItem t item :: after, call.single = [call])
    (hplain : ∀ call ∈ before ++ .addItem t item :: after, call.isPlain = true)
    (hf : (s.run (before ++ .addItem t item :: after)).draft.fault = none) :
    ∃ row, IsSetRow s.draft t item (ownSets after) row ∧
      (s.run (before ++ .addItem t item :: after)).rows[(s.run before).rows.length]? =
        some row := by
  have hrun : s.run (before ++ .addItem t item :: after) =
      ((s.run before).step (.addItem t item)).run after := by
    rw [run, List.foldl_append]
    rfl
  rw [List.forall_mem_append, List.forall_mem_cons] at hsingle hplain
  rw [hrun] at hf ⊢
  have hbefore := run_sameGround (s := s) hsingle.1 hplain.1
  have hground := (step_sameGround (s := s.run before) hsingle.2.1 hplain.2.1).trans hbefore
  obtain ⟨row, hrow, hrows⟩ := addItem_rows (fault_of_run hf)
  obtain ⟨-, rfl⟩ := MappedType.row_eq_ok hrow
  obtain ⟨values, later, htakes, hfinal⟩ := run_lastRow hrows hsingle.2.2 hplain.2.2 hf
  refine ⟨_, ⟨values, htakes.of_sameGround hground, rfl⟩, ?_⟩
  rw [hfinal, List.getElem?_append_right le_rfl, Nat.sub_self, List.getElem?_cons_zero,
    hbefore.settings]
  rfl

/-- **A row in which columns are set.** A statement starts from the table of a type or from a named
table and has no conditions of its own. Among other rows it is given an item of the type, and then
columns are set in that row. If the statement is built, the line of the item has what was set in
place of the item's own values, and it finds its row by values of this row: those of all search keys
of the type on its own table, and on a named table those of the search keys that were not set. So
the condition tests all search keys just if the table is that of the type or none of them is set. -/
theorem build_after_sets (settings : Settings) (t : MappedType) (table : Option TableName)
    {calls before after : List Step} {item : Record Field} {text : String}
    (hplain : ∀ call ∈ calls, call.isPlain = true)
    (hcalls : calls.flatMap Step.single = before ++ .addItem t item :: after)
    (hb : ((start settings t table).run calls).build = .ok text) :
    ∃ head tail row found lines,
      ((start settings t table).run calls).frame = .ok (head, tail) ∧
      text = String.intercalate "\n" lines ∧
      lines[((start settings t table).run before).rows.length]? =
        some (lineText head tail row (keyCondition found)) ∧
      IsSetRow (start settings t table).draft t item (ownSets after) row ∧
      (∀ key ∈ found, key ∈ row.pairs) ∧
      found.map (·.1) = (keysLeft t table (ownSets after)).map (·.name) ∧
      (found.map (·.1) = t.table.searchKeys.map (·.name) ↔
        table = none ∨ ∀ key ∈ t.table.searchKeys, key.name ∉ (ownSets after).map (·.1)) := by
  have hsingle := single_singles calls
  have hplain' := isPlain_singles hplain
  rw [← run_single _ calls] at hb ⊢
  rw [hcalls] at hsingle hplain' hb ⊢
  obtain ⟨hfault, head, tail, lines, hframe, htext, hlines⟩ := build_line hb
  obtain ⟨row, hrow, hplace⟩ := run_setRow hsingle hplain' hfault
  have hground := run_sameGround (s := start settings t table) hsingle hplain'
  obtain ⟨condition, hcondition, hline⟩ := hlines _ row hplace
  obtain ⟨found, hkeys, rfl⟩ :=
    keys_of_conditionText (hground.conditions.trans (start_conditions settings t table)) hcondition
  obtain ⟨hpairs, hnames⟩ := keys_setRow hground hrow hkeys
  refine ⟨head, tail, row, found, lines, hframe, htext, hline, hrow, hpairs, hnames, ?_⟩
  rw [hnames]
  exact keysLeft_eq_iff

/-- An item with a key of two columns, one of which is set on the table of its type. -/
theorem build_after_sets_typed :
    let line : MappedType := ⟨"OrderLine", "OrderLine", none,
      [(Column.plain "order" "OrderId").asKey, (Column.plain "line" "LineNo").asKey,
        Column.plain "qty" "Qty"]⟩
    let item : Record Field :=
      ⟨"", [("order", .value (.int 1)), ("line", .value .null), ("qty", .value (.int 3))]⟩
    let calls : List Step :=
      [.addItem line item, .setValue "OrderId" (.int 9), .setValue "Qty" (.int 4)]
    let s := (start .default line none).run calls
    (∀ call ∈ calls, call.isPlain = true) ∧
      s.build = .ok
        ("UPDATE [t0] SET [Qty]=4 FROM [dbo].[OrderLine] [t0] " ++
          "WHERE ([OrderId]=9 AND [LineNo] IS NULL);") ∧
      ∃ head tail row found lines, s.frame = .ok (head, tail) ∧
        s.build = .ok (String.intercalate "\n" lines) ∧
        lines[0]? = some (lineText head tail row (keyCondition found)) ∧
        found.map (·.1) = ["OrderId", "LineNo"] := by
  intro line item calls s
  have hplain : ∀ call ∈ calls, call.isPlain = true := by simp [calls, Step.isPlain]
  have hbuild : s.build = .ok
      ("UPDATE [t0] SET [Qty]=4 FROM [dbo].[OrderLine] [t0] " ++
        "WHERE ([OrderId]=9 AND [LineNo] IS NULL);") := by
    decide +kernel
  obtain ⟨head, tail, row, found, lines, hframe, htext, hline, -, -, -, hall⟩ :=
    @build_after_sets .default line none calls [] _ item _ hplain rfl hbuild
  exact ⟨hplain, hbuild, head, tail, row, found, lines, hframe,
    hbuild.trans (congrArg _ htext), hline, hall.2 (.inl rfl)⟩

/-- On a named table a search key that is set is assigned, and the rest of the key finds other rows
as well. -/
theorem build_drops_key :
    let line : MappedType := ⟨"OrderLine", "OrderLine", none,
      [(Column.plain "order_id" "OrderId").asKey, (Column.plain "line_no" "LineNo").asKey,
        Column.plain "sku" "Sku", Column.plain "qty" "Qty", (Column.plain "notes" "Notes").document,
        (Column.plain "created_at" "CreatedAt").skipUpdate]⟩
    let item : Record Field :=
      ⟨"", [("order_id", .value (.int 1)), ("line_no", .value (.int 2)),
        ("sku", .value (.string "X")), ("qty", .value (.int 3)), ("notes", .value .null),
        ("created_at", .value .null)]⟩
    let calls : List Step := [.addItem line item, .setValue "OrderId" (.int 9)]
    let named := start .default line (some (.written "OrderLine"))
    let typed := start .default line none
    line.table.searchKeys.map (·.name) = ["OrderId", "LineNo"] ∧
      (named.run [.addItem line item]).build = .ok
        ("UPDATE [OrderLine] SET [Sku]='X',[Qty]=3,[Notes]=NULL " ++
          "WHERE ([OrderId]=1 AND [LineNo]=2);") ∧
      (named.run calls).build = .ok
        "UPDATE [OrderLine] SET [Sku]='X',[Qty]=3,[Notes]=NULL,[OrderId]=9 WHERE ([LineNo]=2);" ∧
      (typed.run calls).build = .ok
        ("UPDATE [t0] SET [Sku]='X',[Qty]=3,[Notes]=NULL FROM [dbo].[OrderLine] [t0] " ++
          "WHERE ([OrderId]=9 AND [LineNo]=2);") := by
  decide +kernel

end Update

end SqlWright
