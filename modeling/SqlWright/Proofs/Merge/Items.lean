import SqlWright.Proofs.Insert.Alignment
import SqlWright.Proofs.Update.Rows

/-!
# Items in a MERGE

An action that is made of an item has the columns and literals of the INSERT or UPDATE of that item.
An action knows no settings, so it writes values of enumerations by their integers; elsewhere the
settings decide, unless the column has a mode of its own. And an UPDATE needs the search keys of the
item too, which no action looks at.
-/

namespace SqlWright

open Outcome

/-! ## What the mode of enumerations decides -/

namespace EnumValue

theorem literal_of_unnamed {e : EnumValue} (h : e.name? = none) (mode : EnumMode) :
    e.literal mode = toString e.value := by
  cases mode with
  | asInt => rfl
  | asString =>
    unfold literal
    rw [h]

end EnumValue

namespace Value

mutual
/-- Whether a value is one of an enumeration that a variant names, or has such a value in a list. -/
def hasVariant : Value → Bool
  | .enumerated e => e.name?.isSome
  | .list items => anyVariant items
  | .null | .bool _ | .int _ | .float _ | .decimal _ | .string _ | .guid _ | .dateTime _
  | .offsetDateTime _ | .date _ | .time _ | .binary _ | .json _ => false

/-- The same of one of several values. -/
def anyVariant : List Value → Bool
  | [] => false
  | v :: rest => hasVariant v || anyVariant rest
end

mutual
/-- The mode of enumerations decides on nothing but the names of variants. -/
theorem literal_of_not_hasVariant (mode mode' : EnumMode) :
    ∀ v : Value, v.hasVariant = false → v.literal mode = v.literal mode'
  | .enumerated e, h => by
    rw [hasVariant, Option.isSome_eq_false_iff, Option.isNone_iff_eq_none] at h
    rw [literal, literal, EnumValue.literal_of_unnamed h, EnumValue.literal_of_unnamed h]
  | .list items, h => by
    rw [hasVariant] at h
    rw [literal, literal, literals_of_not_anyVariant mode mode' items h]
  | .null, _ | .bool _, _ | .int _, _ | .float _, _ | .decimal _, _ | .string _, _ | .guid _, _
  | .dateTime _, _ | .offsetDateTime _, _ | .date _, _ | .time _, _ | .binary _, _
  | .json _, _ => by
    rw [literal, literal]

theorem literals_of_not_anyVariant (mode mode' : EnumMode) :
    ∀ items : List Value, anyVariant items = false → literals mode items = literals mode' items
  | [], _ => rfl
  | v :: rest, h => by
    rw [anyVariant, Bool.or_eq_false_iff] at h
    rw [literals, literals, literal_of_not_hasVariant mode mode' v h.1,
      literals_of_not_anyVariant mode mode' rest h.2]
end

end Value

namespace Column

variable (c : Column) (mode mode' : EnumMode)

/-- Whether a column takes a value hangs on no mode. -/
theorem error?_literal (v : Value) :
    error? (c.literal mode v) = error? (c.literal mode' v) := by
  unfold literal
  cases c.kind with
  | enumerated e => rfl
  | json => cases v <;> rfl
  | plain => cases v <;> rfl

theorem literal_of_not_hasVariant {v : Value} (h : c.kind = .plain → v.hasVariant = false) :
    c.literal mode v = c.literal mode' v := by
  unfold literal
  cases hk : c.kind with
  | enumerated e => rfl
  | json =>
    have hsame {w : Value} (hw : w.hasVariant = false) : w.literal mode = w.literal mode' :=
      Value.literal_of_not_hasVariant mode mode' w hw
    cases v with
    | json j => exact congrArg Except.ok (hsame rfl)
    | string s => exact congrArg Except.ok (hsame rfl)
    | null => exact congrArg Except.ok (hsame rfl)
    | _ => rfl
  | plain =>
    have hv := Value.literal_of_not_hasVariant mode mode' v (h hk)
    cases v with
    | json j => rfl
    | _ => exact congrArg Except.ok hv

end Column

namespace MappedType

variable (t : MappedType) (mode mode' : EnumMode) (item : Record Field)

theorem error?_columnValue (c : Column) :
    error? (t.columnValue mode item c) = error? (t.columnValue mode' item c) := by
  unfold columnValue
  cases item.get? c.member with
  | none => rfl
  | some field =>
    cases field with
    | value v =>
      dsimp only
      rw [error?_map, error?_map, c.error?_literal mode mode' v]
    | record r => rfl

/-- An item that has no row has none in either mode, for the same reason. -/
theorem error?_row (chosen : Column → Bool) :
    error? (t.row mode chosen item) = error? (t.row mode' chosen item) := by
  rw [row, row, error?_mapM, error?_mapM]
  congr 1
  funext c
  exact t.error?_columnValue mode mode' item c

/-- The mode of enumerations decides on nothing in the chosen columns of an item: it is the mode of
actions, or no column without an enumeration of its own has a value that a variant names. -/
def IsUniform (chosen : Column → Bool) : Prop :=
  mode = MergeAction.enumMode ∨ ∀ c ∈ t.table.columns, chosen c = true → c.kind = .plain →
    ∀ v, item.get? c.member = some (.value v) → v.hasVariant = false

variable {t mode item}

/-- A row that the mode does not decide on is the one of an action. -/
theorem IsUniform.row_eq {chosen : Column → Bool} (h : t.IsUniform mode item chosen) :
    t.row mode chosen item = t.row MergeAction.enumMode chosen item := by
  obtain rfl | h := h
  · rfl
  · refine mapM_congr fun c hc => ?_
    obtain ⟨hmem, hchosen⟩ := List.mem_filter.1 hc
    unfold columnValue
    cases hget : item.get? c.member with
    | none => rfl
    | some field =>
      cases field with
      | value v =>
        dsimp only
        rw [c.literal_of_not_hasVariant mode MergeAction.enumMode fun hk =>
          h c hmem hchosen hk v hget]
      | record r => rfl

end MappedType

/-! ## Inserting actions -/

namespace Insert

variable (settings : Settings) (t : MappedType) (item : Record Field)

/-- The columns and the literals of one row, as they stand in an INSERT. -/
def rowClause (row : List (String × String)) : String :=
  columnsText (row.map (·.1)) ++ " VALUES " ++
    Text.parenthesized (String.intercalate "," (row.map (·.2)))

theorem fault_addItem_ofType :
    ((ofType settings t).addItem t item).draft.fault =
      error? (t.row settings.enumMode (fun c => c.inclusion.insert) item) := by
  have hclash : (ofType settings t).rowClash? = none := rfl
  rw [addItem_fault, itemFailure?, rowFailure?, hclash, Option.or_none, error?_map]
  exact Option.none_or

theorem addItem_ofType {row : Row}
    (h : t.row settings.enumMode (fun c => c.inclusion.insert) item = .ok row) :
    (ofType settings t).addItem t item =
      (ofType settings t).withRows (row.pairs.map (·.1)) [row.pairs] := by
  show (ofType settings t).addRowOutcome ((t.row settings.enumMode _ item).map Row.pairs) = _
  rw [h]
  rfl

/-- The statement with one row that names no column twice. -/
theorem build_withRow {row : List (String × String)} (hne : row ≠ [])
    (hnames : (row.map (·.1)).Nodup) :
    ((ofType settings t).withRows (row.map (·.1)) [row]).build =
      .ok ("INSERT INTO " ++ t.table.qualifiedName settings.defaultSchema ++ " " ++
        rowClause row ++ ";") := by
  have htuple : IsTuple (row.map (·.1)) row
      (Text.parenthesized (String.intercalate "," (row.map (·.2)))) := by
    refine (isTuple_iff hnames).2 ⟨row.map (·.2), by simp, ?_, rfl⟩
    have hzip := List.zip_unzip row
    rw [List.unzip_eq_map] at hzip
    exact .of_eq hzip
  have hcolumns : row.map (·.1) ≠ [] := by simpa using hne
  refine (build_eq_ok_of_rows rfl).2 ⟨rfl, hcolumns, _, _, rfl, .cons htuple .nil, ?_⟩
  have hhints : ((ofType settings t).withRows (row.map (·.1)) [row]).hints.suffixed = "" := rfl
  rw [hhints, rowClause, String.intercalate_singleton]
  simp only [String.append_assoc, String.append_empty]
  rfl

end Insert

namespace MergeAction

variable (settings : Settings) (t : MappedType) (item : Record Field)

/-- An action that inserts an item does what the INSERT of the item does: it cannot be made just if
the statement records an error, which is then the same, and it has the row of the statement. If no
column is named twice, both are written alike. -/
structure InsertsAlike : Prop where
  fails : error? (insertItem t item) = ((Insert.ofType settings t).addItem t item).draft.fault
  writes {action : MergeAction} :
    t.IsUniform settings.enumMode item (fun c => c.inclusion.insert) →
    insertItem t item = .ok action → ∃ row : List (String × String),
      ((Insert.ofType settings t).addItem t item).source = some (.rows [row]) ∧
      action = .insert (row.map (·.1)) (row.map (·.2)) ∧
      (row ≠ [] → (row.map (·.1)).Nodup →
        action.text = .ok ("INSERT " ++ Insert.rowClause row) ∧
        ((Insert.ofType settings t).addItem t item).build =
          .ok ("INSERT INTO " ++ t.table.qualifiedName settings.defaultSchema ++ " " ++
            Insert.rowClause row ++ ";"))

theorem text_insert {row : List (String × String)} (hne : row ≠ []) :
    text (.insert (row.map (·.1)) (row.map (·.2))) = .ok ("INSERT " ++ Insert.rowClause row) := by
  have hcolumns : ¬ (row.map (·.1)).isEmpty = true := by simpa using hne
  have hlength : ¬ (row.map (·.1)).length ≠ (row.map (·.2)).length := by simp
  have hfront (x : String) : "INSERT " ++ ("(" ++ x) = "INSERT (" ++ x :=
    String.append_assoc.symm.trans (congrArg (· ++ x) (by decide))
  have hvalues (x : String) : ")" ++ (" VALUES " ++ ("(" ++ x)) = ") VALUES (" ++ x := by
    refine Eq.trans ?_ (congrArg (· ++ x) (show ")" ++ " VALUES " ++ "(" = _ by decide))
    simp only [String.append_assoc]
  rw [text, if_neg hcolumns, if_neg hlength, Insert.rowClause, Insert.columnsText]
  unfold Text.parenthesized
  simp only [String.append_assoc, hfront, hvalues]

theorem insertsAlike : InsertsAlike settings t item where
  fails := by
    rw [insertItem, error?_map, Insert.fault_addItem_ofType]
    exact t.error?_row enumMode settings.enumMode item _
  writes {action} hu h := by
    obtain ⟨row, hrow, rfl⟩ := map_eq_ok.1 h
    have hadd := Insert.addItem_ofType settings t item (hu.row_eq.trans hrow)
    have hpairs : row.pairs.map (·.1) = row.map (·.column) ∧
        row.pairs.map (·.2) = row.map (·.literal) := by
      constructor <;> rw [Row.pairs, List.map_map] <;> rfl
    rw [hadd, ← hpairs.1, ← hpairs.2]
    exact ⟨row.pairs, rfl, rfl, fun hne hnames =>
      ⟨text_insert hne, Insert.build_withRow settings t hne hnames⟩⟩

end MergeAction

/-! ## Updating actions -/

namespace Column

/-- Whether an item has nothing to write in a column hangs on no mode. -/
theorem lacks_iff (c : Column) (mode mode' : EnumMode) (item : Record Field) :
    c.Lacks mode item ↔ c.Lacks mode' item := by
  simp only [Lacks, ← error?_eq_some, c.error?_literal mode mode']

end Column

namespace Update

variable {settings : Settings} {t : MappedType} {item : Record Field}

/-- The assignments of one row, as they stand in an UPDATE. -/
def assignmentClause (row : Row) : String :=
  String.intercalate "," (row.assigned.map fun a => Text.bracketed a.1 ++ "=" ++ a.2)

theorem fault_addItem_ofType :
    ((ofType settings t).addItem t item).draft.fault =
      error? (t.row settings.enumMode isKept item) := by
  rw [addItem_fault]
  exact Option.none_or

/-- The row of an item assigns what an action assigns. -/
theorem assigned_of_row {mode : EnumMode} {row row' : Row}
    (h : t.row mode isKept item = .ok row) (h' : t.row mode MergeAction.assigns item = .ok row') :
    row.assigned = row'.pairs := by
  obtain ⟨-, rfl⟩ := MappedType.row_eq_ok h
  obtain ⟨-, rfl⟩ := MappedType.row_eq_ok h'
  have hassigned : t.table.columns.filter MergeAction.assigns = t.table.assigned := rfl
  rw [Row.assigned, hassigned, ← filter_isKept, List.filter_map]
  rfl

theorem build_withRow {row : Row} {text : String}
    (h : build { ofType settings t with rows := [row] } = .ok text) :
    ∃ condition, text = "UPDATE [t0] SET " ++ assignmentClause row ++ " FROM " ++
      t.table.qualifiedName settings.defaultSchema ++ " [t0] WHERE " ++ condition ++ ";" := by
  obtain ⟨-, head, tail, lines, hframe, rfl, hlines⟩ := build_eq_ok h
  rw [frame_ofType] at hframe
  cases hframe
  obtain ⟨line, _, ⟨condition, -, rfl⟩, hnil, rfl⟩ := List.forall₂_cons_left_iff.1 hlines
  cases hnil
  refine ⟨condition, ?_⟩
  rw [String.intercalate_singleton, lineText, assignmentClause]
  have hset (x : String) : "UPDATE [t0]" ++ (" SET " ++ x) = "UPDATE [t0] SET " ++ x :=
    String.append_assoc.symm.trans (congrArg (· ++ x) (by decide))
  have hwhere (x : String) : " [t0]" ++ (" WHERE " ++ x) = " [t0] WHERE " ++ x :=
    String.append_assoc.symm.trans (congrArg (· ++ x) (by decide))
  simp only [String.append_assoc, hset, hwhere]

end Update

namespace MergeAction

variable (settings : Settings) (t : MappedType) (item : Record Field)

/-- An action that updates with an item does what the UPDATE of the item does, save that the
statement also records an error for want of a search key: the action assigns what the row of the
statement assigns, and both are written alike. -/
structure UpdatesAlike : Prop where
  fails : (∃ e, ((Update.ofType settings t).addItem t item).draft.fault = some e) ↔
    (∃ e, updateItem t item = .error e) ∨
      ∃ key ∈ t.table.searchKeys, key.Lacks settings.enumMode item
  writes {action : MergeAction} : t.IsUniform settings.enumMode item assigns →
    updateItem t item = .ok action →
    ((Update.ofType settings t).addItem t item).draft.fault = none → ∃ row : Row,
      ((Update.ofType settings t).addItem t item).rows = [row] ∧
      action = .update row.assigned ∧
      (row.assigned ≠ [] →
        action.text = .ok ("UPDATE SET " ++ Update.assignmentClause row)) ∧
      ∀ text, ((Update.ofType settings t).addItem t item).build = .ok text →
        ∃ condition, text = "UPDATE [t0] SET " ++ Update.assignmentClause row ++ " FROM " ++
          t.table.qualifiedName settings.defaultSchema ++ " [t0] WHERE " ++ condition ++ ";"

theorem text_update {row : Row} (hne : row.assigned ≠ []) :
    text (.update row.assigned) = .ok ("UPDATE SET " ++ Update.assignmentClause row) := by
  have hassigned : ¬ row.assigned.isEmpty = true := by simpa using hne
  rw [text, if_neg hassigned]
  rfl

theorem updatesAlike : UpdatesAlike settings t item where
  fails := by
    have hrow : (∃ e, ((Update.ofType settings t).addItem t item).draft.fault = some e) ↔
        ∃ c ∈ t.table.columns, Update.isKept c = true ∧ c.Lacks settings.enumMode item := by
      rw [← MappedType.row_eq_error, Update.fault_addItem_ofType]
      simp only [error?_eq_some]
    have haction : (∃ e, updateItem t item = .error e) ↔
        ∃ c ∈ t.table.columns, assigns c = true ∧ c.Lacks settings.enumMode item := by
      simp only [updateItem, map_eq_error, MappedType.row_eq_error,
        Column.lacks_iff _ enumMode settings.enumMode item]
    have hkept (c : Column) : Update.isKept c = true ↔ assigns c = true ∨ c.searchKey = true := by
      cases hk : c.searchKey <;> simp [Update.isKept, assigns, hk]
    rw [hrow, haction]
    simp only [hkept, Table.searchKeys, List.mem_filter, or_and_right, and_or_left, exists_or,
      and_assoc]
  writes {action} hu h hf := by
    obtain ⟨assigned, hassigned, rfl⟩ := map_eq_ok.1 h
    rw [Update.fault_addItem_ofType] at hf
    obtain ⟨row, hrow⟩ := eq_ok_of_error?_eq_none hf
    have hadd : (Update.ofType settings t).addItem t item =
        { Update.ofType settings t with rows := [row] } := Update.addItem_of_row hrow
    have hsame := Update.assigned_of_row hrow (hu.row_eq.trans hassigned)
    rw [hadd, ← hsame]
    exact ⟨row, rfl, rfl, text_update, fun text htext => Update.build_withRow htext⟩

end MergeAction

/-! ## Actions in a statement -/

theorem Text.exists_of_mem_intercalate (separator : String) {t : String} {texts : List String}
    (h : t ∈ texts) :
    ∃ before after, String.intercalate separator texts = before ++ t ++ after := by
  induction texts with
  | nil => cases h
  | cons u texts ih =>
    cases texts with
    | nil =>
      obtain rfl := List.mem_singleton.1 h
      exact ⟨"", "", by simp⟩
    | cons w texts =>
      rw [String.intercalate_cons_cons]
      rcases List.mem_cons.1 h with rfl | h
      · refine ⟨"", separator ++ String.intercalate separator (w :: texts), ?_⟩
        simp only [String.empty_append, String.append_assoc]
      · obtain ⟨before, after, heq⟩ := ih h
        refine ⟨u ++ separator ++ before, after, ?_⟩
        rw [heq]
        simp only [String.append_assoc]

/-- A finished statement has the text of each of its actions, whatever its settings are. -/
theorem Merge.build_shows_action {s : Merge} {text : String} (h : s.build = .ok text)
    {c : MergeClause} (hc : c ∈ s.clauses) :
    ∃ action before after, c.action.text = .ok action ∧
      text = before ++ " THEN " ++ action ++ after := by
  have ht := (Draft.finish_eq_ok h).2
  obtain ⟨⟨table, aliasName⟩, -, ht⟩ := bind_eq_ok.1 ht
  dsimp only at ht
  split at ht
  · cases ht
  · split at ht
    · cases ht
    · obtain ⟨clauses, hclauses, ht⟩ := bind_eq_ok.1 ht
      cases ht
      obtain ⟨clause, hmem, hclause⟩ := exists_mem_of_mapM hclauses hc
      obtain ⟨action, haction, rfl⟩ := map_eq_ok.1 hclause
      obtain ⟨before, after, heq⟩ :=
        Text.exists_of_mem_intercalate " " (List.mem_cons_of_mem _ hmem)
      rw [heq]
      generalize "MERGE " ++ _ ++ table ++ s.hints.suffixed ++ " AS " ++
        Text.bracketed aliasName = front
      refine ⟨action, front ++ " " ++ before ++ "WHEN " ++
        (if c.matched then "MATCHED" else "NOT MATCHED") ++
          MergeClause.conditionText c.condition, after ++ ";", haction, ?_⟩
      simp only [String.append_assoc]

/-! ## One record in three statements -/

/-- **The same item is written the same.** Under all settings, an action that inserts or updates
with an item has the columns and the literals of the INSERT or the UPDATE of that item, as long as
the settings do not decide on the names of variants, and a finished MERGE has the text of its
actions. An inserting action fails just if the row of the INSERT does, and with the same error; the
row of the UPDATE fails just if the updating action does or a search key has no value. -/
theorem MergeAction.writes_alike (settings : Settings) (t : MappedType) (item : Record Field) :
    InsertsAlike settings t item ∧ UpdatesAlike settings t item ∧
    ∀ (s : Merge) (text : String), s.build = .ok text → ∀ c ∈ s.clauses,
      ∃ action before after, c.action.text = .ok action ∧
        text = before ++ " THEN " ++ action ++ after :=
  ⟨insertsAlike settings t item, updatesAlike settings t item,
    fun _ _ h _ hc => Merge.build_shows_action h hc⟩

/-- An item whose only value of an enumeration is in a column with a mode of its own, under settings
of the other mode. -/
theorem MergeAction.writes_alike_staff :
    let staff : MappedType := ⟨"Staff", "Staff", none, [(Column.plain "Id" "Id").asKey,
      (Column.plain "Status" "Status").enumerated ⟨"Status", [("Retired", 3)]⟩ .asInt]⟩
    let settings : Settings := { Settings.default with enumMode := .asString }
    let item : Record Field :=
      ⟨"", [("Id", .value (.int 7)), ("Status", .value (.string "Retired"))]⟩
    (∃ row, ((Insert.ofType settings staff).addItem staff item).source = some (.rows [row]) ∧
      insertItem staff item = .ok (.insert (row.map (·.1)) (row.map (·.2)))) ∧
    (∃ row : Row, ((Update.ofType settings staff).addItem staff item).rows = [row] ∧
      updateItem staff item = .ok (.update row.assigned)) ∧
    updateItem staff item = .ok (.update [("Status", "3")]) := by
  intro staff settings item
  obtain ⟨hinserts, hupdates, -⟩ := writes_alike settings staff item
  have huniform (chosen : Column → Bool) : staff.IsUniform settings.enumMode item chosen := by
    refine .inr fun c hc _ hkind v hv => ?_
    rcases List.mem_pair.1 hc with rfl | rfl
    · cases hv
      rfl
    · cases hkind
  have hinsert : insertItem staff item = .ok (.insert ["Id", "Status"] ["7", "3"]) := by
    decide +kernel
  have hupdate : updateItem staff item = .ok (.update [("Status", "3")]) := by decide +kernel
  have hfault : ((Update.ofType settings staff).addItem staff item).draft.fault = none := by
    decide +kernel
  obtain ⟨row, hsource, haction, -⟩ := hinserts.writes (huniform _) hinsert
  obtain ⟨row', hrows, haction', -, -⟩ := hupdates.writes (huniform _) hupdate hfault
  exact ⟨⟨row, hsource, haction ▸ hinsert⟩, ⟨row', hrows, haction' ▸ hupdate⟩, hupdate⟩

/-- Without its search key an item can be assigned by an action, but has no row in an UPDATE. If two
columns have one name, the INSERT writes the first value in both. And a variant in a column without
an enumeration is named by the INSERT alone, if the settings say so. -/
theorem MergeAction.writes_otherwise :
    let staff : MappedType := ⟨"Staff", "Staff", none,
      [(Column.plain "Id" "Id").asKey, Column.plain "Name" "Name"]⟩
    let twice : MappedType := ⟨"Twice", "Twice", none, [Column.plain "a" "A", Column.plain "b" "A"]⟩
    let keyless : Record Field := ⟨"", [("Name", .value (.string "x"))]⟩
    let pair : Record Field := ⟨"", [("a", .value (.int 7)), ("b", .value (.int 8))]⟩
    let active : Value := .enumerated ⟨⟨"Status", [("Active", 1)]⟩, 1⟩
    let named : Record Field := ⟨"", [("Id", .value (.int 1)), ("Name", .value active)]⟩
    let settings : Settings := { Settings.default with enumMode := .asString }
    updateItem staff keyless = .ok (.update [("Name", "'x'")]) ∧
    ((Update.ofType .default staff).addItem staff keyless).draft.fault =
      some (.missing (.member "Id" "Staff")) ∧
    insertItem twice pair = .ok (.insert ["A", "A"] ["7", "8"]) ∧
    ((Insert.ofType .default twice).addItem twice pair).build =
      .ok "INSERT INTO [dbo].[Twice] ([A],[A]) VALUES (7,7);" ∧
    insertItem staff named = .ok (.insert ["Id", "Name"] ["1", "1"]) ∧
    ((Insert.ofType settings staff).addItem staff named).build =
      .ok "INSERT INTO [dbo].[Staff] ([Id],[Name]) VALUES (1,'Active');" := by
  decide +kernel

end SqlWright
