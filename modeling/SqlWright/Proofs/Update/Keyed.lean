import SqlWright.Proofs.Failure.Calls

/-!
# Updates by key

A statement that is made of items of its own type and of nothing else. Each item gives one line. It
assigns the columns that take part in updates and are no search keys, and it finds its row by all
search keys, also by those that take no part in updates. Whatever cannot be written for one item
keeps the whole statement from being built.
-/

namespace SqlWright

open Outcome

/-! ## What an item has for a column -/

namespace Column

/-- The item has a value for the column, and the column takes it in the form of this literal. -/
def Writes (c : Column) (mode : EnumMode) (item : Record Field) (literal : String) : Prop :=
  ∃ v, item.get? c.member = some (.value v) ∧ c.literal mode v = .ok literal

/-- The item has nothing to write in the column: the member is missing, it is a record, or its value
is one that the column refuses. -/
def Lacks (c : Column) (mode : EnumMode) (item : Record Field) : Prop :=
  item.get? c.member = none ∨ (∃ r, item.get? c.member = some (.record r)) ∨
    ∃ v e, item.get? c.member = some (.value v) ∧ c.literal mode v = .error e

theorem Writes.not_lacks {c : Column} {mode : EnumMode} {item : Record Field} {literal : String}
    (h : c.Writes mode item literal) : ¬ c.Lacks mode item := by
  obtain ⟨v, hget, hv⟩ := h
  rw [Lacks, hget]
  rintro (hn | ⟨r, hn⟩ | ⟨u, e, hn, he⟩)
  · cases hn
  · cases hn
  · cases hn
    rw [he] at hv
    cases hv

/-- The literal that the column has for the item; the empty text if there is none. -/
def written (c : Column) (mode : EnumMode) (item : Record Field) : String :=
  match item.get? c.member with
  | some (.value v) => (c.literal mode v).toOption.getD ""
  | _ => ""

theorem written_eq {c : Column} {mode : EnumMode} {item : Record Field} {v : Value}
    {literal : String} (hget : item.get? c.member = some (.value v))
    (hv : c.literal mode v = .ok literal) : c.written mode item = literal := by
  rw [written, hget]
  show (c.literal mode v).toOption.getD "" = literal
  rw [hv]
  rfl

/-- A column with the literal of an item. -/
def valueOf (c : Column) (mode : EnumMode) (item : Record Field) : ColumnValue :=
  ⟨c.name, c.written mode item, c.searchKey⟩

end Column

namespace MappedType

variable {t : MappedType} {mode : EnumMode} {item : Record Field} {c : Column}

theorem columnValue_eq_ok {v : ColumnValue} (h : t.columnValue mode item c = .ok v) :
    c.Writes mode item (c.written mode item) ∧ v = c.valueOf mode item := by
  unfold columnValue at h
  split at h
  · next value hget =>
    obtain ⟨literal, hl, rfl⟩ := map_eq_ok.1 h
    rw [Column.valueOf, Column.written_eq hget hl]
    exact ⟨⟨value, hget, hl⟩, rfl⟩
  · cases h
  · cases h

theorem columnValue_eq_error : (∃ e, t.columnValue mode item c = .error e) ↔ c.Lacks mode item := by
  unfold columnValue Column.Lacks
  cases hget : item.get? c.member with
  | none => simp
  | some field =>
    cases field with
    | value v => simp [map_eq_error]
    | record r => simp

/-- The row of an item holds the literals of the chosen columns. -/
theorem row_eq_ok {chosen : Column → Bool} {row : Row} (h : t.row mode chosen item = .ok row) :
    (∀ c ∈ t.table.columns, chosen c = true → c.Writes mode item (c.written mode item)) ∧
      row = (t.table.columns.filter chosen).map fun c => c.valueOf mode item := by
  have hvalues := mapM_eq_ok.1 h
  generalize hcs : t.table.columns.filter chosen = columns at hvalues
  have hall : (∀ c ∈ columns, c.Writes mode item (c.written mode item)) ∧
      row = columns.map fun c => c.valueOf mode item := by
    clear h hcs
    induction hvalues with
    | nil => exact ⟨List.forall_mem_nil _, rfl⟩
    | cons hv _ ih =>
      obtain ⟨hwrites, rfl⟩ := columnValue_eq_ok hv
      obtain ⟨hrest, rfl⟩ := ih
      exact ⟨List.forall_mem_cons.2 ⟨hwrites, hrest⟩, rfl⟩
  refine ⟨fun c hc hchosen => hall.1 c ?_, hall.2⟩
  rw [← hcs]
  exact List.mem_filter.2 ⟨hc, hchosen⟩

/-- An item has no row just if it lacks one of the chosen columns. -/
theorem row_eq_error {chosen : Column → Bool} :
    (∃ e, t.row mode chosen item = .error e) ↔
      ∃ c ∈ t.table.columns, chosen c = true ∧ c.Lacks mode item := by
  constructor
  · rintro ⟨e, he⟩
    obtain ⟨c, hc, herror⟩ := exists_mem_of_mapM_eq_error he
    obtain ⟨hmem, hchosen⟩ := List.mem_filter.1 hc
    exact ⟨c, hmem, hchosen, columnValue_eq_error.1 ⟨e, herror⟩⟩
  · rintro ⟨c, hmem, hchosen, hlacks⟩
    cases hr : t.row mode chosen item with
    | error e => exact ⟨e, rfl⟩
    | ok row => exact absurd hlacks ((row_eq_ok hr).1 c hmem hchosen).not_lacks

end MappedType

/-- In a row without repeated columns every value is found by its column. -/
theorem Row.literal?_of_mem {row : Row} (hnames : (row.map (·.column)).Nodup) {v : ColumnValue}
    (hv : v ∈ row) : Row.literal? row v.column = some v.literal := by
  induction row with
  | nil => cases hv
  | cons w row ih =>
    rw [List.map_cons, List.nodup_cons] at hnames
    rw [Row.literal?, List.find?_cons]
    rcases List.mem_cons.1 hv with rfl | hv
    · simp
    · have hne : (w.column == v.column) = false := by
        rw [beq_eq_false_iff_ne]
        intro heq
        exact hnames.1 (heq ▸ List.mem_map_of_mem hv)
      rw [hne]
      exact ih hnames.2 hv

/-! ## The rows of several items -/

namespace Update

/-- Whether the row of an item has a column: it takes part in updates or is a search key. -/
def isKept (c : Column) : Bool :=
  c.inclusion.update || c.searchKey

variable {s : Update} {t : MappedType} {items : List (Record Field)}

theorem addItem_of_row {item : Record Field} {row : Row}
    (h : t.row s.draft.settings.enumMode isKept item = .ok row) :
    s.addItem t item = { s with rows := s.rows ++ [row] } := by
  have hrow : t.row s.draft.settings.enumMode (fun c => c.inclusion.update || c.searchKey) item =
      .ok row := h
  rw [addItem, hrow]
  rfl

/-- Items that all have rows add these, in their order. -/
theorem addItems_of_rows {rows : List Row}
    (h : items.mapM (t.row s.draft.settings.enumMode isKept) = .ok rows) :
    s.addItems t items = { s with rows := s.rows ++ rows } := by
  induction items generalizing s rows with
  | nil =>
    cases h
    show s = { s with rows := s.rows ++ [] }
    rw [List.append_nil]
  | cons item items ih =>
    rw [List.mapM_cons] at h
    obtain ⟨row, hrow, h⟩ := bind_eq_ok.1 h
    obtain ⟨rest, hrest, h⟩ := bind_eq_ok.1 h
    cases h
    have hnext : (s.addItem t item).addItems t items =
        { s.addItem t item with rows := (s.addItem t item).rows ++ rest } := by
      refine ih ?_
      rw [addItem_of_row hrow]
      exact hrest
    show (s.addItem t item).addItems t items = _
    rw [hnext, addItem_of_row hrow, List.append_assoc]
    rfl

/-- An item without a row leaves its error on the statement. -/
theorem addItems_of_error {e : Error} (hs : s.draft.fault = none)
    (h : items.mapM (t.row s.draft.settings.enumMode isKept) = .error e) :
    (s.addItems t items).draft.fault = some e := by
  induction items generalizing s with
  | nil => cases h
  | cons item items ih =>
    rw [List.mapM_cons, bind_eq_error] at h
    show ((s.addItem t item).addItems t items).draft.fault = some e
    rcases h with h | ⟨row, hrow, h⟩
    · have hfirst : itemFailure? t s item = some e := congrArg error? h
      have hrest := fault_foldl (·.draft.fault) (addItem_fault t) (s.addItem t item) items
      rw [addItem_fault, hs, hfirst] at hrest
      exact hrest
    · rcases bind_eq_error.1 h with h | ⟨rest, -, h⟩
      · refine ih ?_ ?_
        · rw [addItem_of_row hrow]
          exact hs
        · rw [addItem_of_row hrow]
          exact h
      · cases h

end Update

/-! ## The statement of one item -/

/-- The columns that an update assigns: those that take part in updates, but no search keys. -/
def Table.assigned (t : Table) : List Column :=
  t.columns.filter fun c => c.inclusion.update && !c.searchKey

/-- The update of the row that has these literals as its search keys; it assigns those of the other
columns. A search key that is null is tested for it. -/
def MappedType.keyedUpdate (t : MappedType) (schema : String) (literal : Column → String) :
    String :=
  "UPDATE [t0] SET " ++
    String.intercalate ","
      (t.table.assigned.map fun c => Text.bracketed c.name ++ "=" ++ literal c) ++
    " FROM " ++ t.table.qualifiedName schema ++ " [t0] WHERE (" ++
    String.intercalate " AND "
      (t.table.searchKeys.map fun c =>
        if literal c = "NULL" then Text.bracketed c.name ++ " IS NULL"
        else Text.bracketed c.name ++ "=" ++ literal c) ++
    ");"

namespace Update

variable {t : MappedType} {settings : Settings} {mode : EnumMode} {item : Record Field}

/-- The row of an item as the statement holds it. -/
def keptRow (t : MappedType) (mode : EnumMode) (item : Record Field) : Row :=
  (t.table.columns.filter isKept).map fun c => c.valueOf mode item

/-- Of the columns that the row of an item has, those are assigned that are no search keys. -/
theorem filter_isKept (t : MappedType) :
    (t.table.columns.filter isKept).filter (fun c => !c.searchKey) = t.table.assigned := by
  rw [Table.assigned, List.filter_filter]
  refine List.filter_congr fun c _ => ?_
  cases hk : c.searchKey <;> simp [isKept, hk]

theorem assignments_keptRow :
    assignments (keptRow t mode item) =
      t.table.assigned.map fun c => Text.bracketed c.name ++ "=" ++ c.written mode item := by
  rw [assignments, keptRow, ← filter_isKept, List.filter_map, List.map_map]
  rfl

theorem literal?_keptRow (hnames : (t.table.columns.map (·.name)).Nodup) {c : Column}
    (hc : c ∈ t.table.searchKeys) :
    Row.literal? (keptRow t mode item) c.name = some (c.written mode item) := by
  obtain ⟨hmem, hkey⟩ := List.mem_filter.1 hc
  have hkept : c ∈ t.table.columns.filter isKept :=
    List.mem_filter.2 ⟨hmem, by rw [isKept, hkey, Bool.or_true]⟩
  have hcolumns : ((keptRow t mode item).map (·.column)).Nodup := by
    rw [keptRow, List.map_map]
    exact hnames.sublist (List.filter_sublist.map _)
  exact Row.literal?_of_mem (v := c.valueOf mode item) hcolumns (List.mem_map_of_mem hkept)

variable {s : Update} {primary : Entry}

/-- All search keys of the primary type are found in the row of an item. -/
theorem keys_keptRow (hp : s.draft.registry.primary? = some primary)
    (hnames : (primary.type.table.columns.map (·.name)).Nodup) (index : Nat) :
    s.keys index (keptRow primary.type mode item) =
      .ok (primary.type.table.searchKeys.map fun c => (c.name, c.written mode item)) := by
  rw [keys, hp]
  refine mapM_eq_ok.2 (List.forall₂_map_right_iff.2 (List.forall₂_same.2 fun c hc => ?_))
  rw [literal?_keptRow hnames hc]

/-- Without conditions of its own a statement finds the row of an item by all search keys. -/
theorem conditionText_keptRow (hp : s.draft.registry.primary? = some primary)
    (hc : s.conditions = []) (hnames : (primary.type.table.columns.map (·.name)).Nodup)
    (index : Nat) :
    s.conditionText index (keptRow primary.type mode item) =
      if primary.type.table.searchKeys = [] then .error (.misuse .unfilteredUpdate)
      else .ok (keyCondition
        (primary.type.table.searchKeys.map fun c => (c.name, c.written mode item))) := by
  rw [conditionText, hc, List.isEmpty_nil, if_pos rfl, keys_keptRow hp hnames, ok_bind]
  simp only [List.isEmpty_iff, List.map_eq_nil_iff]

/-- Items that all have rows have their own literals for all columns they need. -/
theorem rows_of_items {items : List (Record Field)} {rows : List Row}
    (h : items.mapM (t.row mode isKept) = .ok rows) :
    rows = items.map (keptRow t mode) ∧ ∀ item ∈ items, ∀ c ∈ t.table.columns,
      c.inclusion.update = true ∨ c.searchKey = true →
        c.Writes mode item (c.written mode item) := by
  have hrows := mapM_eq_ok.1 h
  clear h
  induction hrows with
  | nil => exact ⟨rfl, List.forall_mem_nil _⟩
  | cons hrow _ ih =>
    obtain ⟨hwrites, rfl⟩ := MappedType.row_eq_ok hrow
    obtain ⟨rfl, hrest⟩ := ih
    refine ⟨rfl, List.forall_mem_cons.2 ⟨fun c hc hkept => hwrites c hc ?_, hrest⟩⟩
    rw [isKept, Bool.or_eq_true]
    exact hkept

/-! ## The whole statement -/

/-- The statement of an item, if there is something to assign and something to find the row by. -/
theorem rowText_keptRow (hp : s.draft.registry.primary? = some primary) (hc : s.conditions = [])
    (hnames : (primary.type.table.columns.map (·.name)).Nodup)
    (ha : primary.type.table.assigned ≠ []) (hk : primary.type.table.searchKeys ≠ [])
    (head tail : String) (index : Nat) :
    s.rowText head tail index (keptRow primary.type mode item) =
      .ok (head ++ " SET " ++
        String.intercalate ","
          (primary.type.table.assigned.map fun c =>
            Text.bracketed c.name ++ "=" ++ c.written mode item) ++ tail ++ " WHERE " ++
        keyCondition (primary.type.table.searchKeys.map fun c => (c.name, c.written mode item)) ++
        ";") := by
  have hassignments : ¬ (assignments (keptRow primary.type mode item)).isEmpty = true := by
    rw [assignments_keptRow, List.isEmpty_iff, List.map_eq_nil_iff]
    exact ha
  rw [rowText, if_neg hassignments, conditionText_keptRow hp hc hnames, if_neg hk,
    assignments_keptRow]
  rfl

/-- A row without anything to assign has no statement, and neither has one that cannot be found. -/
theorem rowText_keptRow_eq_error (hp : s.draft.registry.primary? = some primary)
    (hc : s.conditions = []) (hnames : (primary.type.table.columns.map (·.name)).Nodup)
    (h : primary.type.table.assigned = [] ∨ primary.type.table.searchKeys = [])
    (head tail : String) (index : Nat) :
    ∃ e, s.rowText head tail index (keptRow primary.type mode item) = .error e := by
  rw [rowText, assignments_keptRow]
  rcases h with h | h
  · rw [h]
    exact ⟨_, rfl⟩
  · rw [conditionText_keptRow hp hc hnames, if_pos h]
    split <;> exact ⟨_, rfl⟩

theorem primary?_ofType (settings : Settings) (t : MappedType) :
    (ofType settings t).draft.registry.primary? =
      some ⟨t, t.table.qualifiedName settings.defaultSchema, Registry.aliasAt 0, true⟩ := rfl

/-- A statement for a type changes its table under the first alias. -/
theorem frame_ofType (settings : Settings) (t : MappedType) (rows : List Row) :
    frame { ofType settings t with rows := rows } =
      .ok ("UPDATE [t0]",
        " FROM " ++ (t.table.qualifiedName settings.defaultSchema ++ " [t0]")) := by
  have halias : Text.bracketed (Registry.aliasAt 0) = "[t0]" := by decide
  rw [frame]
  dsimp only
  rw [primary?_ofType]
  show Except.ok ("UPDATE " ++ "" ++ Text.bracketed (Registry.aliasAt 0),
    " FROM " ++ (t.table.qualifiedName settings.defaultSchema ++ " " ++
      Text.bracketed (Registry.aliasAt 0)) ++ "") = _
  rw [halias, String.append_empty, String.append_empty, String.append_assoc]
  rfl

theorem keyedUpdate_eq (t : MappedType) (schema : String) (literal : Column → String) :
    "UPDATE [t0]" ++ " SET " ++
        String.intercalate ","
          (t.table.assigned.map fun c => Text.bracketed c.name ++ "=" ++ literal c) ++
        (" FROM " ++ (t.table.qualifiedName schema ++ " [t0]")) ++ " WHERE " ++
        keyCondition (t.table.searchKeys.map fun c => (c.name, literal c)) ++ ";" =
      t.keyedUpdate schema literal := by
  have htests : keyCondition (t.table.searchKeys.map fun c => (c.name, literal c)) =
      Text.parenthesized (String.intercalate " AND " (t.table.searchKeys.map fun c =>
        if literal c = "NULL" then Text.bracketed c.name ++ " IS NULL"
        else Text.bracketed c.name ++ "=" ++ literal c)) := by
    rw [keyCondition, List.map_map]
    rfl
  have hfront (x : String) : "UPDATE [t0]" ++ (" SET " ++ x) = "UPDATE [t0] SET " ++ x :=
    String.append_assoc.symm.trans (congrArg (· ++ x) (by decide))
  have hwhere (x : String) : " [t0]" ++ (" WHERE " ++ ("(" ++ x)) = " [t0] WHERE (" ++ x := by
    refine Eq.trans ?_ (congrArg (· ++ x) (show " [t0]" ++ " WHERE " ++ "(" = _ by decide))
    simp only [String.append_assoc]
  have hend : ")" ++ ";" = ");" := by decide
  rw [htests]
  unfold Text.parenthesized MappedType.keyedUpdate
  generalize String.intercalate "," _ = assigned
  generalize String.intercalate " AND " _ = tests
  simp only [String.append_assoc]
  rw [hfront, hwhere, hend]

section Text

variable (settings : Settings) (t : MappedType) (items : List (Record Field))

/-- The statement for the items of a type when each of them has a row. -/
def ofItems : Update :=
  { ofType settings t with rows := items.map (keptRow t settings.enumMode) }

theorem text_ofItems (hnames : (t.table.columns.map (·.name)).Nodup) (hi : items ≠ [])
    (ha : t.table.assigned ≠ []) (hk : t.table.searchKeys ≠ []) :
    (ofItems settings t items).text =
      .ok (String.intercalate "\n" (items.map fun item =>
        t.keyedUpdate settings.defaultSchema fun c => c.written settings.enumMode item)) := by
  have hrows : ¬ (items.map (keptRow t settings.enumMode)).isEmpty = true := by
    rw [List.isEmpty_iff, List.map_eq_nil_iff]
    exact hi
  have hlines : items.map (fun item =>
      t.keyedUpdate settings.defaultSchema fun c => c.written settings.enumMode item) =
      items.zipIdx.map fun numbered =>
        t.keyedUpdate settings.defaultSchema fun c => c.written settings.enumMode numbered.1 := by
    conv_lhs => rw [← List.zipIdx_map_fst 0 items, List.map_map]
    rfl
  rw [text, ofItems, frame_ofType, ok_bind]
  dsimp only
  rw [if_neg hrows, List.zipIdx_map, List.mapM_map, hlines]
  refine bind_eq_ok.2 ⟨_, mapM_eq_ok.2 (List.forall₂_map_right_iff.2
    (List.forall₂_same.2 fun numbered _ => ?_)), rfl⟩
  rw [← keyedUpdate_eq]
  exact rowText_keptRow (primary?_ofType settings t) rfl hnames ha hk _ _ _

/-- Without items, without a column to assign or without a search key there is no text. -/
theorem text_ofItems_eq_error (hnames : (t.table.columns.map (·.name)).Nodup)
    (h : items = [] ∨ t.table.searchKeys = [] ∨ t.table.assigned = []) :
    ∃ e, (ofItems settings t items).text = .error e := by
  rw [text, ofItems, frame_ofType, ok_bind]
  dsimp only
  cases items with
  | nil => exact ⟨_, rfl⟩
  | cons item items =>
    have hline (head tail : String) :
        ∃ e, rowText (ofItems settings t (item :: items)) head tail 0
          (keptRow t settings.enumMode item) = .error e :=
      rowText_keptRow_eq_error (primary?_ofType settings t) rfl hnames
        (h.resolve_left (List.cons_ne_nil _ _)).symm head tail 0
    obtain ⟨e, he⟩ := hline "UPDATE [t0]"
      (" FROM " ++ (t.table.qualifiedName settings.defaultSchema ++ " [t0]"))
    refine ⟨e, ?_⟩
    rw [if_neg (by simp), List.map_cons, List.zipIdx_cons, List.mapM_cons]
    exact bind_eq_error.2 (.inl (bind_eq_error.2 (.inl he)))

end Text

/-- **An update by key.** A statement for the items of a type gives one line for each of them, in
their order. The line assigns what the item has for the columns that take part in updates and are no
search keys, and its condition is that every search key has the item's own value. Nothing is built
just if there is no item, if the type has no search key or no column to assign, or if some item has
nothing to write in one of these columns. -/
theorem build_addItems (settings : Settings) (t : MappedType) (items : List (Record Field))
    (hnames : (t.table.columns.map (·.name)).Nodup) :
    (∀ text, ((ofType settings t).addItems t items).build = .ok text →
      ∃ lines, text = String.intercalate "\n" lines ∧
        List.Forall₂ (fun item line => ∃ literal : Column → String,
          (∀ c ∈ t.table.columns, c.inclusion.update = true ∨ c.searchKey = true →
            c.Writes settings.enumMode item (literal c)) ∧
          line = t.keyedUpdate settings.defaultSchema literal) items lines) ∧
    ((∃ e, ((ofType settings t).addItems t items).build = .error e) ↔
      items = [] ∨ t.table.searchKeys = [] ∨ t.table.assigned = [] ∨
        ∃ item ∈ items, ∃ c ∈ t.table.columns,
          (c.inclusion.update = true ∨ c.searchKey = true) ∧ c.Lacks settings.enumMode item) := by
  cases hmap : items.mapM (t.row settings.enumMode isKept) with
  | error e =>
    have hbuild : ((ofType settings t).addItems t items).build = .error e :=
      Draft.finish_of_fault (addItems_of_error rfl hmap) _
    obtain ⟨item, hitem, he⟩ := exists_mem_of_mapM_eq_error hmap
    obtain ⟨c, hc, hkept, hlacks⟩ := MappedType.row_eq_error.1 ⟨e, he⟩
    rw [isKept, Bool.or_eq_true] at hkept
    rw [hbuild]
    refine ⟨fun text h => (by cases h), fun _ => ?_, fun _ => ⟨e, rfl⟩⟩
    exact .inr (.inr (.inr ⟨item, hitem, c, hc, hkept, hlacks⟩))
  | ok rows =>
    obtain ⟨rfl, hwrites⟩ := rows_of_items hmap
    have hbuild : ((ofType settings t).addItems t items).build =
        (ofItems settings t items).text := by
      rw [addItems_of_rows hmap]
      rfl
    rw [hbuild]
    by_cases hrefused : items = [] ∨ t.table.searchKeys = [] ∨ t.table.assigned = []
    · obtain ⟨e, he⟩ := text_ofItems_eq_error settings t items hnames hrefused
      rw [he]
      refine ⟨fun text h => (by cases h), fun _ => ?_, fun _ => ⟨e, rfl⟩⟩
      rcases hrefused with h | h | h
      · exact .inl h
      · exact .inr (.inl h)
      · exact .inr (.inr (.inl h))
    · obtain ⟨hi, hrefused⟩ := not_or.1 hrefused
      obtain ⟨hk, ha⟩ := not_or.1 hrefused
      rw [text_ofItems settings t items hnames hi ha hk]
      refine ⟨fun text h => ⟨_, (Except.ok.inj h).symm, ?_⟩, fun ⟨e, h⟩ => (by cases h), ?_⟩
      · exact List.forall₂_map_right_iff.2
          (List.forall₂_same.2 fun item hitem => ⟨_, hwrites item hitem, rfl⟩)
      · rintro (h | h | h | ⟨item, hitem, c, hc, hkept, hlacks⟩)
        · exact absurd h hi
        · exact absurd h hk
        · exact absurd h ha
        · exact absurd hlacks (hwrites item hitem c hc hkept).not_lacks

/-- Two items with a key of two columns. One of these takes no part in updates, and it is null in
the first item. A third item has no count. -/
theorem build_addItems_composite :
    let stock : MappedType := ⟨"Stock", "Stock", none,
      [(Column.plain "Shop" "Shop").asKey, Column.plain "Count" "Count",
        (Column.plain "Part" "Part").asKey.skipUpdate, (Column.plain "Seen" "Seen").skipUpdate]⟩
    let first : Record Field :=
      ⟨"", [("Shop", .value (.int 1)), ("Part", .value .null), ("Count", .value (.int 5))]⟩
    let second : Record Field :=
      ⟨"", [("Count", .value (.int 7)), ("Part", .value (.int 3)), ("Shop", .value (.int 2))]⟩
    let third : Record Field := ⟨"", [("Shop", .value (.int 3)), ("Part", .value (.int 4))]⟩
    let build items := ((ofType .default stock).addItems stock items).build
    (stock.table.columns.map (·.name)).Nodup ∧
    build [first, second] = .ok
      ("UPDATE [t0] SET [Count]=5 FROM [dbo].[Stock] [t0] WHERE ([Shop]=1 AND [Part] IS NULL);\n" ++
        "UPDATE [t0] SET [Count]=7 FROM [dbo].[Stock] [t0] WHERE ([Shop]=2 AND [Part]=3);") ∧
    (∃ lines : List String,
      lines.length = 2 ∧ build [first, second] = .ok ("\n".intercalate lines)) ∧
    ∃ e, build [first, third] = .error e := by
  intro stock first second third build
  have hnames : (stock.table.columns.map (·.name)).Nodup := by decide
  have htext : build [first, second] = .ok
      ("UPDATE [t0] SET [Count]=5 FROM [dbo].[Stock] [t0] WHERE ([Shop]=1 AND [Part] IS NULL);\n" ++
        "UPDATE [t0] SET [Count]=7 FROM [dbo].[Stock] [t0] WHERE ([Shop]=2 AND [Part]=3);") := by
    decide +kernel
  refine ⟨hnames, htext, ?_, ?_⟩
  · obtain ⟨lines, hlines, hforall⟩ := (build_addItems _ stock _ hnames).1 _ htext
    exact ⟨lines, hforall.length_eq.symm, htext.trans (congrArg _ hlines)⟩
  · refine (build_addItems _ stock _ hnames).2.2 (.inr (.inr (.inr ?_)))
    exact ⟨third, by simp, Column.plain "Count" "Count", by simp [stock], .inl rfl, .inl rfl⟩

end Update

end SqlWright
