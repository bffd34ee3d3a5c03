import SqlWright.Proofs.Update.Rows

/-!
# The condition that finds an item

An UPDATE and a DELETE that are given an item find its row by its search keys, but they come to
these in two ways. An UPDATE looks each search key up, by its column, in the row that it holds for
the item; a DELETE reads only those search keys of the item that take part in deletes. If all of
them do and no column is repeated, both have the same condition.
-/

namespace SqlWright

open Outcome

namespace MappedType

variable {t : MappedType} {mode : EnumMode} {item : Record Field}

theorem columnValue_of_writes {c : Column} {literal : String} (h : c.Writes mode item literal) :
    t.columnValue mode item c = .ok (c.valueOf mode item) := by
  obtain ⟨v, hget, hv⟩ := h
  rw [columnValue, hget]
  dsimp only
  rw [hv, Column.valueOf, Column.written_eq hget hv]
  rfl

/-- An item that has something to write in each of the chosen columns has a row of these. -/
theorem row_of_writes {chosen : Column → Bool}
    (h : ∀ c ∈ t.table.columns, chosen c = true → c.Writes mode item (c.written mode item)) :
    t.row mode chosen item =
      .ok ((t.table.columns.filter chosen).map fun c => c.valueOf mode item) := by
  refine mapM_eq_ok.2 (List.forall₂_map_right_iff.2 (List.forall₂_same.2 fun c hc => ?_))
  obtain ⟨hmem, hchosen⟩ := List.mem_filter.1 hc
  exact columnValue_of_writes (h c hmem hchosen)

end MappedType

theorem grouped_keyCondition (keys : List (String × String)) :
    Text.grouped (keyCondition keys) = keyCondition keys := by
  rw [Text.grouped, if_pos]
  simp [keyCondition, Text.parenthesized, Text.opensGroup]

namespace Delete

variable {t : MappedType} {settings : Settings} {item : Record Field}

/-- If all search keys take part in deletes, a delete finds an item by all of them. -/
theorem filter_deleted_keys (hkeys : ∀ c ∈ t.table.searchKeys, c.inclusion.delete = true) :
    t.table.columns.filter (fun c => c.searchKey && c.inclusion.delete) = t.table.searchKeys := by
  refine List.filter_congr fun c hc => ?_
  cases hkey : c.searchKey with
  | false => rfl
  | true => exact hkeys c (List.mem_filter.2 ⟨hc, hkey⟩)

theorem itemCondition_of_writes (hkeys : ∀ c ∈ t.table.searchKeys, c.inclusion.delete = true)
    (hwrites : ∀ c ∈ t.table.searchKeys,
      c.Writes settings.enumMode item (c.written settings.enumMode item)) :
    itemCondition settings t item =
      if t.table.searchKeys = [] then .error (.misuse (.noSearchKey t.name))
      else .ok (keyCondition
        (t.table.searchKeys.map fun c => (c.name, c.written settings.enumMode item))) := by
  have hrow : t.row settings.enumMode (fun c => c.searchKey && c.inclusion.delete) item =
      .ok (t.table.searchKeys.map fun c => c.valueOf settings.enumMode item) := by
    rw [← filter_deleted_keys hkeys]
    refine MappedType.row_of_writes fun c hc hchosen => ?_
    exact hwrites c (List.mem_filter.2 ⟨hc, (Bool.and_eq_true_iff.1 hchosen).1⟩)
  rw [itemCondition, hrow, ok_bind, Row.pairs, List.map_map]
  simp only [List.isEmpty_iff, List.map_eq_nil_iff]
  rfl

/-- A condition that finds an item is added as it is. -/
theorem addItem_of_condition {s : Delete} {condition : String} (op : Connective)
    (h : itemCondition s.draft.settings t item = .ok condition)
    (hgrouped : Text.grouped condition = condition) :
    s.addItem t item op = { s with conditions := s.conditions ++ [(op, condition)] } := by
  rw [addItem, h]
  show ({ s with conditions := s.conditions.addRaw condition op } : Delete) = _
  rw [Conditions.addRaw, hgrouped]

/-- A delete on the table of a type with a single condition. -/
theorem build_single (settings : Settings) (t : MappedType) (op : Connective) (condition : String) :
    build { ofType settings t with conditions := [(op, condition)] } =
      .ok ("DELETE FROM " ++ t.table.qualifiedName settings.defaultSchema ++ " [t0] WHERE " ++
        condition ++ ";") := by
  have halias : Text.bracketed (Registry.aliasAt 0) = "[t0]" := by decide
  show Except.ok ("DELETE " ++ "" ++ "FROM " ++
    (t.table.qualifiedName settings.defaultSchema ++ " " ++ Text.bracketed (Registry.aliasAt 0)) ++
      "" ++ (" WHERE " ++ (condition ++ "")) ++ ";") = _
  have hfront : "DELETE " ++ "" ++ "FROM " = "DELETE FROM " := by decide
  have hwhere : " " ++ ("[t0]" ++ " WHERE ") = " [t0] WHERE " := by decide
  rw [halias, hfront, String.append_empty, String.append_empty]
  simp only [String.append_assoc, ← hwhere]

end Delete

namespace Update

variable {settings : Settings} {t : MappedType} {item : Record Field}

/-- If the statement of an item is built, it finds its row by all search keys, with what the item
has for them. -/
theorem addItem_keyed (hnames : (t.table.columns.map (·.name)).Nodup) {text : String}
    (hbuild : ((ofType settings t).addItem t item).build = .ok text) :
    let condition := keyCondition
      (t.table.searchKeys.map fun c => (c.name, c.written settings.enumMode item))
    t.table.searchKeys ≠ [] ∧
      (∀ c ∈ t.table.searchKeys,
        c.Writes settings.enumMode item (c.written settings.enumMode item)) ∧
      ∃ row, ((ofType settings t).addItem t item).rows = [row] ∧
        ((ofType settings t).addItem t item).conditionText 0 row = .ok condition ∧
        text = lineText "UPDATE [t0]"
          (" FROM " ++ (t.table.qualifiedName settings.defaultSchema ++ " [t0]")) row
          condition := by
  intro condition
  obtain ⟨hfault, head, tail, lines, hframe, htext, hlines⟩ := build_eq_ok hbuild
  obtain ⟨row, hrow, -⟩ := addItem_rows (s := ofType settings t) hfault
  obtain ⟨hwrites, rfl⟩ := MappedType.row_eq_ok hrow
  have hadded : (ofType settings t).addItem t item =
      { ofType settings t with rows := [keptRow t settings.enumMode item] } :=
    addItem_of_row hrow
  rw [hadded] at hframe hlines ⊢
  have hcondition :
      conditionText { ofType settings t with rows := [keptRow t settings.enumMode item] } 0
          (keptRow t settings.enumMode item) =
        if t.table.searchKeys = [] then .error (.misuse .unfilteredUpdate) else .ok condition :=
    conditionText_keptRow (primary?_ofType settings t) rfl hnames 0
  rw [frame_ofType] at hframe
  cases hframe
  cases hlines with
  | cons hline hnone =>
    cases hnone
    obtain ⟨found, hfound, rfl⟩ := hline
    rw [hcondition] at hfound
    split at hfound
    · cases hfound
    · rename_i hkeys
      cases hfound
      refine ⟨hkeys, fun c hc => ?_, _, rfl, by rw [hcondition, if_neg hkeys], ?_⟩
      · obtain ⟨hmem, hkey⟩ := List.mem_filter.1 hc
        exact hwrites c hmem (by rw [isKept, hkey, Bool.or_true])
      · rw [htext, String.intercalate_singleton]

end Update

/-- **The condition that finds an item.** If all search keys of a type take part in deletes and no
column is repeated, then whenever the UPDATE of an item is built without a condition of its own, the
text of the condition that it makes up is what a DELETE adds for the item, with any connective and
after any other conditions. The DELETE of the item alone is then built with that condition. -/
theorem Delete.addItem_pins (settings : Settings) (t : MappedType) (item : Record Field)
    (hnames : (t.table.columns.map (·.name)).Nodup)
    (hkeys : ∀ c ∈ t.table.searchKeys, c.inclusion.delete = true) {text : String}
    (hbuild : ((Update.ofType settings t).addItem t item).build = .ok text) :
    ∃ row condition,
      ((Update.ofType settings t).addItem t item).rows = [row] ∧
      ((Update.ofType settings t).addItem t item).conditionText 0 row = .ok condition ∧
      text = Update.lineText "UPDATE [t0]"
        (" FROM " ++ (t.table.qualifiedName settings.defaultSchema ++ " [t0]")) row condition ∧
      (∀ (s : Delete) (op : Connective), s.draft.settings = settings →
        s.addItem t item op = { s with conditions := s.conditions ++ [(op, condition)] }) ∧
      ∀ op : Connective, ((Delete.ofType settings t).addItem t item op).build =
        .ok ("DELETE FROM " ++ t.table.qualifiedName settings.defaultSchema ++ " [t0] WHERE " ++
          condition ++ ";") := by
  obtain ⟨hne, hwrites, row, hrows, hcondition, htext⟩ := Update.addItem_keyed hnames hbuild
  have hadds (s : Delete) (op : Connective) (hs : s.draft.settings = settings) :
      s.addItem t item op = { s with conditions := s.conditions ++ [(op, keyCondition
        (t.table.searchKeys.map fun c => (c.name, c.written settings.enumMode item)))] } := by
    refine Delete.addItem_of_condition op ?_ (grouped_keyCondition _)
    rw [hs, Delete.itemCondition_of_writes hkeys hwrites, if_neg hne]
  refine ⟨row, _, hrows, hcondition, htext, hadds, fun op => ?_⟩
  rw [hadds (Delete.ofType settings t) op rfl]
  exact Delete.build_single settings t op _

/-- Two search keys, of which one is null and takes no part in updates. -/
theorem Delete.addItem_pins_stock :
    let stock : MappedType := ⟨"Stock", "Stock", none,
      [(Column.plain "Shop" "Shop").asKey, Column.plain "Count" "Count",
        (Column.plain "Part" "Part").asKey.skipUpdate]⟩
    let item : Record Field :=
      ⟨"", [("Shop", .value (.string "O'Hara")), ("Part", .value .null),
        ("Count", .value (.int 5))]⟩
    ((Update.ofType .default stock).addItem stock item).build = .ok
      ("UPDATE [t0] SET [Count]=5 FROM [dbo].[Stock] [t0] " ++
        "WHERE ([Shop]='O''Hara' AND [Part] IS NULL);") ∧
    ∀ op : Connective, ((Delete.ofType .default stock).addItem stock item op).build = .ok
      "DELETE FROM [dbo].[Stock] [t0] WHERE ([Shop]='O''Hara' AND [Part] IS NULL);" := by
  intro stock item
  have hbuild : ((Update.ofType .default stock).addItem stock item).build = .ok
      ("UPDATE [t0] SET [Count]=5 FROM [dbo].[Stock] [t0] " ++
        "WHERE ([Shop]='O''Hara' AND [Part] IS NULL);") := by
    decide +kernel
  have hheld : ((Delete.ofType .default stock).addItem stock item .and).conditions =
      [(.and, "([Shop]='O''Hara' AND [Part] IS NULL)")] := by decide +kernel
  obtain ⟨row, condition, -, -, -, hadds, hdelete⟩ :=
    Delete.addItem_pins .default stock item (by decide) (by decide) hbuild
  rw [hadds _ _ rfl] at hheld
  obtain rfl : condition = _ := (Prod.mk.inj (List.cons.inj hheld).1).2
  refine ⟨hbuild, fun op => ?_⟩
  have hname : stock.table.qualifiedName Settings.default.defaultSchema = "[dbo].[Stock]" := by
    decide
  rw [hdelete op, hname]
  rfl

end SqlWright
