import SqlWright.Proofs.Trace.Calls
import SqlWright.Proofs.Update.Keyed

/-!
# Rows of an update, call by call

What a call does to the rows of an UPDATE statement: it begins a row, it sets a column in the last
row, or it leaves the rows as they are. A value is taken for that of a search key, and so kept out
of the assignments, by what is known when the call is made: the columns of an item's own type, or
else the primary table so far.
-/

namespace SqlWright

open Outcome

/-! ## The assignments of a row -/

namespace Row

/-- The columns that a row assigns, with their literals: all but those taken for search keys. -/
def assigned (row : Row) : List (String × String) :=
  pairs (row.filter fun v => !v.searchKey)

/-- Whether a row assigns a column. -/
def Assigns (row : Row) (column : String) : Prop :=
  column ∈ row.assigned.map (·.1)

variable {row : Row} {column : String}

theorem assigns_iff : row.Assigns column ↔ ∃ v ∈ row, v.column = column ∧ v.searchKey = false := by
  simp only [Assigns, assigned, pairs, List.map_map, List.mem_map, List.mem_filter,
    Function.comp_apply, Bool.not_eq_true', and_assoc, and_comm (a := _ = false)]

theorem assigns_singleton {v : ColumnValue} :
    Assigns [v] column ↔ v.column = column ∧ v.searchKey = false := by
  rw [assigns_iff]
  exact ⟨fun ⟨w, hw, h⟩ => List.mem_singleton.1 hw ▸ h, fun h => ⟨v, List.mem_cons_self, h⟩⟩

theorem assigns_append {row' : Row} :
    Assigns (row ++ row') column ↔ row.Assigns column ∨ row'.Assigns column := by
  simp only [assigns_iff, List.mem_append, or_and_right, exists_or]

/-- A row that is set in a column has just the new value there. -/
theorem assigns_set {v : ColumnValue} : (row.set v).Assigns column ↔
    (v.column = column ∧ v.searchKey = false) ∨ (v.column ≠ column ∧ row.Assigns column) := by
  have hrest : Assigns (row.filter fun w => w.column != v.column) column ↔
      v.column ≠ column ∧ row.Assigns column := by
    simp only [assigns_iff, List.mem_filter, bne_iff_ne]
    constructor
    · rintro ⟨w, ⟨hw, hne⟩, rfl, hkey⟩
      exact ⟨hne.symm, w, hw, rfl, hkey⟩
    · rintro ⟨hne, w, hw, rfl, hkey⟩
      exact ⟨w, ⟨hw, hne.symm⟩, rfl, hkey⟩
  rw [set, assigns_append, hrest, assigns_singleton, or_comm]

end Row

/-- Whether the primary table so far has the first column of a name as a search key. -/
def Draft.isKey (d : Draft) (name : String) : Bool :=
  (d.registry.primary?.bind fun p => p.type.table.ofName? name).any (·.searchKey)

theorem Draft.columnValue_eq_ok {d : Draft} {name : String} {value : Value} {v : ColumnValue}
    (h : d.columnValue name value = .ok v) : v.column = name ∧ v.searchKey = d.isKey name := by
  unfold columnValue at h
  unfold isKey
  split at h
  · next c hc =>
    obtain ⟨text, -, rfl⟩ := map_eq_ok.1 h
    rw [hc]
    exact ⟨rfl, rfl⟩
  · next hc =>
    cases h
    rw [hc]
    exact ⟨rfl, rfl⟩

/-- A row of values assigns the columns that it names, but for search keys of the primary table. -/
theorem Draft.assigns_values {d : Draft} {values : List (String × Value)} {row : Row}
    (h : (values.mapM fun (name, v) => d.columnValue name v) = .ok row) {column : String} :
    row.Assigns column ↔ column ∈ values.map (·.1) ∧ d.isKey column = false := by
  rw [mapM_eq_ok] at h
  induction h with
  | nil => simp [Row.assigns_iff]
  | @cons value v values row hv _ ih =>
    obtain ⟨hcolumn, hkey⟩ := columnValue_eq_ok hv
    have hfirst : Row.Assigns [v] column ↔ value.1 = column ∧ d.isKey column = false := by
      rw [Row.assigns_singleton, hcolumn, hkey]
      exact and_congr_right fun h => by rw [h]
    show Row.Assigns ([v] ++ row) column ↔ _
    rw [Row.assigns_append, hfirst, ih, List.map_cons, List.mem_cons, or_and_right, eq_comm]

/-- A row of an item assigns the columns of its type that take part in updates and are no search
keys. -/
theorem MappedType.assigns_row {t : MappedType} {mode : EnumMode} {item : Record Field} {row : Row}
    (h : t.row mode Update.isKept item = .ok row) {column : String} :
    row.Assigns column ↔ ∃ c ∈ t.table.columns, c.name = column ∧ c.inclusion.update = true ∧
      c.searchKey = false := by
  obtain ⟨-, rfl⟩ := row_eq_ok h
  simp only [Row.assigns_iff, List.mem_map, List.mem_filter]
  constructor
  · rintro ⟨_, ⟨c, ⟨hc, hkept⟩, rfl⟩, hname, hkey⟩
    have hdata : c.searchKey = false := hkey
    rw [Update.isKept, hdata, Bool.or_false] at hkept
    exact ⟨c, hc, hname, hkept, hdata⟩
  · rintro ⟨c, hc, hname, hupdate, hkey⟩
    exact ⟨_, ⟨c, ⟨hc, by rw [Update.isKept, hupdate, Bool.true_or]⟩, rfl⟩, hname, hkey⟩

namespace Update

/-! ## What a call does to the rows

Calls on several items are looked at as one call for each of them. -/

/-- Whether a call begins a row of its own. -/
def Step.beginsRow : Step → Bool
  | .addItem _ _ | .addValues _ => true
  | .target _ | .limit _ | .addHints _ | .addItems _ _ | .setValue _ _ | .addCondition _ _ _
  | .addConditionRaw _ _ => false

/-- The column that a call sets in the last row, and its new value. -/
def Step.set? : Step → Option (String × Value)
  | .setValue column value => some (column, value)
  | .target _ | .limit _ | .addHints _ | .addItem _ _ | .addItems _ _ | .addValues _
  | .addCondition _ _ _ | .addConditionRaw _ _ => none

/-- The columns that are set in the last row, with their new values, before another row begins. -/
def ownSets (calls : List Step) : List (String × Value) :=
  (calls.takeWhile fun call => !call.beginsRow).filterMap Step.set?

/-- Whether a call gives a column a value that is not taken for that of a search key. -/
def Step.Assigns (d : Draft) (column : String) : Step → Prop
  | .addItem t _ => ∃ c ∈ t.table.columns, c.name = column ∧ c.inclusion.update = true ∧
      c.searchKey = false
  | .addValues values => column ∈ values.map (·.1) ∧ d.isKey column = false
  | .setValue name _ => name = column ∧ d.isKey column = false
  | .target _ | .limit _ | .addHints _ | .addItems _ _ | .addCondition _ _ _
  | .addConditionRaw _ _ => False

variable {s : Update} {call : Step} {calls : List Step} {column : String}

theorem single_singles (calls : List Step) :
    ∀ call ∈ calls.flatMap Step.single, call.single = [call] := by
  intro call hcall
  obtain ⟨c, -, hc⟩ := List.mem_flatMap.1 hcall
  exact single_of_mem_single hc

theorem fault_of_run (h : (s.run calls).draft.fault = none) : s.draft.fault = none := by
  rw [run_fault, Option.or_eq_none_iff] at h
  exact h.1

theorem failure?_of_step (h : (s.step call).draft.fault = none) : s.failure? call = none := by
  rw [step_fault, Option.or_eq_none_iff] at h
  exact h.2

theorem addItem_rows {t : MappedType} {item : Record Field}
    (hf : (s.step (.addItem t item)).draft.fault = none) :
    ∃ row, t.row s.draft.settings.enumMode isKept item = .ok row ∧
      (s.step (.addItem t item)).rows = s.rows ++ [row] := by
  obtain ⟨row, hrow⟩ := eq_ok_of_error?_eq_none
    (show error? (t.row s.draft.settings.enumMode isKept item) = none from failure?_of_step hf)
  refine ⟨row, hrow, ?_⟩
  rw [step, addItem_of_row hrow]

theorem addValues_rows {values : List (String × Value)}
    (hf : (s.step (.addValues values)).draft.fault = none) :
    ∃ row, (values.mapM fun (name, v) => s.draft.columnValue name v) = .ok row ∧
      (s.step (.addValues values)).rows = s.rows ++ [row] := by
  obtain ⟨row, hrow⟩ := eq_ok_of_error?_eq_none (failure?_of_step hf)
  refine ⟨row, hrow, ?_⟩
  rw [step, addValues, hrow]
  rfl

theorem setValue_rows {value : Value}
    (hf : (s.step (.setValue column value)).draft.fault = none) :
    ∃ v, s.draft.columnValue column value = .ok v ∧
      (s.step (.setValue column value)).rows = setLast v s.rows := by
  obtain ⟨v, hv⟩ := eq_ok_of_error?_eq_none (failure?_of_step hf)
  refine ⟨v, hv, ?_⟩
  rw [step, setValue, hv]
  rfl

/-- **One call on the rows.** A call without an error begins a row, sets a column in the last one,
or leaves the rows alone. -/
theorem step_rows (hsingle : call.single = [call]) (hf : (s.step call).draft.fault = none) :
    (call.beginsRow = true ∧ call.set? = none ∧ ∃ row, (s.step call).rows = s.rows ++ [row] ∧
      ∀ column, row.Assigns column ↔ call.Assigns s.draft column) ∨
    (call.beginsRow = false ∧ ∃ column value v, call = .setValue column value ∧
      s.draft.columnValue column value = .ok v ∧ (s.step call).rows = setLast v s.rows) ∨
    (call.beginsRow = false ∧ call.set? = none ∧
      (∀ column, ¬ call.Assigns s.draft column) ∧ (s.step call).rows = s.rows) := by
  cases call with
  | addItem t item =>
    obtain ⟨row, hrow, hrows⟩ := addItem_rows hf
    exact .inl ⟨rfl, rfl, row, hrows, fun column => MappedType.assigns_row hrow⟩
  | addValues values =>
    obtain ⟨row, hrow, hrows⟩ := addValues_rows hf
    exact .inl ⟨rfl, rfl, row, hrows, fun column => Draft.assigns_values hrow⟩
  | setValue column value =>
    obtain ⟨v, hv, hrows⟩ := setValue_rows hf
    exact .inr (.inl ⟨rfl, column, value, v, rfl, hv, hrows⟩)
  | addItems t items => rcases items with _ | ⟨item, items⟩ <;> cases hsingle
  | target _ | limit _ | addHints _ | addCondition _ _ _ | addConditionRaw _ _ =>
    exact .inr (.inr ⟨rfl, rfl, fun _ h => h, rfl⟩)

theorem setLast_concat (v : ColumnValue) (earlier : List Row) (row : Row) :
    setLast v (earlier ++ [row]) = earlier ++ [row.set v] := by
  induction earlier with
  | nil => rfl
  | cons first earlier ih =>
    have hcons : setLast v (first :: (earlier ++ [row])) =
        first :: setLast v (earlier ++ [row]) := by
      cases earlier <;> rfl
    rw [List.cons_append, hcons, ih]
    rfl

/-- Setting a column leaves the rows before the last as they are. -/
theorem setLast_dropLast (v : ColumnValue) (rows : List Row) :
    (setLast v rows).dropLast = rows.dropLast := by
  rcases rows.eq_nil_or_concat' with rfl | ⟨earlier, row, rfl⟩
  · rfl
  · rw [setLast_concat, List.dropLast_concat, List.dropLast_concat]

theorem ownSets_of_begins (h : call.beginsRow = true) : ownSets (call :: calls) = [] := by
  rw [ownSets, List.takeWhile_cons, h]
  rfl

theorem ownSets_of_not_begins (h : call.beginsRow = false) :
    ownSets (call :: calls) = call.set?.toList ++ ownSets calls := by
  rw [ownSets, List.takeWhile_cons, h, Bool.not_false, if_pos rfl, List.filterMap_cons]
  cases call.set? <;> rfl

/-! ## The finished statements -/

/-- The statement for a row, with these texts before and after the assignments. -/
def lineText (head tail : String) (row : Row) (condition : String) : String :=
  head ++ " SET " ++
    String.intercalate "," (row.assigned.map fun a => Text.bracketed a.1 ++ "=" ++ a.2) ++
    tail ++ " WHERE " ++ condition ++ ";"

theorem rowText_eq_ok {head tail : String} {index : Nat} {row : Row} {text : String}
    (h : s.rowText head tail index row = .ok text) :
    ∃ condition, s.conditionText index row = .ok condition ∧
      text = lineText head tail row condition := by
  rw [rowText] at h
  split at h
  · cases h
  · obtain ⟨condition, hc, rfl⟩ := map_eq_ok.1 h
    refine ⟨condition, hc, ?_⟩
    rw [lineText, Row.assigned, Row.pairs, List.map_map]
    rfl

/-- A finished text has one line for each row, with the assignments of the row and its condition. -/
theorem build_eq_ok {text : String} (h : s.build = .ok text) :
    s.draft.fault = none ∧ ∃ head tail lines, s.frame = .ok (head, tail) ∧
      text = String.intercalate "\n" lines ∧
      List.Forall₂ (fun (numbered : Row × Nat) line =>
        ∃ condition, s.conditionText numbered.2 numbered.1 = .ok condition ∧
          line = lineText head tail numbered.1 condition) s.rows.zipIdx lines := by
  obtain ⟨hfault, ht⟩ := Draft.finish_eq_ok h
  obtain ⟨⟨head, tail⟩, hframe, ht⟩ := bind_eq_ok.1 ht
  dsimp only at ht
  split at ht
  · cases ht
  · obtain ⟨lines, hlines, ht⟩ := bind_eq_ok.1 ht
    cases ht
    refine ⟨hfault, head, tail, lines, hframe, rfl, ?_⟩
    exact (mapM_eq_ok.1 hlines).imp fun _ _ hline => rowText_eq_ok hline

/-- Each row has its line. -/
theorem build_line {text : String} (h : s.build = .ok text) :
    s.draft.fault = none ∧ ∃ head tail lines, s.frame = .ok (head, tail) ∧
      text = String.intercalate "\n" lines ∧
      ∀ index row, s.rows[index]? = some row → ∃ condition,
        s.conditionText index row = .ok condition ∧
          lines[index]? = some (lineText head tail row condition) := by
  obtain ⟨hfault, head, tail, lines, hframe, htext, hlines⟩ := build_eq_ok h
  refine ⟨hfault, head, tail, lines, hframe, htext, fun index row hrow => ?_⟩
  obtain ⟨hindex, hrow⟩ := List.getElem?_eq_some_iff.1 hrow
  have hnumbered : index < s.rows.zipIdx.length := by rwa [List.length_zipIdx]
  have hline : index < lines.length := hlines.length_eq ▸ hnumbered
  have hget : s.rows.zipIdx.get ⟨index, hnumbered⟩ = (row, index) := by
    rw [List.get_eq_getElem, List.getElem_zipIdx, hrow, Nat.zero_add]
  obtain ⟨condition, hcondition, hlineText⟩ := hlines.get hnumbered hline
  rw [hget] at hcondition hlineText
  exact ⟨condition, hcondition, List.getElem?_eq_some_iff.2 ⟨hline, hlineText⟩⟩

/-- Without conditions of its own a statement finds a row by keys. -/
theorem keys_of_conditionText (hc : s.conditions = []) {index : Nat} {row : Row}
    {condition : String} (h : s.conditionText index row = .ok condition) :
    ∃ found, s.keys index row = .ok found ∧ condition = keyCondition found := by
  rw [conditionText, hc, List.isEmpty_nil, if_pos rfl] at h
  obtain ⟨found, hkeys, h⟩ := bind_eq_ok.1 h
  split at h
  · cases h
  · cases h
    exact ⟨found, hkeys, rfl⟩

end Update

end SqlWright
