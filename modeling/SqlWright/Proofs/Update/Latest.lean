import Mathlib.Data.List.Dedup
import Mathlib.Data.List.Perm.Basic
import SqlWright.Row

/-!
# Values set in a row

A value that is set in a row takes the place of all values for its column, however many there are,
and stands last. So of values that are set one after the other the row keeps those that are not set
again, in their order, behind what it had for other columns.
-/

namespace SqlWright

namespace Row

/-- Of the values that are set one after the other, those whose column is not set again. -/
def latest : Row → Row
  | [] => []
  | v :: values => if v.column ∈ values.map (·.column) then latest values else v :: latest values

variable {row values : Row} {column : String}

theorem columns_latest (values : Row) :
    (latest values).map (·.column) = (values.map (·.column)).dedup := by
  induction values with
  | nil => rfl
  | cons v values ih =>
    rw [latest, List.map_cons]
    split
    · next hv => rw [List.dedup_cons_of_mem hv, ih]
    · next hv => rw [List.dedup_cons_of_notMem hv, List.map_cons, ih]

theorem latest_sublist (values : Row) : (latest values).Sublist values := by
  induction values with
  | nil => exact List.Sublist.refl []
  | cons v values ih =>
    rw [latest]
    split
    · exact ih.cons v
    · exact ih.cons_cons v

theorem filter_column_eq_nil {row : Row} {column : String} :
    row.filter (·.column == column) = [] ↔ column ∉ row.map (·.column) := by
  simp [List.filter_eq_nil_iff]

/-- Only the last of the values for a column is left. -/
theorem filter_latest (values : Row) (column : String) :
    (latest values).filter (·.column == column) =
      (values.filter (·.column == column)).getLast?.toList := by
  induction values with
  | nil => rfl
  | cons v values ih =>
    rw [latest, List.filter_cons]
    by_cases hv : v.column ∈ values.map (·.column)
    · rw [if_pos hv, ih]
      split
      · next hcolumn =>
        obtain rfl : v.column = column := by simpa using hcolumn
        obtain ⟨first, rest, hlist⟩ :=
          List.exists_cons_of_ne_nil fun h => filter_column_eq_nil.1 h hv
        rw [hlist, List.getLast?_cons_cons]
      · rfl
    · rw [if_neg hv, List.filter_cons, ih]
      split
      · next hcolumn =>
        obtain rfl : v.column = column := by simpa using hcolumn
        rw [filter_column_eq_nil.2 hv]
        rfl
      · rfl

theorem latest_eq_self {values : Row} (h : (values.map (·.column)).Nodup) :
    latest values = values := by
  induction values with
  | nil => rfl
  | cons v values ih =>
    rw [List.map_cons, List.nodup_cons] at h
    rw [latest, if_neg h.1, ih h.2]

/-- **A row in which columns are set one after the other.** -/
theorem foldl_set (row values : Row) : values.foldl set row =
    row.filter (fun w => !(values.map (·.column)).contains w.column) ++ latest values := by
  induction values generalizing row with
  | nil => simp [latest]
  | cons v values ih =>
    have hrow : (row.filter (fun w => w.column != v.column)).filter
          (fun w => !(values.map (·.column)).contains w.column) =
        row.filter fun w => !((v :: values).map (·.column)).contains w.column := by
      rw [List.filter_filter]
      refine List.filter_congr fun w _ => ?_
      rw [List.map_cons, List.contains_cons, Bool.not_or, Bool.and_comm]
      rfl
    rw [List.foldl_cons, ih, set, List.filter_append, hrow, List.append_assoc, latest]
    by_cases hv : v.column ∈ values.map (·.column)
    · rw [if_pos hv, List.filter_cons_of_neg (by simpa using hv)]
      rfl
    · rw [if_neg hv, List.filter_cons_of_pos (by simpa using hv)]
      rfl

/-- A value is lost on a row in which its column is set again. -/
theorem foldl_set_again {v : ColumnValue} (hv : v.column ∈ values.map (·.column)) (row : Row) :
    (v :: values).foldl set row = values.foldl set row := by
  rw [foldl_set, foldl_set, latest, if_pos hv]
  refine congrArg (· ++ latest values) (List.filter_congr fun w _ => ?_)
  rw [List.map_cons, List.contains_cons]
  by_cases hw : w.column = v.column
  · rw [hw, List.contains_iff_mem.2 hv, Bool.or_true]
  · rw [beq_eq_false_iff_ne.2 hw, Bool.false_or]

/-- A column that is set has its last value only, any other column the values that it had. -/
theorem filter_column_foldl_set (row values : Row) (column : String) :
    (values.foldl set row).filter (·.column == column) =
      if column ∈ values.map (·.column) then (values.filter (·.column == column)).getLast?.toList
      else row.filter (·.column == column) := by
  have hpred (w : ColumnValue) : ((w.column == column) &&
        !(values.map (·.column)).contains w.column) =
      ((w.column == column) && !(values.map (·.column)).contains column) := by
    rw [Bool.eq_iff_iff, Bool.and_eq_true, Bool.and_eq_true]
    exact and_congr_right fun h => by rw [beq_iff_eq.1 h]
  rw [foldl_set, List.filter_append, List.filter_filter, List.filter_congr fun w _ => hpred w,
    filter_latest]
  split
  · next hcolumn =>
    rw [List.contains_iff_mem.2 hcolumn]
    simp only [Bool.not_true, Bool.and_false, List.filter_false, List.nil_append]
  · next hcolumn =>
    rw [filter_column_eq_nil.2 hcolumn, Bool.eq_false_iff.2 (mt List.contains_iff_mem.1 hcolumn)]
    simp only [Bool.not_false, Bool.and_true, List.getLast?_nil, Option.toList_none,
      List.append_nil]

theorem literal?_eq (row : Row) (column : String) :
    row.literal? column = (row.filter (·.column == column)).head?.map (·.literal) := by
  rw [literal?, List.head?_filter]

variable {values' : Row}

/-- The order in which different columns are set changes only the order of the new values. -/
theorem foldl_set_perm (h : values'.Perm values) (hdistinct : (values.map (·.column)).Nodup)
    (row : Row) : (values'.foldl set row).Perm (values.foldl set row) := by
  have hcolumns := h.map (·.column)
  rw [foldl_set, foldl_set, latest_eq_self hdistinct,
    latest_eq_self (hcolumns.nodup_iff.2 hdistinct)]
  have hsame : (fun w : ColumnValue => !(values'.map (·.column)).contains w.column) =
      fun w => !(values.map (·.column)).contains w.column :=
    funext fun w => by rw [hcolumns.contains_eq]
  rw [hsame]
  exact h.append_left _

/-- In whatever order different columns are set, each column has the same values. -/
theorem filter_column_foldl_set_perm (h : values'.Perm values)
    (hdistinct : (values.map (·.column)).Nodup) (row : Row) (column : String) :
    (values'.foldl set row).filter (·.column == column) =
      (values.foldl set row).filter (·.column == column) := by
  have hcolumn : column ∈ values'.map (·.column) ↔ column ∈ values.map (·.column) :=
    (h.map (·.column)).mem_iff
  have hone : values.filter (·.column == column) =
      (values.filter (·.column == column)).getLast?.toList := by
    rw [← filter_latest, latest_eq_self hdistinct]
  have hsame : values'.filter (·.column == column) = values.filter (·.column == column) := by
    have hfilter := h.filter (·.column == column)
    generalize (values.filter (·.column == column)).getLast? = v at hone
    rw [hone] at hfilter ⊢
    cases v with
    | none => exact hfilter.eq_nil
    | some v => exact hfilter.eq_singleton
  rw [filter_column_foldl_set, filter_column_foldl_set, hsame, if_congr hcolumn rfl rfl]

end Row

end SqlWright
