import SqlWright.Proofs.Closed.Chain
import SqlWright.Proofs.Filter.Requests

/-!
# No rows are changed without a condition

Every statement of an UPDATE has a condition: the conditions that its chain of calls asked for, or
else the search keys of its row. A DELETE has all conditions that its chain asked for, and at least
one unless the chain allowed that there is none. A call that cannot give its condition keeps the
statement from being built, so none is lost on the way.
-/

namespace SqlWright

open Outcome Text

/-- No requested condition is empty, save those that were passed as the empty text. -/
theorem Update.request?_ne_empty {s : Update} {call : Update.Step} {op : Connective}
    (h : s.request? call = some (op, .ok "")) : call = .addConditionRaw "" op := by
  cases call with
  | addCondition t condition op =>
    obtain ⟨rfl, hcompiled⟩ := Prod.mk.inj (Option.some.inj h)
    exact absurd rfl (Conditions.compiled_eq_ok hcompiled).2
  | addConditionRaw text op =>
    cases h
    rfl
  | target _ | limit _ | addHints _ | addItem _ _ | addItems _ _ | addValues _ | setValue _ _ =>
    cases h

theorem keyCondition_ne_empty (keys : List (String × String)) : keyCondition keys ≠ "" :=
  parenthesized_ne_empty _

/-- No requested condition is empty, save those that were passed as the empty text. -/
theorem Delete.request?_ne_empty {s : Delete} {call : Delete.Step} {op : Connective}
    (h : s.request? call = some (op, .ok "")) : call = .addConditionRaw "" op := by
  cases call with
  | addCondition t condition op =>
    obtain ⟨rfl, hcompiled⟩ := Prod.mk.inj (Option.some.inj h)
    exact absurd rfl (Conditions.compiled_eq_ok hcompiled).2
  | addConditionRaw text op =>
    cases h
    rfl
  | addItem t item op =>
    obtain ⟨rfl, hitem⟩ := Prod.mk.inj (Option.some.inj h)
    obtain ⟨row, -, hrow⟩ := bind_eq_ok.1 hitem
    split at hrow
    · cases hrow
    · exact absurd (Except.ok.inj hrow) (keyCondition_ne_empty _)
  | target _ | limit _ | addHints _ | allowAll => cases h

/-! ## UPDATE -/

theorem Conditions.text_held_ne_empty {asked : Conditions} (h : asked ≠ []) :
    asked.held.text ≠ "" := by
  intro hempty
  have hopens := opensGroup_text h
  rw [hempty] at hopens
  cases hopens

theorem Conditions.held_isEmpty (asked : Conditions) : asked.held.isEmpty = asked.isEmpty :=
  List.isEmpty_map

namespace Update

/-- The statement for a row when these conditions were asked for: it assigns the values of the row,
and its condition has all that was asked for, or the keys of the row if that was nothing. -/
def IsFiltered (s : Update) (asked : Conditions) (row : Row) (line : String) : Prop :=
  ∃ head tail condition, s.frame = .ok (head, tail) ∧ condition ≠ "" ∧
    (asked ≠ [] ∧ condition = asked.held.text ∨
      asked = [] ∧ ∃ index keys, keys ≠ [] ∧ s.keys index row = .ok keys ∧
        condition = keyCondition keys) ∧
    line = head ++ " SET " ++ String.intercalate "," (assignments row) ++ tail ++ " WHERE " ++
      condition ++ ";"

variable {s : Update} {asked : Conditions}

theorem conditionText_eq_ok (hs : s.conditions = asked.held) {index : Nat} {row : Row}
    {condition : String} (h : s.conditionText index row = .ok condition) :
    condition ≠ "" ∧ (asked ≠ [] ∧ condition = asked.held.text ∨
      asked = [] ∧ ∃ index keys, keys ≠ [] ∧ s.keys index row = .ok keys ∧
        condition = keyCondition keys) := by
  rw [conditionText, hs, Conditions.held_isEmpty] at h
  split at h
  · next hnone =>
    rw [List.isEmpty_iff] at hnone
    obtain ⟨keys, hkeys, h⟩ := bind_eq_ok.1 h
    split at h
    · cases h
    · next hne =>
      cases h
      rw [List.isEmpty_iff] at hne
      exact ⟨keyCondition_ne_empty keys, .inr ⟨hnone, index, keys, hne, hkeys, rfl⟩⟩
  · next hsome =>
    cases h
    rw [List.isEmpty_iff] at hsome
    exact ⟨Conditions.text_held_ne_empty hsome, .inl ⟨hsome, rfl⟩⟩

/-- Each statement of a finished text has its condition. -/
theorem text_filtered (hs : s.conditions = asked.held) {text : String} (h : s.text = .ok text) :
    ∃ lines, lines ≠ [] ∧ text = String.intercalate "\n" lines ∧
      List.Forall₂ (s.IsFiltered asked) s.rows lines := by
  obtain ⟨⟨head, tail⟩, hframe, h⟩ := bind_eq_ok.1 h
  dsimp only at h
  split at h
  · cases h
  · next hne =>
    obtain ⟨lines, hlines, h⟩ := bind_eq_ok.1 h
    cases h
    rw [mapM_eq_ok] at hlines
    have hrows : List.Forall₂ (s.IsFiltered asked) (s.rows.zipIdx.map Prod.fst) lines := by
      refine List.forall₂_map_left_iff.2 (hlines.imp fun numbered line hline => ?_)
      dsimp only [rowText] at hline
      split at hline
      · cases hline
      · obtain ⟨condition, hcondition, rfl⟩ := map_eq_ok.1 hline
        obtain ⟨hnonempty, hkind⟩ := conditionText_eq_ok hs hcondition
        exact ⟨head, tail, condition, hframe, hnonempty, hkind, rfl⟩
    rw [List.zipIdx_map_fst] at hrows
    refine ⟨lines, ?_, rfl, hrows⟩
    rintro rfl
    rw [List.forall₂_nil_right_iff.1 hrows] at hne
    exact hne rfl

end Update

/-! ## DELETE -/

namespace Delete

/-- The statement when these conditions were asked for: all of them are its condition. -/
def IsFiltered (s : Delete) (asked : Conditions) (text : String) : Prop :=
  ∃ target, s.targetText = .ok target ∧ asked ≠ [] ∧ asked.held.text ≠ "" ∧
    text = "DELETE " ++ s.top.elim "" Top.groupedText ++ "FROM " ++ target ++ s.hints.suffixed ++
      " WHERE " ++ asked.held.text ++ ";"

theorem text_filtered {s : Delete} {asked : Conditions} (hs : s.conditions = asked.held)
    (hall : s.allowsAll = false) {text : String} (h : s.text = .ok text) :
    s.IsFiltered asked text := by
  obtain ⟨target, htarget, h⟩ := bind_eq_ok.1 h
  rw [hall, Bool.not_false, Bool.and_true, hs, Conditions.held_isEmpty] at h
  split at h
  · cases h
  · next hne =>
    cases h
    rw [List.isEmpty_iff] at hne
    refine ⟨target, htarget, hne, Conditions.text_held_ne_empty hne, ?_⟩
    cases s.top <;> simp only [Option.elim, String.append_assoc]

/-- Only a call that allows it lets a statement do without conditions. -/
theorem run_allowsAll {s : Delete} {calls : List Step} (hs : s.allowsAll = false)
    (h : .allowAll ∉ calls) : (s.run calls).allowsAll = false := by
  induction calls generalizing s with
  | nil => exact hs
  | cons call calls ih =>
    rw [List.mem_cons, not_or] at h
    refine ih (s := s.step call) ?_ h.2
    cases call with
    | allowAll => exact absurd rfl h.1
    | target _ | limit _ | addHints _ | addCondition _ _ _ | addConditionRaw _ _ | addItem _ _ _ =>
      exact hs

end Delete

/-! ## Chains of calls -/

namespace Chain

/-- **No rows are changed without a condition.** Every statement of an UPDATE has a condition that
is not empty, and a DELETE has one unless the chain allowed that there is none. The condition has
all that the calls of the chain asked for, in their order and by their connectives. Without such a
call the statements of an UPDATE find their rows by keys. Only a call that passes the empty text
asks for an empty condition, which then stands as a pair of parentheses. -/
theorem build_filtered (settings : Settings) (table : Option TableName) (text : String) :
    (∀ calls, (Chain.update table calls).build settings = .ok text →
      ∃ asked : Conditions,
        (updated settings table []).requests calls = asked.asRequests ∧
        (∀ op, (op, "") ∈ asked → .addConditionRaw "" op ∈ calls) ∧
        ∃ lines, lines ≠ [] ∧ text = String.intercalate "\n" lines ∧
          List.Forall₂ ((updated settings table calls).IsFiltered asked)
            (updated settings table calls).rows lines) ∧
    ∀ calls, .allowAll ∉ calls → (Chain.delete table calls).build settings = .ok text →
      ∃ asked : Conditions,
        (deleted settings table []).requests calls = asked.asRequests ∧
        (∀ op, (op, "") ∈ asked → .addConditionRaw "" op ∈ calls) ∧
        (deleted settings table calls).IsFiltered asked text := by
  constructor
  · intro calls h
    obtain ⟨hfault, htext⟩ := Draft.finish_eq_ok h
    obtain ⟨asked, hasked, hheld⟩ := Update.run_conditions (s := updated settings table []) hfault
    have hnone : (updated settings table []).conditions = [] := by cases table <;> rfl
    rw [hnone, List.nil_append] at hheld
    refine ⟨asked, hasked, fun op hop => ?_, Update.text_filtered hheld htext⟩
    obtain ⟨s, call, hcall, hr⟩ := exists_of_mem_asked hasked hop
    exact Update.request?_ne_empty hr ▸ hcall
  · intro calls hall h
    obtain ⟨hfault, htext⟩ := Draft.finish_eq_ok h
    obtain ⟨asked, hasked, hheld⟩ := Delete.run_conditions (s := deleted settings table []) hfault
    have hnone : (deleted settings table []).conditions = [] := by cases table <;> rfl
    rw [hnone, List.nil_append] at hheld
    have hallows : (deleted settings table calls).allowsAll = false :=
      Delete.run_allowsAll (s := deleted settings table []) (by cases table <;> rfl) hall
    refine ⟨asked, hasked, fun op hop => ?_, Delete.text_filtered hheld hallows htext⟩
    obtain ⟨s, call, hcall, hr⟩ := exists_of_mem_asked hasked hop
    exact Delete.request?_ne_empty hr ▸ hcall

/-- An UPDATE with a condition that was passed as a text and one on its type, and a DELETE by the
key of an item. -/
theorem build_filtered_alternatives :
    let city : MappedType := ⟨"City", "City", none,
      [(Column.plain "Id" "Id").asKey, Column.plain "Name" "Name"]⟩
    let update : List Update.Step :=
      [.addConditionRaw "1=1 OR 1=0" .or, .target city, .setValue "Name" (.string "Ulm"),
        .addCondition city (.binary .greaterThan (.column city "Id") (.constant (.int 3))) .and]
    let delete : List Delete.Step :=
      [.addItem city ⟨"", [("Id", .value (.int 7))]⟩ .and, .target city, .limit ⟨1, false⟩,
        .addConditionRaw "" .or]
    let changed := "UPDATE [t0] SET [Name]='Ulm' FROM [dbo].[City] [t0] WHERE " ++
      "(1=1 OR 1=0) AND (t0.[Id] > 3);"
    let removed := "DELETE TOP (1) FROM [dbo].[City] [t0] WHERE ([Id]=7) OR ();"
    ((Chain.update none update).build .default = .ok changed ∧
      ∃ asked : Conditions, (updated .default none []).requests update = asked.asRequests ∧
        ∃ lines, changed = String.intercalate "\n" lines ∧
          List.Forall₂ ((updated .default none update).IsFiltered asked)
            (updated .default none update).rows lines) ∧
    (Chain.delete none delete).build .default = .ok removed ∧
      ∃ asked : Conditions, (deleted .default none []).requests delete = asked.asRequests ∧
        (deleted .default none delete).IsFiltered asked removed := by
  intro city update delete changed removed
  have hchanged : (Chain.update none update).build .default = .ok changed := by decide +kernel
  have hremoved : (Chain.delete none delete).build .default = .ok removed := by decide +kernel
  refine ⟨⟨hchanged, ?_⟩, hremoved, ?_⟩
  · obtain ⟨asked, hasked, -, lines, -, hlines⟩ :=
      (build_filtered .default none changed).1 update hchanged
    exact ⟨asked, hasked, lines, hlines⟩
  · obtain ⟨asked, hasked, -, hfiltered⟩ :=
      (build_filtered .default none removed).2 delete (by simp [delete]) hremoved
    exact ⟨asked, hasked, hfiltered⟩

end Chain

end SqlWright
