import SqlWright.Proofs.Bodies.Silent
import SqlWright.Proofs.Commute.Clauses
import SqlWright.Proofs.Filter.Requests

/-!
# The outline of a query

A query holds its grouping and its sort keys as finished texts and its conditions in parentheses. An
outline holds the same clauses with every body apart: what has to stand after `ON`, in a condition,
in the list of a grouping, after `HAVING`, and each single key. Every call adds its own part to the
outline, and the outline of a chain of calls has the text of the clauses of the query.
-/

namespace SqlWright

open Text Outcome

/-! ## Groupings -/

/-- A grouping with the texts of its keys. -/
inductive KeyTexts where
  | keys (texts : List String)
  | rollup (texts : List String)
  | cube (texts : List String)
  | sets (lists : List (List String))
  | total
deriving DecidableEq, Repr

namespace KeyTexts

/-- The list that is grouped by. All rows as one group have no list. -/
def list? : KeyTexts → Option String
  | .keys texts | .rollup texts | .cube texts => some (String.intercalate "," texts)
  | .sets lists =>
    some (String.intercalate ","
      (lists.map fun texts => parenthesized (String.intercalate "," texts)))
  | .total => none

/-- All keys in the order in which they are written. -/
def all : KeyTexts → List String
  | .keys texts | .rollup texts | .cube texts => texts
  | .sets lists => lists.flatten
  | .total => []

/-- The keyword of a grouping around its list. -/
def around : KeyTexts → String → String
  | .rollup _, list => "ROLLUP (" ++ list ++ ")"
  | .cube _, list => "CUBE (" ++ list ++ ")"
  | .sets _, list => "GROUPING SETS (" ++ list ++ ")"
  | .keys _, list | .total, list => list

/-- The text of a grouping. -/
def text (g : KeyTexts) : String :=
  match g.list? with
  | some list => g.around list
  | none => "()"

end KeyTexts

/-- A grouping with the texts of its keys and of the condition on its groups. -/
structure GroupTexts where
  keys : KeyTexts
  having : Option String
deriving DecidableEq, Repr

/-- The clause as a query holds it. -/
def GroupTexts.clause (g : GroupTexts) : GroupClause :=
  ⟨g.keys.text, g.having⟩

namespace Draft

variable {d : Draft} {t : MappedType}

/-- The text of a grouping key; one without any text is refused. -/
def keyText (d : Draft) (t : MappedType) (key : Expr) : Outcome String := do
  let text ← d.compile t false key
  if text = "" then .error (.misuse .emptyGroupingKey) else .ok text

/-- The text of a sort key; one without any text is refused. -/
def sortText (d : Draft) (t : MappedType) (key : Expr) : Outcome String := do
  let text ← d.compile t false key
  if text = "" then .error (.misuse .emptySortKey) else .ok text

/-- A grouping with the texts of its keys. -/
def keyTexts (d : Draft) (t : MappedType) : Grouping → Outcome KeyTexts
  | .keys keys =>
    if keys.isEmpty then .error (.misuse .noGroupingKey)
    else (keys.mapM (d.keyText t)).map .keys
  | .rollup keys => (keys.mapM (d.keyText t)).map .rollup
  | .cube keys => (keys.mapM (d.keyText t)).map .cube
  | .sets lists => (lists.mapM fun keys : List Expr => keys.mapM (d.keyText t)).map .sets
  | .total => .ok .total

/-- A grouping with the texts of its keys and of the condition on its groups. -/
def groupTexts (d : Draft) (t : MappedType) (g : Grouping) (having : Option Expr) :
    Outcome GroupTexts := do
  let keys ← d.keyTexts t g
  match having with
  | none => return ⟨keys, none⟩
  | some condition => return ⟨keys, some (← d.compile t false condition)⟩

theorem keysText_eq (keys : List Expr) :
    d.keysText t keys = (keys.mapM (d.keyText t)).map (String.intercalate ",") :=
  (map_eq_bind _ _).symm

/-- The text of a grouping is that of the grouping with its keys apart. -/
theorem groupingText_eq (g : Grouping) :
    d.groupingText t g = (d.keyTexts t g).map KeyTexts.text := by
  cases g with
  | keys keys =>
    rw [groupingText, keyTexts]
    split
    · rfl
    · rw [keysText_eq, map_map]
      rfl
  | rollup keys | cube keys =>
    rw [groupingText, keyTexts, keysText_eq, map_map, map_map]
    rfl
  | sets lists =>
    simp only [groupingText, keyTexts, keysText_eq, map_map, mapM_map]
    exact (map_eq_bind _ _).symm.trans (map_map _ _ _)
  | total => rfl

theorem groupClause_eq (g : Grouping) (having : Option Expr) :
    d.groupClause t g having = (d.groupTexts t g having).map GroupTexts.clause := by
  rw [groupClause, groupTexts, groupingText_eq]
  cases d.keyTexts t g with
  | error e => rfl
  | ok keys =>
    cases having with
    | none => rfl
    | some condition =>
      show (d.compile t false condition >>= fun text => .ok ⟨keys.text, some text⟩) =
        Except.map GroupTexts.clause
          (d.compile t false condition >>= fun text => .ok ⟨keys, some text⟩)
      cases d.compile t false condition <;> rfl

/-- A draft takes over an old list and what is new in it. -/
theorem accept_append {α : Type} (d : Draft) (old : List α) (more : Outcome (List α)) :
    (d.accept (more.map (old ++ ·)) old).2 = old ++ more.toOption.getD [] := by
  cases more with
  | error e => exact (List.append_nil old).symm
  | ok new => rfl

end Draft

/-! ## Joins -/

namespace Joins

variable {settings : Settings} {r : Registry} {left right : MappedType}

/-- Every join is put after those before it. -/
theorem add_eq_append (js : Joins) (condition : Expr) (kind : JoinKind) :
    (js.add settings r left right condition kind).2 =
      (Joins.add [] settings r left right condition kind).2.map (js ++ ·) := by
  unfold add
  split
  · rfl
  · split
    · rfl
    · exact (map_map _ _ _).symm

theorem addCross_eq_append (js : Joins) :
    (js.addCross settings r left right).2 =
      (Joins.addCross [] settings r left right).2.map (js ++ ·) := by
  unfold addCross
  split <;> rfl

theorem addRaw_eq_append (js : Joins) (table : TableName) (condition : String) (kind : JoinKind) :
    js.addRaw settings table condition kind =
      (Joins.addRaw [] settings table condition kind).map (js ++ ·) :=
  (map_map _ _ _).symm

end Joins

/-! ## Outlines -/

/-- The parts of a query that have a body. -/
inductive Place where
  | on
  | condition
  | groupingList
  | groupingKey
  | having
  | sortKey
deriving DecidableEq, Repr

/-- The clauses of a query with their bodies apart. -/
structure Outline where
  joins : Joins
  conditions : Conditions
  group : Option GroupTexts
  order : List (String × Direction)
deriving DecidableEq, Repr

namespace Outline

/-- The outline of a query without these clauses. -/
def empty : Outline := ⟨[], [], none, []⟩

/-- One outline after another. There is at most one grouping, the first one. -/
def append (o more : Outline) : Outline :=
  ⟨o.joins ++ more.joins, o.conditions ++ more.conditions, o.group.or more.group,
    o.order ++ more.order⟩

/-- A sort key with its direction. -/
def keyWithDirection (key : String × Direction) : String :=
  key.1 ++ " " ++ key.2.keyword

/-- The text of the clauses. -/
def text (o : Outline) : String :=
  (if o.joins.isEmpty then "" else " " ++ o.joins.text) ++
    (if o.conditions.isEmpty then "" else " WHERE " ++ o.conditions.held.text) ++
    (match o.group with
      | none => ""
      | some g =>
        " GROUP BY " ++ g.keys.text ++
          (match g.having with
            | none => ""
            | some condition => " HAVING " ++ condition)) ++
    (if o.order.isEmpty then ""
      else " ORDER BY " ++ String.intercalate "," (o.order.map keyWithDirection))

/-- The bodies of one place, in their order. -/
def bodies (o : Outline) : Place → List String
  | .on => o.joins.filterMap (·.condition)
  | .condition => o.conditions.map (·.2)
  | .groupingList => o.group.toList.filterMap (·.keys.list?)
  | .groupingKey => o.group.toList.flatMap (·.keys.all)
  | .having => o.group.toList.filterMap (·.having)
  | .sortKey => o.order.map (·.1)

/-- Some body of the place is made of blanks alone, if it has any text. -/
def HasEmpty (o : Outline) (place : Place) : Prop :=
  ∃ body ∈ o.bodies place, speaks body = false

instance (o : Outline) (place : Place) : Decidable (o.HasEmpty place) :=
  inferInstanceAs (Decidable (∃ body ∈ o.bodies place, speaks body = false))

variable {o more : Outline}

theorem not_hasEmpty_empty (place : Place) : ¬ empty.HasEmpty place := by
  cases place <;> decide

theorem append_empty (o : Outline) : o.append empty = o := by
  simp [append, empty]

theorem append_assoc (o o' more : Outline) :
    (o.append o').append more = o.append (o'.append more) := by
  simp [append, Option.or_assoc]

/-- Two outlines have their bodies side by side unless both have a grouping. -/
theorem bodies_append (h : o.group = none ∨ more.group = none) (place : Place) :
    (o.append more).bodies place = o.bodies place ++ more.bodies place := by
  have hgroup : (o.group.or more.group).toList = o.group.toList ++ more.group.toList := by
    rcases h with h | h
    · rw [h]
      rfl
    · rw [h, Option.or_none]
      exact (List.append_nil _).symm
  cases place with
  | on => exact List.filterMap_append
  | condition | sortKey => exact List.map_append
  | groupingList | having =>
    rw [bodies, append, hgroup]
    exact List.filterMap_append
  | groupingKey =>
    rw [bodies, append, hgroup]
    exact List.flatMap_append

theorem hasEmpty_append (h : o.group = none ∨ more.group = none) (place : Place) :
    (o.append more).HasEmpty place ↔ o.HasEmpty place ∨ more.HasEmpty place := by
  simp only [HasEmpty, bodies_append h, List.mem_append, or_and_right, exists_or]

end Outline

namespace Select

/-- What a call on a query adds to the outline; nothing if it fails. -/
def adds (q : Select) : Step → Outline
  | .join left right condition kind =>
    { Outline.empty with
      joins := (Joins.add [] q.draft.settings q.draft.registry left right condition
        kind).2.toOption.getD [] }
  | .crossJoin left right =>
    { Outline.empty with
      joins := (Joins.addCross [] q.draft.settings q.draft.registry left
        right).2.toOption.getD [] }
  | .joinRaw table condition kind =>
    { Outline.empty with
      joins := (Joins.addRaw [] q.draft.settings table condition kind).toOption.getD [] }
  | .addCondition t condition op =>
    { Outline.empty with
      conditions := .granted
        [(op, Conditions.compiled q.draft.settings q.draft.registry t condition)] }
  | .addConditionRaw text op => { Outline.empty with conditions := [(op, text)] }
  | .groupBy t g having =>
    { Outline.empty with group := ((q.mention t).draft.groupTexts t g having).toOption }
  | .orderBy t key direction =>
    { Outline.empty with
      order := (((q.mention t).draft.sortText t key).map fun text =>
        [(text, direction)]).toOption.getD [] }
  | .fromType _ | .selectAll _ | .selectItems _ _ | .selectEvery | .selectDistinct | .limit _
  | .addHints _ | .intoType _ | .intoTable _ => .empty

/-- What a chain of calls adds to the outline. -/
def outline (q : Select) : List Step → Outline
  | [] => .empty
  | call :: calls => (q.adds call).append (outline (q.step call) calls)

variable {q : Select} {o : Outline}

/-- The text of a query up to the clauses that an outline has. -/
def frontText (q : Select) (primary : Entry) : String :=
  "SELECT " ++ (if q.distinct then "DISTINCT " else "") ++
    (match q.top with
      | none => ""
      | some top => top.bareText) ++
    q.columnsText ++
    (match q.destination with
      | none => ""
      | some name => " INTO " ++ name) ++
    " FROM " ++ primary.tableWithAlias ++ q.hints.suffixed

/-! ## One call -/

theorem joins_step (q : Select) (call : Step) :
    (q.step call).joins = q.joins ++ (q.adds call).joins := by
  have haccept (d : Draft) {new more : Outcome Joins} (h : new = more.map (q.joins ++ ·)) :
      (d.accept new q.joins).2 = q.joins ++ more.toOption.getD [] := by
    rw [h, Draft.accept_append]
  cases call with
  | join left right condition kind => exact haccept _ (Joins.add_eq_append _ _ _)
  | crossJoin left right => exact haccept _ (Joins.addCross_eq_append _)
  | joinRaw table condition kind => exact haccept _ (Joins.addRaw_eq_append _ _ _ _)
  | _ => exact (q.step_clause _ (c := .joins) (by rintro ⟨⟩)).trans (List.append_nil _).symm

theorem conditions_step (q : Select) (call : Step) :
    (q.step call).conditions = q.conditions ++ (q.adds call).conditions.held := by
  cases call with
  | addCondition t condition op =>
    show (q.draft.acceptWith (q.conditions.add q.draft.settings q.draft.registry t condition op)
      q.conditions).2 = _
    rw [Conditions.add_eq]
    exact Draft.accept_request _ _ _ _
  | addConditionRaw text op => rfl
  | _ => exact (q.step_clause _ (c := .conditions) (by rintro ⟨⟩)).trans (List.append_nil _).symm

theorem group_step (q : Select) (call : Step) :
    (q.step call).group = q.group.or ((q.adds call).group.map GroupTexts.clause) := by
  cases call with
  | groupBy t g having =>
    rw [step, groupBy, adds]
    cases hgroup : q.group with
    | some clause => exact hgroup
    | none =>
      show ((q.mention t).draft.accept
        (((q.mention t).draft.groupClause t g having).map some) q.group).2 = _
      rw [Draft.accept_value, Draft.groupClause_eq, hgroup]
      dsimp only
      cases (q.mention t).draft.groupTexts t g having <;> rfl
  | _ => exact (q.step_clause _ (c := .group) (by rintro ⟨⟩)).trans Option.or_none.symm

theorem order_step (q : Select) (call : Step) :
    (q.step call).order = q.order ++ (q.adds call).order.map Outline.keyWithDirection := by
  cases call with
  | orderBy t key direction =>
    rw [step, orderBy, adds]
    dsimp only
    rw [Draft.accept_value, Draft.sortText]
    cases (q.mention t).draft.compile t false key with
    | error e => exact (List.append_nil _).symm
    | ok text =>
      simp only [ok_bind]
      split
      · exact (List.append_nil _).symm
      · rfl
  | _ => exact (q.step_clause _ (c := .order) (by rintro ⟨⟩)).trans (List.append_nil _).symm

/-! ## A chain of calls -/

/-- The query has the clauses of an outline. -/
structure HasOutline (q : Select) (o : Outline) : Prop where
  joins : q.joins = o.joins
  conditions : q.conditions = o.conditions.held
  group : q.group = o.group.map GroupTexts.clause
  order : q.order = o.order.map Outline.keyWithDirection

namespace HasOutline

theorem new (settings : Settings) : (new settings).HasOutline .empty :=
  ⟨rfl, rfl, rfl, rfl⟩

theorem step (h : q.HasOutline o) (call : Step) :
    (q.step call).HasOutline (o.append (q.adds call)) where
  joins := by
    rw [joins_step, h.joins]
    rfl
  conditions := by
    rw [conditions_step, h.conditions]
    exact List.map_append.symm
  group := by
    rw [group_step, h.group]
    exact Option.map_or.symm
  order := by
    rw [order_step, h.order]
    exact List.map_append.symm

/-- A query has the outline that it had and what the calls on it add. -/
theorem run (h : q.HasOutline o) (calls : List Step) :
    (q.run calls).HasOutline (o.append (q.outline calls)) := by
  induction calls generalizing q o with
  | nil =>
    rw [outline, Outline.append_empty]
    exact h
  | cons call calls ih =>
    rw [outline, ← Outline.append_assoc]
    exact ih (h.step call)

theorem clausesText (h : q.HasOutline o) : q.clausesText = o.text := by
  have hconditions : q.conditions.isEmpty = o.conditions.isEmpty := by
    rw [h.conditions]
    exact List.isEmpty_map
  have horder : q.order.isEmpty = o.order.isEmpty := by
    rw [h.order]
    exact List.isEmpty_map
  rw [Select.clausesText, Outline.text, hconditions, horder, h.joins, h.conditions, h.group,
    h.order]
  cases o.group <;> rfl

end HasOutline

end Select

end SqlWright
