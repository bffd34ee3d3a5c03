import SqlWright.Proofs.Expr.Pass
import SqlWright.Proofs.Insert.Alignment
import SqlWright.Proofs.Text.Surface
import SqlWright.Proofs.Update.Rows
import SqlWright.Proofs.Value.Reading

/-!
# Variants of an enumeration

A variant may be given by its integer, by its name or as a value of the enumeration, and it meets an
enumerated column in two places: in an expression, where the column hands its enumeration to a
value, and in a row, where the column writes the value. In all forms and in both places it has one
literal, so a condition on the column finds the rows that were written with the variant.
-/

namespace SqlWright

open Outcome

/-! ## One literal for all forms -/

/-- The literal of an integer that stands in an enumerated column. -/
def EnumColumn.literal (column : EnumColumn) (n : Int) : String :=
  EnumValue.literal column.mode ⟨column.type, n⟩

namespace Value

mutual
/-- A value picks variants of the enumeration of a column, which have this text: one of them by its
integer, by its name or as a value of the enumeration, or several by a list, which may hold other
lists. -/
inductive Picks (column : EnumColumn) : Value → String → Prop
  | number {name : String} {n : Int} : (name, n) ∈ column.type.variants →
      Picks column (.int n) (column.literal n)
  | name {name : String} {n : Int} : (name, n) ∈ column.type.variants →
      Picks column (.string name) (column.literal n)
  | member {name : String} {n : Int} : (name, n) ∈ column.type.variants →
      Picks column (.enumerated ⟨column.type, n⟩) (column.literal n)
  | list {items : List Value} {texts : List String} : PicksEach column items texts →
      Picks column (.list items) (String.intercalate "," texts)

/-- The same of the items of a list, one by one. -/
inductive PicksEach (column : EnumColumn) : List Value → List String → Prop
  | nil : PicksEach column [] []
  | cons {v : Value} {text : String} {items : List Value} {texts : List String} :
      Picks column v text → PicksEach column items texts →
      PicksEach column (v :: items) (text :: texts)
end

variable {column : EnumColumn}

mutual
theorem Picks.literalAs (hnames : (column.type.variants.map (·.1)).Nodup) {v : Value}
    {text : String} : v.Picks column text → v.literalAs column = text
  | .number _ => rfl
  | .name h => by
    rw [Value.literalAs, EnumType.valueOf?_of_mem hnames h, EnumColumn.literal]
  | .member _ => rfl
  | .list h => by rw [Value.literalAs, PicksEach.literalsAs hnames h]

theorem PicksEach.literalsAs (hnames : (column.type.variants.map (·.1)).Nodup)
    {items : List Value} {texts : List String} :
    PicksEach column items texts → Value.literalsAs column items = texts
  | .nil => rfl
  | .cons h hrest => by
    rw [Value.literalsAs, Picks.literalAs hnames h, PicksEach.literalsAs hnames hrest]
end

end Value

/-! ## The literals are not the null literal -/

theorem EnumColumn.head?_literal (column : EnumColumn) (n : Int) :
    (column.literal n).toList.head? ≠ some 'N' := by
  rw [EnumColumn.literal]
  rcases EnumValue.literal_cases column.mode ⟨column.type, n⟩ with ⟨name, -, -, hl⟩ | ⟨-, hl⟩
  · rw [hl, Text.quoted, Text.enclosed, String.toList_ofList, List.head?_cons]
    decide
  · rw [hl]
    intro h
    exact absurd (numeral_int n 'N' (List.mem_of_head? h)) (by decide)

namespace Value

variable {column : EnumColumn} {v : Value} {text : String}

mutual
theorem Picks.head? {v : Value} {text : String} :
    v.Picks column text → text.toList.head? ≠ some 'N'
  | .number _ | .name _ | .member _ => column.head?_literal _
  | .list h => by
    refine Text.separated_induction (by decide) (fun {t u} ht _ => ?_) h.head?
    rw [String.append_assoc, String.toList_append]
    cases ht' : t.toList with
    | nil => simp
    | cons c cs => simpa [ht'] using ht

theorem PicksEach.head? {items : List Value} {texts : List String} :
    PicksEach column items texts → ∀ text ∈ texts, text.toList.head? ≠ some 'N'
  | .nil => List.forall_mem_nil _
  | .cons h hrest => List.forall_mem_cons.2 ⟨h.head?, hrest.head?⟩
end

theorem Picks.ne_null (h : v.Picks column text) : text ≠ "NULL" := by
  rintro rfl
  exact h.head? rfl

end Value

theorem Scope.column_ne_null {s : Scope} {t : MappedType} {member q : String}
    (h : s.column t member = .ok q) : q ≠ "NULL" := by
  obtain ⟨name, -, h⟩ := bind_eq_ok.1 h
  obtain ⟨c, -, h⟩ := bind_eq_ok.1 h
  cases h
  intro hnull
  have hdot : '.' ∈ (name ++ "." ++ c.quoted).toList := by simp
  rw [hnull] at hdot
  exact absurd hdot (by decide)

/-! ## In an expression -/

namespace Expr

/-- An expression stands for a value that is known when the statement is made: it is a constant, a
named value or a member of a captured record, or a conversion of one of these. -/
inductive Denotes : Expr → Value → Prop
  | constant (v : Value) : Denotes (.constant v) v
  | fixed (owner name : String) (v : Value) : Denotes (.fixed owner name v) v
  | captured {owner : Expr} {name : String} {v : Value} :
      captured? (.member owner name) = some (.ok (.value v)) → Denotes (.member owner name) v
  | converted {e : Expr} {v : Value} : Denotes e v → Denotes (.unary .convert e) v

variable {s : Scope} {named : Bool} {x : Expr} {v : Value}

theorem Denotes.isValue (h : x.Denotes v) : x.isValue = true := by
  induction h with
  | constant v => rfl
  | fixed owner name v => rfl
  | @captured owner name v h =>
    by_contra hnot
    have hnone := captured?_eq_none (.member owner name) (Bool.eq_false_iff.2 hnot)
    rw [hnone] at h
    cases h
  | converted _ ih => exact ih

theorem Denotes.render (h : x.Denotes v) (hint : Option EnumColumn) :
    render s named hint x = .ok (v.literalFor hint s.enumMode) := by
  induction h with
  | constant v => rfl
  | fixed owner name v => rfl
  | @captured owner name v h =>
    have hvalue : memberValue s.enumMode hint owner name = .ok (v.literalFor hint s.enumMode) := by
      unfold memberValue
      rw [h]
    cases owner with
    | parameter t => cases h
    | _ => exact hvalue
  | converted _ ih =>
    rw [Expr.render, if_pos rfl, ih]
    rfl

variable {t : MappedType} {c : Column} {column : EnumColumn} {text : String}

theorem enumColumn?_column (hmembers : (t.table.columns.map (·.member)).Nodup)
    (hc : c ∈ t.table.columns) (hkind : c.kind = .enumerated column) :
    (Expr.column t c.member).enumColumn? = some column := by
  have hfound : t.table.ofMember? c.member = some c := find?_of_nodup hmembers hc
  rw [Expr.column, enumColumn?, hfound, Option.bind_some, Column.enumColumn?, hkind]

theorem takenFrom_column (hx : x.Denotes v)
    (hcolumn : (Expr.column t c.member).enumColumn? = some column) :
    takenFrom x (Expr.column t c.member) = some column := by
  rw [takenFrom, if_pos hx.isValue, hcolumn]

/-- How a value is written beside a column of a type: compared with it, on either side, and as the
collection of a membership test on it. If the column is refused, so is the whole. -/
structure WrittenBeside (x : Expr) (s : Scope) (named : Bool) (t : MappedType) (member : String)
    (text : String) : Prop where
  after (op : BinaryOp) : op.isComparison = true → ∃ keyword, op.keyword? = some keyword ∧
    compile s named (.binary op (.column t member) x) =
      (s.column t member).map fun q => Text.parenthesized (q ++ " " ++ keyword ++ " " ++ text)
  before (op : BinaryOp) : op.isComparison = true → ∃ keyword, op.keyword? = some keyword ∧
    compile s named (.binary op x (.column t member)) =
      (s.column t member).map fun q => Text.parenthesized (text ++ " " ++ keyword ++ " " ++ q)
  isIn : compile s named (.isIn (.column t member) x) =
    (s.column t member).map fun q => Text.trim (membershipText q text)
  contains : compile s named (.contains x (.column t member)) =
    (s.column t member).map fun q => Text.trim (membershipText q text)

theorem keyword_of_isComparison {op : BinaryOp} (h : op.isComparison = true) :
    ∃ keyword, op.keyword? = some keyword := by
  cases op <;> first | exact ⟨_, rfl⟩ | cases h

theorem trim_binaryText {op : BinaryOp} {keyword l r : String} (h : r ≠ "NULL") :
    Text.trim (binaryText op keyword l r) =
      Text.parenthesized (l ++ " " ++ keyword ++ " " ++ r) := by
  rw [binaryText, if_neg h, Text.trim_parenthesized]

theorem callOperands_isIn (value items : Expr) :
    callOperands "Contains" (some items) [value] =
      [(value, none), (items, takenFrom items value)] := rfl

theorem callOperands_contains (value items : Expr) :
    callOperands "Contains" none [items, value] =
      [(value, none), (items, takenFrom items value)] := rfl

theorem callText_contains (value items : String) :
    callText "Contains" [value, items] = .ok (membershipText value items) := rfl

/-- A value that picks variants of a column's enumeration is written beside it by their text. -/
theorem writtenBeside (hx : x.Denotes v)
    (hcolumn : (Expr.column t c.member).enumColumn? = some column)
    (hv : v.literalAs column = text) (hnull : text ≠ "NULL") :
    x.WrittenBeside s named t c.member text := by
  have hrender : render s named (takenFrom x (.column t c.member)) x = .ok text := by
    rw [hx.render, takenFrom_column hx hcolumn, Value.literalFor, hv]
  have hname (hint : Option EnumColumn) :
      render s named hint (.column t c.member) = s.column t c.member := rfl
  constructor
  case after =>
    intro op hop
    obtain ⟨keyword, hk⟩ := keyword_of_isComparison hop
    refine ⟨keyword, hk, ?_⟩
    rw [compile, render, hk]
    dsimp only
    rw [hintFor_comparison_right, if_pos hop, hrender, hname]
    simp only [map_eq_bind, bind_assoc, ok_bind, pure_eq_ok, trim_binaryText hnull]
  case before =>
    intro op hop
    obtain ⟨keyword, hk⟩ := keyword_of_isComparison hop
    refine ⟨keyword, hk, ?_⟩
    rw [compile, render, hk]
    dsimp only
    rw [hintFor_comparison_left, if_pos hop, hrender, hname, ok_bind]
    cases hq : s.column t c.member with
    | error fault => simp only [error_bind, map_eq_bind]
    | ok q => exact congrArg Except.ok (trim_binaryText (Scope.column_ne_null hq))
  case isIn =>
    rw [compile, Expr.isIn, render_call, callOperands_isIn]
    simp only [List.mapM_cons, List.mapM_nil, hname, hrender, map_eq_bind, bind_assoc, ok_bind,
      pure_eq_ok, callText_contains]
  case contains =>
    rw [compile, Expr.contains, render_call, callOperands_contains]
    simp only [List.mapM_cons, List.mapM_nil, hname, hrender, map_eq_bind, bind_assoc, ok_bind,
      pure_eq_ok, callText_contains]

end Expr

/-! ## In a row -/

/-- Of the literals of a row the column has this one and no other. -/
def Row.Holds (pairs : List (String × String)) (column literal : String) : Prop :=
  ∀ l, (column, l) ∈ pairs ↔ l = literal

theorem Row.holds_set (row : Row) (v : ColumnValue) :
    Row.Holds (row.set v).pairs v.column v.literal := by
  intro l
  rw [Row.pairs, Row.set, List.map_append, List.mem_append]
  constructor
  · rintro (h | h)
    · obtain ⟨w, hw, heq⟩ := List.mem_map.1 h
      have hne := (List.mem_filter.1 hw).2
      rw [(Prod.mk.inj heq).1, bne_self_eq_false] at hne
      cases hne
    · cases List.mem_singleton.1 h
      rfl
  · rintro rfl
    exact .inr (List.mem_singleton_self _)

section Columns

variable {t : MappedType} {c : Column} {mode : EnumMode} {v : Value} {text : String}

/-- The row of an item has the literal of a column that is chosen for it. -/
theorem MappedType.row_holds (hnames : (t.table.columns.map (·.name)).Nodup)
    (hc : c ∈ t.table.columns) (hv : c.literal mode v = .ok text) {item : Record Field}
    (hget : item.get? c.member = some (.value v)) {chosen : Column → Bool} (hchosen : chosen c)
    {row : Row} (h : t.row mode chosen item = .ok row) : Row.Holds row.pairs c.name text := by
  obtain ⟨-, rfl⟩ := row_eq_ok h
  have hwritten := Column.written_eq hget hv
  intro l
  rw [Row.pairs, List.map_map, List.mem_map]
  constructor
  · rintro ⟨c', hc', heq⟩
    obtain ⟨hname, rfl⟩ := Prod.mk.inj heq
    have hsame : c' = c := List.inj_on_of_nodup_map hnames (List.mem_filter.1 hc').1 hc hname
    rw [hsame]
    exact hwritten
  · rintro rfl
    exact ⟨c, List.mem_filter.2 ⟨hc, hchosen⟩, Prod.ext rfl hwritten⟩

/-- A statement on a type writes a value in a column of it as the column does. -/
theorem Draft.columnValue_of_primary {d : Draft} (hd : d.registry.primary?.map (·.type) = some t)
    (hnames : (t.table.columns.map (·.name)).Nodup) (hc : c ∈ t.table.columns)
    (hv : c.literal d.settings.enumMode v = .ok text) :
    d.columnValue c.name v = .ok ⟨c.name, text, c.searchKey⟩ := by
  obtain ⟨primary, hprimary, rfl⟩ := Option.map_eq_some_iff.1 hd
  have hfound : primary.type.table.ofName? c.name = some c := find?_of_nodup hnames hc
  rw [columnValue, hprimary, Option.bind_some, hfound]
  show (c.literal d.settings.enumMode v).map _ = _
  rw [hv]
  rfl

theorem Draft.values_hold {d : Draft}
    (hd : ∀ w, d.columnValue c.name v = .ok w → w.column = c.name ∧ w.literal = text)
    {values : List (String × Value)} {row : Row}
    (h : (values.mapM fun (name, v) => d.columnValue name v) = .ok row) :
    List.Forall₂ (fun given written => given = (c.name, v) → written = (c.name, text)) values
      row.pairs := by
  refine List.forall₂_map_right_iff.2 ((mapM_eq_ok.1 h).imp fun given w hw hgiven => ?_)
  subst hgiven
  obtain ⟨hcolumn, hliteral⟩ := hd w hw
  rw [hcolumn, hliteral]

end Columns

/-- The row that was added last. -/
def Insert.lastRow? (s : Insert) : Option (List (String × String)) :=
  match s.source with
  | some (.rows rows) => rows.getLast?
  | _ => none

theorem Insert.lastRow?_addRowOutcome {s : Insert} {result : Outcome (List (String × String))}
    (hf : (s.addRowOutcome result).draft.fault = none) :
    ∃ row, result = .ok row ∧ (s.addRowOutcome result).lastRow? = some row := by
  obtain ⟨row, rows, rfl, hadd⟩ := addRowOutcome_eq hf
  refine ⟨row, rfl, ?_⟩
  rw [hadd]
  exact List.getLast?_concat

/-- The row that was begun last, with all that was set in it since. -/
def Update.lastRow? (s : Update) : Option (List (String × String)) :=
  s.rows.getLast?.map Row.pairs

theorem Update.lastRow?_concat {s : Update} {earlier : List Row} {row : Row}
    (h : s.rows = earlier ++ [row]) : s.lastRow? = some row.pairs := by
  rw [lastRow?, h, List.getLast?_concat, Option.map_some]

theorem Update.lastRow?_setLast {s : Update} {v : ColumnValue} {rows : List Row}
    (h : s.rows = setLast v rows) :
    ∃ row, s.lastRow? = some row ∧ Row.Holds row v.column v.literal := by
  rcases rows.eq_nil_or_concat' with rfl | ⟨earlier, row, rfl⟩
  · have hrows : s.rows = [] ++ [Row.set [] v] := h
    exact ⟨_, lastRow?_concat hrows, Row.holds_set [] v⟩
  · rw [setLast_concat] at h
    exact ⟨_, lastRow?_concat h, row.holds_set v⟩

/-! ## Everywhere -/

/-- How a value comes into the rows of statements at a column: the last row has this literal for the
column after a call with an item that has the value, with values among which it is, or that sets the
column to it. Values and settings need a statement on the type. -/
structure Column.WrittenInRows (t : MappedType) (c : Column) (v : Value) (text : String) :
    Prop where
  insertItem (s : Insert) (item : Record Field) : item.get? c.member = some (.value v) →
    c.inclusion.insert = true → (s.addItem t item).draft.fault = none →
      ∃ row, (s.addItem t item).lastRow? = some row ∧ Row.Holds row c.name text
  updateItem (s : Update) (item : Record Field) : item.get? c.member = some (.value v) →
    Update.isKept c = true → (s.addItem t item).draft.fault = none →
      ∃ row, (s.addItem t item).lastRow? = some row ∧ Row.Holds row c.name text
  insertValues (s : Insert) (values : List (String × Value)) :
    s.draft.registry.primary?.map (·.type) = some t → (s.addValues values).draft.fault = none →
      ∃ row, (s.addValues values).lastRow? = some row ∧ List.Forall₂ (fun given written =>
        given = (c.name, v) → written = (c.name, text)) values row
  updateValues (s : Update) (values : List (String × Value)) :
    s.draft.registry.primary?.map (·.type) = some t → (s.addValues values).draft.fault = none →
      ∃ row, (s.addValues values).lastRow? = some row ∧ List.Forall₂ (fun given written =>
        given = (c.name, v) → written = (c.name, text)) values row
  setValue (s : Update) : s.draft.registry.primary?.map (·.type) = some t →
    ∃ row, (s.setValue c.name v).lastRow? = some row ∧ Row.Holds row c.name text

theorem Column.writtenInRows {t : MappedType} {c : Column} (hc : c ∈ t.table.columns)
    (hnames : (t.table.columns.map (·.name)).Nodup) {v : Value} {text : String}
    (hv : ∀ mode, c.literal mode v = .ok text) : c.WrittenInRows t v text := by
  have hvalue {d : Draft} (hd : d.registry.primary?.map (·.type) = some t) :=
    d.columnValue_of_primary hd hnames hc (hv d.settings.enumMode)
  have hgiven {d : Draft} (hd : d.registry.primary?.map (·.type) = some t) (w : ColumnValue)
      (hw : d.columnValue c.name v = .ok w) : w.column = c.name ∧ w.literal = text := by
    rw [hvalue hd] at hw
    cases hw
    exact ⟨rfl, rfl⟩
  constructor
  case insertItem =>
    intro s item hget hinsert hf
    obtain ⟨_, hpairs, hlast⟩ := Insert.lastRow?_addRowOutcome hf
    obtain ⟨row, hrow, rfl⟩ := map_eq_ok.1 hpairs
    exact ⟨_, hlast, MappedType.row_holds hnames hc (hv _) hget hinsert hrow⟩
  case updateItem =>
    intro s item hget hkept hf
    obtain ⟨row, hrow, hrows⟩ := Update.addItem_rows hf
    exact ⟨_, Update.lastRow?_concat hrows,
      MappedType.row_holds hnames hc (hv _) hget hkept hrow⟩
  case insertValues =>
    intro s values hd hf
    obtain ⟨_, hpairs, hlast⟩ := Insert.lastRow?_addRowOutcome hf
    obtain ⟨row, hrow, rfl⟩ := map_eq_ok.1 hpairs
    exact ⟨_, hlast, Draft.values_hold (hgiven hd) hrow⟩
  case updateValues =>
    intro s values hd hf
    obtain ⟨row, hrow, hrows⟩ := Update.addValues_rows hf
    exact ⟨_, Update.lastRow?_concat hrows, Draft.values_hold (hgiven hd) hrow⟩
  case setValue =>
    intro s hd
    have hset : (s.setValue c.name v).rows =
        Update.setLast ⟨c.name, text, c.searchKey⟩ s.rows := by
      rw [Update.setValue, hvalue hd]
      rfl
    exact Update.lastRow?_setLast hset

/-- **A variant has one literal.** On a type whose members and columns have names of their own, let
a value pick variants of the enumeration of a column, whose names are distinct, in any of the forms
that there are. Then it has the same text under every setting and wherever it meets the column:
beside it in an expression, as a constant, a named value or a member of a captured record, and in a
row, be it the row of an item, a row of values or a row in which the column is set. -/
theorem Column.picks_same_text {t : MappedType} {c : Column} {column : EnumColumn}
    (hc : c ∈ t.table.columns) (hkind : c.kind = .enumerated column)
    (hmembers : (t.table.columns.map (·.member)).Nodup)
    (hnames : (t.table.columns.map (·.name)).Nodup)
    (hvariants : (column.type.variants.map (·.1)).Nodup) {v : Value} {text : String}
    (hv : v.Picks column text) :
    (∀ mode : EnumMode, c.literal mode v = .ok text) ∧
    (∀ (s : Scope) (named : Bool) (x : Expr), x.Denotes v →
      x.WrittenBeside s named t c.member text) ∧
    c.WrittenInRows t v text := by
  have hcoerced := hv.literalAs hvariants
  have hliteral (mode : EnumMode) : c.literal mode v = .ok text := by
    unfold literal
    rw [hkind]
    exact congrArg Except.ok hcoerced
  have hcolumn := Expr.enumColumn?_column hmembers hc hkind
  exact ⟨hliteral, fun s named x hx => Expr.writtenBeside hx hcolumn hcoerced hv.ne_null,
    writtenInRows hc hnames hliteral⟩

/-- Variants in three forms, some in a list inside a list, and a single one that is set in a row. -/
theorem Column.picks_same_text_status :
    let status : EnumColumn := ⟨⟨"Status", [("Active", 1), ("Retired", 3)]⟩, .asString⟩
    let column := (Column.plain "Status" "Status").enumerated status.type status.mode
    let staff : MappedType := ⟨"Staff", "Staff", some "dbo", [Column.plain "Id" "Id", column]⟩
    let scope : Scope := ⟨(Registry.empty "dbo").add staff true, [staff], .asInt⟩
    let mixed : Value :=
      .list [.int 3, .list [.string "Active", .enumerated ⟨status.type, 3⟩]]
    mixed.Picks status "'Retired','Active','Retired'" ∧
      Expr.compile scope false (.isIn (.column staff "Status") (.constant mixed)) =
        .ok "t0.[Status] IN ('Retired','Active','Retired')" ∧
      ∃ row, ((Update.ofType .default staff).setValue "Status" (.int 3)).lastRow? = some row ∧
        Row.Holds row "Status" "'Retired'" := by
  intro status column staff scope mixed
  have hactive : ("Active", 1) ∈ status.type.variants := by decide
  have hretired : ("Retired", 3) ∈ status.type.variants := by decide
  have hsingle : (Value.int 3).Picks status "'Retired'" := .number hretired
  have hinner : (Value.list [.string "Active", .enumerated ⟨status.type, 3⟩]).Picks status
      "'Active','Retired'" :=
    .list (.cons (.name hactive) (.cons (.member hretired) .nil))
  have hmixed : mixed.Picks status "'Retired','Active','Retired'" :=
    .list (.cons hsingle (.cons hinner .nil))
  have hc : column ∈ staff.table.columns := by decide
  have htext {v : Value} {text : String} (hv : v.Picks status text) :=
    column.picks_same_text hc rfl (by decide) (by decide) (by decide) hv
  have hrows := (htext hsingle).2.2
  have hbeside := (htext hmixed).2.1 scope false _ (.constant mixed)
  exact ⟨hmixed, hbeside.isIn.trans (by decide +kernel),
    hrows.setValue (.ofType .default staff) rfl⟩

end SqlWright
