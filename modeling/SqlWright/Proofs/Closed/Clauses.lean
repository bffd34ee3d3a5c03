import SqlWright.Clause.Conditions
import SqlWright.Clause.Joins
import SqlWright.Proofs.Expr.Closed
import SqlWright.Proofs.Scope.Reading
import SqlWright.Statement.Draft

/-!
# Clauses are closed

The parts that statements are made of: names of tables, limits, hints, rows of literals, conditions
and joins. Each is closed if no text of the caller is in it and no time of day and no time with an
offset; names may be anything. The only aliases in it are those of the mentioned types, and only
joins introduce one. A call that fails adds nothing, and mentions only add aliases, so what was
closed stays closed.
-/

namespace SqlWright

open Text Outcome

/-! ## Names, limits and hints -/

/-- A written form of an identifier. -/
def IsIdentifier (t : String) : Prop := ∃ i : Identifier, t = i.text

theorem IsIdentifier.closed {t : String} (h : IsIdentifier t) : Closed t := by
  obtain ⟨i, rfl⟩ := h
  exact i.text_closed

theorem TableName.text_isIdentifier {n : TableName} {text : String} (h : n.text = .ok text) :
    IsIdentifier text := by
  obtain ⟨i, -, rfl⟩ := map_eq_ok.1 h
  exact ⟨i, rfl⟩

theorem Table.qualifiedName_isIdentifier (t : Table) (schema : String) :
    IsIdentifier (t.qualifiedName schema) :=
  ⟨⟨t.parts schema⟩, t.qualifiedName_eq_text schema⟩

/-- An identifier after a text that guards it. -/
theorem IsIdentifier.scoped {n : Nat} {t u : String} (h : IsIdentifier u) (ht : Scoped n t)
    (hg : Guards (masked t)) : Scoped n (t ++ u) := by
  obtain ⟨i, rfl⟩ := h
  refine ht.listed hg (.word (by decide)) (.of_ends (by decide)) fun u hu => ?_
  obtain ⟨part, -, rfl⟩ := List.mem_map.1 hu
  exact .bracketed part

section Words

variable {n : Nat}

theorem Top.unit_scoped (t : Top) : Scoped n t.unit := by
  rw [unit]
  split
  · exact .word (by decide)
  · exact .word (by decide)

theorem Top.bareText_scoped (t : Top) : Scoped n t.bareText := by
  have htop : Scoped n "TOP " := .word (by decide)
  exact (htop.append (numeral_natural t.count).inert.isScoped).append t.unit_scoped

theorem Top.groupedText_scoped (t : Top) : Scoped n t.groupedText := by
  have hopening : Scopes n 0 1 "TOP (" := .bare (by decide) (by decide)
  exact (Scoped.inside hopening (numeral_natural t.count).inert.isScoped).append t.unit_scoped

/-- A limit ends in a word or in a parenthesis, and a space. -/
theorem Top.groupedText_guards (t : Top) : Guards (masked t.groupedText) := by
  have hopening : Scopes 0 0 1 "TOP (" := .bare (by decide) (by decide)
  have hcount : Scoped 0 (toString t.count) := (numeral_natural t.count).inert.isScoped
  rw [groupedText, String.append_assoc]
  refine .ends (hopening.append (hcount.under 1)).spans.isSealed ?_
  rw [unit]
  split
  · decide
  · decide

theorem Hint.keyword_scoped (h : Hint) : Scoped n h.keyword := by
  cases h <;> exact .word (by decide)

theorem Hints.suffixed_scoped (hs : Hints) : Scoped n hs.suffixed := by
  rw [suffixed, clause?]
  by_cases h : hs.isEmpty = true
  · rw [if_pos h]
    exact .empty
  · rw [if_neg h]
    have hopening : Scopes n 0 1 "WITH (" := .bare (by decide) (by decide)
    refine Scoped.space.append (Scoped.inside hopening (.commas ?_))
    intro t ht
    obtain ⟨hint, -, rfl⟩ := List.mem_map.1 ht
    exact hint.keyword_scoped

end Words

/-! ## Entries -/

namespace Registry

variable {r r' : Registry} {t : String}

/-- Further mentions do no harm. -/
theorem Scopes.of_extends (h : r.Scopes t) (hr : r'.Extends r) : r'.Scopes t :=
  Text.Scopes.mono h hr.length_le

theorem Numbered.qualifiedColumns_scoped (h : r.Numbered) {e : Entry} (he : e ∈ r.entries) :
    ∀ t ∈ e.qualifiedColumns, r.Scopes t := by
  intro t ht
  obtain ⟨c, -, rfl⟩ := List.mem_map.1 ht
  obtain ⟨k, hk, heq⟩ := h.exists_aliasAt he
  rw [Entry.qualified, heq]
  exact Registry.qualified_scoped hk c

theorem Numbered.allColumns_scoped (h : r.Numbered) : ∀ t ∈ r.qualifiedColumns, r.Scopes t := by
  intro t ht
  obtain ⟨e, he, ht⟩ := List.mem_flatMap.1 ht
  exact h.qualifiedColumns_scoped he t ht

theorem Numbered.qualifiedName_isIdentifier (h : r.Numbered) {e : Entry} (he : e ∈ r.entries) :
    IsIdentifier e.qualifiedName := by
  rw [h.qualifiedName e he]
  exact e.type.table.qualifiedName_isIdentifier _

theorem Numbered.isSource (h : r.Numbered) {e : Entry} (he : e ∈ r.entries) :
    IsSource e.aliasName e.tableWithAlias := by
  refine ⟨_, e.type.table.parts_ne_nil r.defaultSchema, ?_⟩
  rw [Entry.tableWithAlias, h.qualifiedName e he, Table.qualifiedName_eq_text]

/-- The alias of the primary table in brackets, if there is one. -/
def primaryAlias (r : Registry) : List String :=
  (r.primary?.map fun e => bracketed e.aliasName).toList

theorem mem_of_primary? {e : Entry} (he : r.primary? = some e) : e ∈ r.entries :=
  List.mem_of_find?_eq_some he

end Registry

/-! ## Literals of rows -/

theorem Column.literal_scoped {n : Nat} {c : Column} {mode : EnumMode} {v : Value} {text : String}
    (hv : v.timeless = true) (h : c.literal mode v = .ok text) : Scoped n text := by
  unfold Column.literal at h
  split at h <;> cases h
  · exact (Scoped.ofLiterals n).literalAs _ _ hv
  all_goals exact Value.literal_scoped mode _ hv

namespace Row

/-- All literals of a row are closed and without aliases. -/
def IsClosed (row : Row) : Prop := ∀ v ∈ row, Scoped 0 v.literal

theorem IsClosed.pairs {row : Row} (h : row.IsClosed) : ∀ p ∈ row.pairs, Scoped 0 p.2 := by
  intro p hp
  obtain ⟨v, hv, rfl⟩ := List.mem_map.1 hp
  exact h v hv

theorem IsClosed.literal? {row : Row} (h : row.IsClosed) {column text : String}
    (ht : row.literal? column = some text) : Scoped 0 text := by
  obtain ⟨v, hv, rfl⟩ := Option.map_eq_some_iff.1 ht
  exact h v (List.mem_of_find?_eq_some hv)

theorem IsClosed.set {row : Row} (h : row.IsClosed) {v : ColumnValue} (hv : Scoped 0 v.literal) :
    (row.set v).IsClosed := by
  intro w hw
  rcases List.mem_append.1 hw with hw | hw
  · exact h w (List.mem_of_mem_filter hw)
  · rw [List.mem_singleton.1 hw]
    exact hv

end Row

theorem MappedType.columnValue_scoped {n : Nat} {t : MappedType} {mode : EnumMode}
    {item : Record Field} {c : Column} {v : ColumnValue}
    (hi : item.allValues Value.timeless = true) (h : t.columnValue mode item c = .ok v) :
    Scoped n v.literal := by
  unfold MappedType.columnValue at h
  split at h
  · next value hg =>
    obtain ⟨text, ht, rfl⟩ := map_eq_ok.1 h
    exact Column.literal_scoped (Record.allValues_of_get? hi hg) ht
  · cases h
  · cases h

theorem MappedType.row_closed {t : MappedType} {mode : EnumMode} {chosen : Column → Bool}
    {item : Record Field} {row : Row} (hi : item.allValues Value.timeless = true)
    (h : t.row mode chosen item = .ok row) : row.IsClosed :=
  forall_mem_of_mapM h fun _ _ _ hv => MappedType.columnValue_scoped hi hv

theorem keyTest_startsNamed {n : Nat} (column : String) {literal : String} (h : Scoped n literal) :
    StartsNamed n (keyTest column literal) := by
  rw [keyTest]
  split
  · exact ⟨column, " IS NULL", rfl, .word (by decide)⟩
  · exact ⟨column, "=" ++ literal, String.append_assoc .., Scoped.equal.append h⟩

theorem keyCondition_scoped {n : Nat} {keys : List (String × String)}
    (h : ∀ k ∈ keys, Scoped n k.2) : Scoped n (keyCondition keys) := by
  have hopening : Scopes n 0 1 "(" := .bare (by decide) (by decide)
  have htests : Scopes n 0 1 ("(" ++ String.intercalate " AND "
      (keys.map fun key => keyTest key.1 key.2)) := by
    refine hopening.listed (.of_ends (by decide)) (.word (by decide)) (.of_ends (by decide)) ?_
    intro u hu
    obtain ⟨k, hk, rfl⟩ := List.mem_map.1 hu
    exact keyTest_startsNamed k.1 (h k hk)
  exact htests.append (.bare (by decide) (by decide))

/-! ## Drafts -/

namespace Draft

variable {α : Type} {d : Draft}

theorem accept_registry (d : Draft) (result : Outcome α) (old : α) :
    (d.accept result old).1.registry = d.registry := by
  cases result <;> rfl

theorem acceptWith_registry (d : Draft) (result : Registry × Outcome α) (old : α) :
    (d.acceptWith result old).1.registry = result.1 :=
  accept_registry (d.adopt result.1) result.2 old

theorem accept_extends (d : Draft) (result : Outcome α) (old : α) :
    (d.accept result old).1.registry.Extends d.registry := by
  rw [accept_registry]
  exact .refl d.registry

theorem acceptWith_extends {result : Registry × Outcome α} (hr : result.1.Extends d.registry)
    (old : α) : (d.acceptWith result old).1.registry.Extends d.registry := by
  rw [acceptWith_registry]
  exact hr

/-- What holds of the old value and of every result holds of what is taken over. -/
theorem accept_induction {P : α → Prop} {result : Outcome α} {old : α} (hold : P old)
    (h : ∀ a, result = .ok a → P a) : P (d.accept result old).2 := by
  cases result with
  | ok a => exact h a rfl
  | error e => exact hold

/-- A part that a call sets is as good as what the call offers for it. -/
theorem accept_some {β : Type} {P : β → Prop} {result : Outcome α} {f : α → β} {old : Option β}
    (hold : ∀ b ∈ old, P b) (h : ∀ a, result = .ok a → P (f a)) :
    ∀ b ∈ (d.accept (result.map fun a => some (f a)) old).2, P b := by
  cases result with
  | error e => exact hold
  | ok a =>
    intro b hb
    cases hb
    exact h a rfl

theorem acceptWith_induction {P : α → Prop} {result : Registry × Outcome α} {old : α}
    (hold : P old) (h : ∀ a, result.2 = .ok a → P a) : P (d.acceptWith result old).2 :=
  accept_induction hold h

theorem compile_scoped (hd : d.registry.Numbered) {t : MappedType} {named : Bool} {e : Expr}
    (he : e.isTimeless = true) {text : String} (h : d.compile t named e = .ok text) :
    d.registry.Scopes text :=
  Expr.compile_scoped (s := ⟨d.registry, [t], d.settings.enumMode⟩) hd he h

theorem columnValue_scoped {n : Nat} {name : String} {v : Value} (hv : v.timeless = true)
    {value : ColumnValue} (h : d.columnValue name v = .ok value) : Scoped n value.literal := by
  unfold columnValue at h
  split at h
  · obtain ⟨text, ht, rfl⟩ := map_eq_ok.1 h
    exact Column.literal_scoped hv ht
  · cases h
    exact Value.literal_scoped _ v hv

/-- A finished statement is the text of a draft without errors. -/
theorem finish_eq_ok {text : Outcome String} {t : String} (h : d.finish text = .ok t) :
    d.fault = none ∧ text = .ok t := by
  unfold finish at h
  split at h
  · cases h
  · next hf => exact ⟨hf, h⟩

end Draft

/-! ## Conditions -/

namespace Conditions

variable {cs : Conditions} {r : Registry}

/-- All conditions are closed; their aliases are those of a registry. -/
def IsClosed (r : Registry) (cs : Conditions) : Prop := ∀ c ∈ cs, r.Scopes c.2

theorem IsClosed.of_extends {r' : Registry} (h : cs.IsClosed r) (hr : r'.Extends r) :
    cs.IsClosed r' :=
  fun c hc => Registry.Scopes.of_extends (h c hc) hr

theorem IsClosed.tailText (h : cs.IsClosed r) : r.Scopes cs.tailText := by
  induction cs with
  | nil => exact .empty
  | cons c rest ih =>
    obtain ⟨op, text⟩ := c
    have hop : r.Scopes op.keyword := by
      cases op
      · exact .word (by decide)
      · exact .word (by decide)
    have htext : r.Scopes text := h (op, text) List.mem_cons_self
    have hrest := ih fun c hc => h c (List.mem_cons_of_mem _ hc)
    exact (((Scoped.space.append hop).append .space).append htext).append hrest

theorem IsClosed.text (h : cs.IsClosed r) : r.Scopes cs.text := by
  cases cs with
  | nil => exact .empty
  | cons c rest =>
    have hfirst : r.Scopes c.2 := h c List.mem_cons_self
    have hrest : Conditions.IsClosed r rest := fun c hc => h c (List.mem_cons_of_mem _ hc)
    exact hfirst.append hrest.tailText

theorem IsClosed.addRaw (h : cs.IsClosed r) {condition : String} (hc : r.Scopes condition)
    (op : Connective) : (cs.addRaw condition op).IsClosed r :=
  List.forall_mem_append.2 ⟨h, List.forall_mem_singleton.2 (Scoped.grouped hc)⟩

theorem IsClosed.add (h : cs.IsClosed r) {settings : Settings} (hr : r.Numbered)
    {t : MappedType} {condition : Expr} (hc : condition.isTimeless = true) {op : Connective}
    {new : Conditions} (hn : (cs.add settings r t condition op).2 = .ok new) :
    new.IsClosed (r.add t false) := by
  obtain ⟨text, ht, hn⟩ := bind_eq_ok.1 hn
  split at hn
  · cases hn
  · cases hn
    exact (h.of_extends (.add r t false)).addRaw (Expr.compile_scoped (hr.add t false) hc ht) op

/-- The `WHERE` clause, if there are conditions. -/
theorem IsClosed.clause (h : cs.IsClosed r) :
    r.Scopes (if cs.isEmpty then "" else " WHERE " ++ cs.text) := by
  have hwhere : r.Scopes " WHERE " := .word (by decide)
  split
  · exact .empty
  · exact hwhere.append h.text

/-- A typed condition that is taken over or refused leaves all conditions closed. -/
theorem IsClosed.acceptWith {d : Draft} (h : cs.IsClosed d.registry) (hd : d.registry.Numbered)
    (t : MappedType) {condition : Expr} (hc : condition.isTimeless = true) (op : Connective) :
    let result := d.acceptWith (cs.add d.settings d.registry t condition op) cs
    result.1.registry.Extends d.registry ∧ result.2.IsClosed result.1.registry := by
  have hextends : (d.registry.add t false).Extends d.registry := .add d.registry t false
  refine ⟨Draft.acceptWith_extends hextends _, ?_⟩
  rw [Draft.acceptWith_registry]
  exact Draft.acceptWith_induction (h.of_extends hextends) fun _ hn => h.add hd hc hn

end Conditions

/-! ## Joins -/

/-- A join of a table under some alias; the aliases in its condition are those of a registry. -/
structure Join.IsClosed (r : Registry) (j : Join) : Prop where
  table : ∃ name, IsSource name j.table
  condition : ∀ c ∈ j.condition, r.Scopes c

/-- A join introduces the alias of its table. -/
theorem Join.IsClosed.introduces {r : Registry} {j : Join} (h : j.IsClosed r) {name : String}
    (hs : IsSource name j.table) {aliases : List String} {t : String}
    (ht : Introduces r.entries.length aliases t) :
    Introduces r.entries.length (aliases ++ [bracketed name]) (t ++ j.text) := by
  have hon : r.Scopes " ON " := .word (by decide)
  have hkind : r.Scopes (j.kind.keyword ++ " ") := by
    cases j.kind <;> exact .word (by decide)
  have hkeyword : EndsInKeyword (t ++ (j.kind.keyword ++ " ")) := by
    refine .of_word ht.closed.isSealed ?_ (.inr ?_)
    · cases j.kind <;> decide
    · cases j.kind <;> decide
  have hopening : Scopes r.entries.length 0 1 " WITH (" := .bare (by decide) (by decide)
  rw [Join.text, ← String.append_assoc, ← String.append_assoc, ← String.append_assoc]
  refine (((ht.append_scoped hkind).append_source hkeyword hs).append_scoped ?hint).append_scoped
    ?condition
  case hint =>
    split
    · next hint _ => exact .inside hopening hint.keyword_scoped
    · exact .empty
  case condition =>
    split
    · next c hc => exact hon.append (h.condition c hc)
    · exact .empty

namespace Joins

variable {js : Joins} {settings : Settings} {r : Registry} {left right : MappedType}

/-- All joins are closed. -/
def IsClosed (r : Registry) (js : Joins) : Prop := ∀ j ∈ js, j.IsClosed r

theorem IsClosed.of_extends {r' : Registry} (h : js.IsClosed r) (hr : r'.Extends r) :
    js.IsClosed r' :=
  fun j hj =>
    { h j hj with condition := fun c hc => Registry.Scopes.of_extends ((h j hj).condition c hc) hr }

/-- Every joined table has a name. -/
theorem IsClosed.exists_names (h : js.IsClosed r) :
    ∃ names, List.Forall₂ (fun j name => IsSource name j.table) js names := by
  induction js with
  | nil => exact ⟨[], .nil⟩
  | cons j js ih =>
    obtain ⟨hj, hrest⟩ := List.forall_mem_cons.1 h
    obtain ⟨name, hname⟩ := hj.table
    obtain ⟨names, hnames⟩ := ih hrest
    exact ⟨name :: names, .cons hname hnames⟩

/-- All joins as they stand in a statement. -/
theorem clause_cons (j : Join) (js : Joins) :
    (if (j :: js).isEmpty then "" else " " ++ Joins.text (j :: js)) =
      " " ++ j.text ++ if js.isEmpty then "" else " " ++ js.text := by
  rw [List.isEmpty_cons, if_neg Bool.false_ne_true, text, List.map_cons]
  cases js with
  | nil => rw [List.map_nil, String.intercalate_singleton, List.isEmpty_nil, if_pos rfl,
      String.append_empty]
  | cons next js =>
    rw [List.map_cons, String.intercalate_cons_cons, List.isEmpty_cons,
      if_neg Bool.false_ne_true, text, List.map_cons, String.append_assoc, String.append_assoc]

/-- Joins introduce the aliases of their tables. -/
theorem IsClosed.introduces (h : js.IsClosed r) {names aliases : List String}
    (hn : List.Forall₂ (fun j name => IsSource name j.table) js names) {t : String}
    (ht : Introduces r.entries.length aliases t) :
    Introduces r.entries.length (aliases ++ names.map bracketed)
      (t ++ if js.isEmpty then "" else " " ++ js.text) := by
  induction hn generalizing t aliases with
  | nil =>
    rw [List.map_nil, List.append_nil, List.isEmpty_nil, if_pos rfl, String.append_empty]
    exact ht
  | @cons j name js names hj _ ih =>
    obtain ⟨hfirst, hrest⟩ := List.forall_mem_cons.1 h
    have htext := hfirst.introduces hj (ht.append_scoped .space)
    rw [clause_cons, ← String.append_assoc, ← String.append_assoc, List.map_cons,
      List.append_cons]
    exact ih hrest htext

theorem add_extends (js : Joins) (condition : Expr) (kind : JoinKind) :
    (js.add settings r left right condition kind).1.Extends r := by
  unfold Joins.add
  split
  · exact .refl r
  · split
    · exact .refl r
    · exact .add r right false

theorem addCross_extends (js : Joins) :
    (js.addCross settings r left right).1.Extends r := by
  unfold Joins.addCross
  split
  · exact .refl r
  · exact .add r right false

/-- A join that is taken over mentions the joined type and is put after the others. -/
theorem add_eq_ok {condition : Expr} {kind : JoinKind} {new : Joins}
    (h : (js.add settings r left right condition kind).2 = .ok new) :
    (js.add settings r left right condition kind).1 = r.add right false ∧
      ∃ text, condition.compile ⟨r.add right false, [left, right], settings.enumMode⟩ false =
          .ok text ∧
        new =
          js ++ [⟨kind, (r.entry right false).tableWithAlias, settings.joinHint, some text⟩] := by
  unfold Joins.add at h ⊢
  split at h
  · cases h
  · next hkind =>
    rw [if_neg hkind]
    split at h
    · cases h
    · obtain ⟨text, ht, rfl⟩ := map_eq_ok.1 h
      exact ⟨rfl, text, ht, rfl⟩

theorem addCross_eq_ok {new : Joins} (h : (js.addCross settings r left right).2 = .ok new) :
    (js.addCross settings r left right).1 = r.add right false ∧
      new = js ++ [⟨.cross, (r.entry right false).tableWithAlias, settings.joinHint, none⟩] := by
  unfold Joins.addCross at h ⊢
  split at h
  · cases h
  · cases h
    exact ⟨rfl, rfl⟩

/-- A join of a mentioned type on closed conditions. -/
theorem IsClosed.append_entry (h : js.IsClosed r) (hr : r.Numbered) (right : MappedType)
    (kind : JoinKind) {condition : Option String}
    (hc : ∀ c ∈ condition, (r.add right false).Scopes c) :
    Joins.IsClosed (r.add right false)
      (js ++ [⟨kind, (r.entry right false).tableWithAlias, settings.joinHint, condition⟩]) := by
  refine List.forall_mem_append.2 ⟨h.of_extends (.add r right false), ?_⟩
  refine List.forall_mem_singleton.2 ?_
  exact ⟨⟨_, (hr.add right false).isSource (r.entry_mem right false)⟩, hc⟩

theorem IsClosed.add (h : js.IsClosed r) (hr : r.Numbered) {condition : Expr}
    (hc : condition.isTimeless = true) {kind : JoinKind} {new : Joins}
    (hn : (js.add settings r left right condition kind).2 = .ok new) :
    new.IsClosed (js.add settings r left right condition kind).1 := by
  obtain ⟨hregistry, text, ht, rfl⟩ := add_eq_ok hn
  rw [hregistry]
  refine h.append_entry hr right kind fun c hmem => ?_
  cases hmem
  exact Expr.compile_scoped (hr.add right false) hc ht

theorem IsClosed.addCross (h : js.IsClosed r) (hr : r.Numbered) {new : Joins}
    (hn : (js.addCross settings r left right).2 = .ok new) :
    new.IsClosed (js.addCross settings r left right).1 := by
  obtain ⟨hregistry, rfl⟩ := addCross_eq_ok hn
  rw [hregistry]
  exact h.append_entry hr right .cross fun c hmem => by cases hmem

end Joins

end SqlWright
