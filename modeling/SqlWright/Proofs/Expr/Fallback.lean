import SqlWright.Proofs.Identifier.Qualified
import SqlWright.Proofs.Scope.Sources
import SqlWright.Proofs.Text.Surface

/-!
# Columns of types without an entry

A type that a statement does not mention has no alias of its own. Its columns are written under the
alias of a parameter that stands for the same table. Two types stand for the same table if their
tables have one name once the default schema is filled in, but the schemas are compared as they were
declared: a table of the default schema that leaves it out is not taken for one that spells it out.
So a column goes by the rule just if the first parameter of its table declares the schema as the
type itself does.
-/

namespace SqlWright

open Text Outcome

/-! ## Tables of one name -/

namespace Table

variable {t u : Table}

theorem sameTable_iff : t.sameTable u = true ↔ t.name = u.name ∧ t.schema = u.schema := by
  simp [sameTable]

/-- Tables that are described alike have one qualified name under every default schema. -/
theorem qualifiedName_of_sameTable (h : t.sameTable u = true) (schema : String) :
    t.qualifiedName schema = u.qualifiedName schema := by
  obtain ⟨hname, hschema⟩ := sameTable_iff.1 h
  rw [qualifiedName, qualifiedName, effectiveSchema, effectiveSchema, hname, hschema]

/-- Tables of one qualified name that declare one schema are described alike. -/
theorem sameTable_of_qualifiedName {schema : String}
    (h : t.qualifiedName schema = u.qualifiedName schema) (hschema : t.schema = u.schema) :
    t.sameTable u = true := by
  rw [qualifiedName_inj, parts_eq_iff] at h
  exact sameTable_iff.2 ⟨h.2, hschema⟩

end Table

namespace Scope

/-! ## Parameters that stand in for a type -/

/-- The entry of the first parameter that has one, of those whose table passes a test. -/
def standIn? (s : Scope) (like : Table → Bool) : Option Entry :=
  (s.parameters.filter fun p => like p.table).findSome? s.registry.get?

/-- The entry of the first parameter that has one and whose table is described as that of the
type is. -/
def twin? (s : Scope) (t : MappedType) : Option Entry :=
  s.standIn? fun table => table.sameTable t.table

/-- The entry of the first parameter that has one and whose table has the qualified name of that of
the type, under the default schema of the statement. -/
def namesake? (s : Scope) (t : MappedType) : Option Entry :=
  s.standIn? fun table =>
    table.qualifiedName s.registry.defaultSchema == t.table.qualifiedName s.registry.defaultSchema

/-- A column of a type under the alias of another entry, if there is one. -/
def columnUnder (t : MappedType) (member : String) : Option Entry → Outcome String
  | some e => (t.column member).map e.qualified
  | none => .error (.unregistered (.type t.name))

variable {s : Scope} {t : MappedType} {like close : Table → Bool} {e : Entry}

/-- A type without an entry borrows the alias of a parameter that is described alike. -/
theorem column_of_unregistered (ht : s.registry.get? t = none) (member : String) :
    s.column t member = columnUnder t member (s.twin? t) := by
  have halias : (s.parameters.filter fun p => p.table.sameTable t.table).findSome?
      s.registry.aliasOf? = (s.twin? t).map (·.aliasName) := List.map_findSome?.symm
  rw [column, aliasOf, Registry.aliasOf?, ht, Option.map_none]
  dsimp only
  rw [halias]
  cases s.twin? t with
  | none => rfl
  | some e =>
    rw [columnUnder, map_eq_bind]
    rfl

theorem get?_eq_some {p : MappedType} (h : s.registry.get? p = some e) :
    e ∈ s.registry.entries ∧ e.type = p :=
  ⟨List.mem_of_find?_eq_some h, by simpa using List.find?_some h⟩

theorem of_standIn? (h : s.standIn? like = some e) :
    e ∈ s.registry.entries ∧ like e.type.table = true := by
  obtain ⟨p, hp, hentry⟩ := List.exists_of_findSome?_eq_some h
  obtain ⟨hmem, rfl⟩ := get?_eq_some hentry
  exact ⟨hmem, (List.mem_filter.1 hp).2⟩

/-- A closer test finds what a wider one finds first, if that passes the closer one too. -/
theorem standIn?_of_wider (hclose : ∀ table, close table = true → like table = true)
    (h : ∀ e, s.standIn? like = some e → close e.type.table = true) :
    s.standIn? close = s.standIn? like := by
  obtain ⟨registry, parameters, mode⟩ := s
  dsimp only [standIn?] at h ⊢
  induction parameters with
  | nil => rfl
  | cons p parameters ih =>
    by_cases hlike : like p.table = true
    · simp only [List.filter_cons, hlike, if_true, List.findSome?_cons] at h ⊢
      cases hentry : registry.get? p with
      | some e =>
        rw [hentry] at h
        have htype : e.type = p := by simpa using List.find?_some hentry
        have hpass : close p.table = true := htype ▸ h e rfl
        simp only [hpass, if_true, List.findSome?_cons, hentry]
      | none =>
        rw [hentry] at h
        by_cases hpass : close p.table = true
        · simp only [hpass, if_true, List.findSome?_cons, hentry]
          exact ih h
        · simp only [hpass, Bool.false_eq_true, if_false]
          exact ih h
    · have hpass : ¬ close p.table = true := fun hpass => hlike (hclose _ hpass)
      simp only [List.filter_cons, hlike, hpass, Bool.false_eq_true, if_false] at h ⊢
      exact ih h

/-- The first parameter of one name is described alike just if no parameter is found by its name or
that one declares the schema of the type. -/
theorem twin?_eq_namesake?_iff : s.twin? t = s.namesake? t ↔
    ∀ e, s.namesake? t = some e → e.type.table.schema = t.table.schema := by
  constructor
  · intro heq e he
    rw [← heq] at he
    exact (Table.sameTable_iff.1 (of_standIn? he).2).2
  · intro hschema
    refine standIn?_of_wider (fun table hsame => ?_) fun e he => ?_
    · rw [beq_iff_eq]
      exact Table.qualifiedName_of_sameTable hsame _
    · exact Table.sameTable_of_qualifiedName (beq_iff_eq.1 (of_standIn? he).2) (hschema e he)

end Scope

namespace Registry

/-- In a registry that is made by mentions a column tells the entries apart. -/
theorem Numbered.qualified_inj {r : Registry} (h : r.Numbered) {e f : Entry}
    (he : e ∈ r.entries) (hf : f ∈ r.entries) {c : Column} (heq : e.qualified c = f.qualified c) :
    e = f := by
  refine List.inj_on_of_nodup_map h.nodup he hf ?_
  rw [Entry.qualified, Entry.qualified] at heq
  exact (String.append_left_inj _).1 ((String.append_left_inj _).1 heq)

end Registry

namespace Expr

theorem trim_qualified {r : Registry} (h : r.Numbered) {e : Entry} (he : e ∈ r.entries)
    (c : Column) : trim (e.qualified c) = e.qualified c := by
  obtain ⟨k, -, halias⟩ := h.exists_aliasAt he
  have hlist : (e.qualified c).toList =
      't' :: (Nat.toDigits 10 k ++ '.' :: '[' :: doubled ']' c.name.toList ++ [']']) := by
    simp [Entry.qualified, halias, Registry.toList_aliasAt, Column.quoted, bracketed, enclosed]
  exact trim_enclosed hlist (by decide) (by decide)

/-- **Columns of types without an entry.** Such a column is written under the alias of the first
parameter that has an entry and whose table has the same name and declares the same schema; without
one it is refused. A column that the type has goes by the qualified name instead, which is to be
written under the alias of the first parameter with an entry and the same qualified name, just if
that parameter, if there is one, declares the schema as the type does. -/
theorem compile_column_iff (s : Scope) (hs : s.registry.IsMade) (t : MappedType)
    (ht : s.registry.get? t = none) (member : String) (named : Bool) :
    (column t member).compile s named = Scope.columnUnder t member (s.twin? t) ∧
    ∀ c, t.column member = .ok c →
      ((column t member).compile s named = Scope.columnUnder t member (s.namesake? t) ↔
        ∀ e, s.namesake? t = some e → e.type.table.schema = t.table.schema) := by
  have hcompile : (column t member).compile s named = Scope.columnUnder t member (s.twin? t) := by
    show (s.column t member).map trim = _
    rw [Scope.column_of_unregistered ht]
    cases htwin : s.twin? t with
    | none => rfl
    | some e =>
      rw [Scope.columnUnder]
      cases t.column member with
      | error _ => rfl
      | ok c =>
        exact congrArg Except.ok (trim_qualified hs.numbered (Scope.of_standIn? htwin).1 c)
  refine ⟨hcompile, fun c hc => ?_⟩
  rw [hcompile, ← Scope.twin?_eq_namesake?_iff]
  constructor
  · intro h
    cases htwin : s.twin? t with
    | none =>
      cases hnamesake : s.namesake? t with
      | none => rfl
      | some f => simp [htwin, hnamesake, Scope.columnUnder, hc, Except.map] at h
    | some e =>
      cases hnamesake : s.namesake? t with
      | none => simp [htwin, hnamesake, Scope.columnUnder, hc, Except.map] at h
      | some f =>
        rw [htwin, hnamesake, Scope.columnUnder, Scope.columnUnder, hc] at h
        exact congrArg some (hs.numbered.qualified_inj (Scope.of_standIn? htwin).1
          (Scope.of_standIn? hnamesake).1 (Except.ok.inj h))
  · intro h
    rw [h]

/-- A view that declares the schema of its table as the mentioned type does. -/
theorem compile_column_of_view :
    let employee : MappedType := ⟨"Employee", "Employee", some "dbo", [Column.plain "Id" "Id"]⟩
    let view : MappedType := ⟨"View", "Employee", some "dbo", [Column.plain "Id" "EmployeeId"]⟩
    let s : Scope := ⟨(Registry.empty "dbo").add employee true, [view, employee], .asInt⟩
    s.registry.get? view = none ∧ (column view "Id").compile s false = .ok "t0.[EmployeeId]" ∧
      (column view "Id").compile s false = Scope.columnUnder view "Id" (s.namesake? view) := by
  intro employee view s
  have hs : s.registry.IsMade :=
    (Registry.IsMade.empty "dbo").of_extends (Registry.Extends.add (.empty "dbo") employee true)
  have ht : s.registry.get? view = none := by decide
  obtain ⟨hcompile, hiff⟩ := compile_column_iff s hs view ht "Id" false
  refine ⟨ht, ?_, (hiff _ rfl).2 ?_⟩
  · rw [hcompile]
    decide
  · have hname : s.namesake? view = some ⟨employee, "[dbo].[Employee]", "t0", true⟩ := by decide
    rw [hname]
    rintro _ ⟨⟩
    rfl

/-- A view of the same table that leaves the default schema out. It has the qualified name of the
mentioned type, but its column is refused. -/
theorem compile_column_of_undeclared :
    let employee : MappedType := ⟨"Employee", "Employee", some "dbo", [Column.plain "Id" "Id"]⟩
    let view : MappedType := ⟨"View", "Employee", none, [Column.plain "Id" "EmployeeId"]⟩
    let s : Scope := ⟨(Registry.empty "dbo").add employee true, [view, employee], .asInt⟩
    s.namesake? view = some ⟨employee, "[dbo].[Employee]", "t0", true⟩ ∧
      Scope.columnUnder view "Id" (s.namesake? view) = .ok "t0.[EmployeeId]" ∧
      (column view "Id").compile s false = .error (.unregistered (.type "View")) := by
  decide

end Expr

end SqlWright
