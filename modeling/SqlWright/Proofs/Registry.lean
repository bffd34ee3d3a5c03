import SqlWright.Identifier
import SqlWright.Proofs.Value.Closed
import SqlWright.Registry

/-!
# Aliases over a whole statement

What every chain of mentions keeps true of the aliases: the entry at a place has the alias of that
place and the qualified name of its table. So all that a statement writes of an entry is closed,
whatever the table, its schema and its columns are called, and names no alias but those in scope.
-/

namespace SqlWright

open Text

/-! ## Names -/

theorem Identifier.text_closed (i : Identifier) : Closed i.text := by
  refine .intercalate .dot fun t ht => ?_
  obtain ⟨part, -, rfl⟩ := List.mem_map.1 ht
  exact .bracketed part

/-- The parts of a qualified name: the schema, if there is one, and the name. -/
def Table.parts (t : Table) (schema : String) : List String :=
  if t.effectiveSchema schema = "" then [t.name] else [t.effectiveSchema schema, t.name]

/-- A qualified name is written as the identifier of its parts. -/
theorem Table.qualifiedName_eq_text (t : Table) (schema : String) :
    t.qualifiedName schema = Identifier.text ⟨t.parts schema⟩ := by
  rw [Table.qualifiedName, Table.parts]
  split
  · rw [Identifier.text, List.map_singleton, String.intercalate_singleton]
  · rw [Identifier.text, List.map_cons, List.map_singleton, String.intercalate_cons_cons,
      String.intercalate_singleton]

theorem Table.parts_ne_nil (t : Table) (schema : String) : t.parts schema ≠ [] := by
  rw [Table.parts]
  split <;> exact List.cons_ne_nil _ _

namespace Registry

theorem toList_aliasAt (k : Nat) : (aliasAt k).toList = 't' :: Nat.toDigits 10 k := by
  rw [aliasAt, String.toList_append]
  show "t".toList ++ k.repr.toList = _
  rw [Nat.toList_repr]
  rfl

/-- An alias before a dot, as a reader of quotes sees it. -/
theorem toList_qualifier (k : Nat) :
    (aliasAt k ++ ".").toList.map Mark.code = .code 't' :: qualifierRest k := by
  rw [String.toList_append, toList_aliasAt, List.map_append, List.map_cons]
  rfl

theorem masked_qualifier (k : Nat) :
    (aliasAt k ++ ".").toList.all Mode.isPlain = true ∧
      masked (aliasAt k ++ ".") = .code 't' :: qualifierRest k := by
  have hdigits : (Nat.toDigits 10 k).all Mode.isPlain = true :=
    List.all_eq_true.2 fun c hc => isPlain_of_isWord ((Decimal.numeral_toDigits k).inert c hc)
  have hplain : (aliasAt k ++ ".").toList.all Mode.isPlain = true := by
    rw [String.toList_append, toList_aliasAt, List.all_append, List.all_cons, hdigits]
    rfl
  exact ⟨hplain, (masked_plain hplain).trans (toList_qualifier k)⟩

theorem qualifier_scoped {n k : Nat} (h : k < n) : Scoped n (aliasAt k ++ ".") := by
  obtain ⟨hplain, hmarks⟩ := masked_qualifier k
  have hdigits : Closed (aliasAt k ++ ".") := by
    have ht : Closed "t" := .of_inert (by decide)
    have hk : Scoped n (toString k) := (numeral_natural k).inert.isScoped
    exact (ht.append hk.closed).append .dot
  have hrest : ∀ m ∈ qualifierRest k, ∃ c, m = .code c ∧ c ≠ 't' := by
    intro m hm
    rcases List.mem_append.1 hm with hm | hm
    · obtain ⟨c, hc, rfl⟩ := List.mem_map.1 hm
      exact ⟨c, rfl, (isWord_iff.1 ((Decimal.numeral_toDigits k).inert c hc)).2⟩
    · exact ⟨'.', List.mem_singleton.1 hm, by decide⟩
  refine ⟨hdigits, ?_, ?_⟩
  · rw [hmarks]
    intro before m after heq hm
    cases before with
    | nil => exact ⟨k, h, (List.cons.inj heq).2 ▸ List.prefix_rfl⟩
    | cons first before =>
      obtain ⟨c, rfl, hc⟩ := hrest m ((List.cons.inj heq).2 ▸ List.mem_append_right before
        List.mem_cons_self)
      exact absurd (Mark.code.inj hm) hc
  · rw [hmarks]
    refine .of_forall (List.forall_mem_cons.2 ⟨?_, fun m hm => ?_⟩)
    · exact guarded_of_ne fun c hc => by cases hc
    · obtain ⟨c, rfl, -⟩ := hrest m hm
      exact guarded_of_ne fun d hd => by cases hd

theorem qualifier_guards (k : Nat) : Guards (masked (aliasAt k ++ ".")) := by
  refine ⟨'.', by decide, .inl ?_⟩
  rw [(masked_qualifier k).2, qualifierRest, ← List.cons_append]
  exact List.suffix_append _ _

/-- A column under an alias. -/
theorem qualified_scoped {n k : Nat} (h : k < n) (c : Column) :
    Scoped n (aliasAt k ++ "." ++ c.quoted) :=
  (qualifier_scoped h).named (qualifier_guards k) c.name

/-! ## The invariant -/

/-- Every entry has the alias of its place and the qualified name of its table. -/
structure Numbered (r : Registry) : Prop where
  aliasName : r.entries.map (·.aliasName) = (List.range r.entries.length).map aliasAt
  qualifiedName : ∀ e ∈ r.entries, e.qualifiedName = e.type.table.qualifiedName r.defaultSchema

theorem Numbered.empty (schema : String) : Numbered (empty schema) :=
  ⟨rfl, List.forall_mem_nil _⟩

theorem Numbered.add {r : Registry} (h : Numbered r) (t : MappedType) (primary : Bool) :
    Numbered (r.add t primary) := by
  unfold Registry.add
  split
  · exact h
  · have hothers : (if primary then r.entries.map Entry.demoted else r.entries).map (·.aliasName) =
        r.entries.map (·.aliasName) := by
      split
      · rw [List.map_map]
        rfl
      · rfl
    have hlength : (if primary then r.entries.map Entry.demoted else r.entries).length =
        r.entries.length := by
      split
      · rw [List.length_map]
      · rfl
    constructor
    · rw [List.map_append, hothers, List.length_append, hlength, h.aliasName]
      show _ = (List.range (r.entries.length + 1)).map aliasAt
      rw [List.range_succ, List.map_append]
      rfl
    · intro e he
      rcases List.mem_append.1 he with he | he
      · split at he
        · obtain ⟨f, hf, rfl⟩ := List.mem_map.1 he
          exact h.qualifiedName f hf
        · exact h.qualifiedName e he
      · rw [List.mem_singleton.1 he]
        rfl

/-- The registry after a chain of mentions, each with the wish to be primary. -/
def addAll (r : Registry) (mentions : List (MappedType × Bool)) : Registry :=
  mentions.foldl (fun r m => r.add m.1 m.2) r

theorem Numbered.addAll {r : Registry} (h : Numbered r) (mentions : List (MappedType × Bool)) :
    Numbered (r.addAll mentions) := by
  induction mentions generalizing r with
  | nil => exact h
  | cons m mentions ih => exact ih (h.add m.1 m.2)

/-! ## What is written of an entry -/

theorem Numbered.aliasName_at {r : Registry} (h : Numbered r) {e : Entry} {k : Nat}
    (he : r.entries[k]? = some e) : e.aliasName = aliasAt k := by
  have halias := congrArg (fun names : List String => names[k]?) h.aliasName
  have hk : k < r.entries.length := (List.getElem?_eq_some_iff.1 he).1
  rw [List.getElem?_map, List.getElem?_map, he, List.getElem?_range hk] at halias
  exact Option.some.inj halias

theorem Numbered.exists_aliasAt {r : Registry} (h : Numbered r) {e : Entry} (he : e ∈ r.entries) :
    ∃ k < r.entries.length, e.aliasName = aliasAt k := by
  obtain ⟨k, hk, rfl⟩ := List.mem_iff_getElem.1 he
  exact ⟨k, hk, h.aliasName_at (List.getElem?_eq_getElem hk)⟩

theorem Numbered.qualified_scoped {r : Registry} (h : Numbered r) {t : MappedType}
    {name : String} (hn : r.aliasOf? t = some name) (c : Column) :
    Scoped r.entries.length (name ++ "." ++ c.quoted) := by
  obtain ⟨e, he, rfl⟩ := Option.map_eq_some_iff.1 hn
  obtain ⟨k, hk, heq⟩ := h.exists_aliasAt (List.mem_of_find?_eq_some he)
  rw [heq]
  exact Registry.qualified_scoped hk c

end Registry

end SqlWright
