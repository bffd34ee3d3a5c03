import Mathlib.Data.List.Infix
import Mathlib.Data.List.Nodup
import SqlWright.Proofs.Registry

/-!
# What the mentions determine

The registry of a statement is determined by the chain of its mentions alone: one entry for each
mentioned type, in the order of the first mentions, and the latest of the first mentions that ask
for it is primary. Later mentions leave the entries where they are and what they are called.
-/

namespace SqlWright

/-- The names of an entry: all of it but its being primary. -/
def Entry.names (e : Entry) : MappedType × String × String :=
  (e.type, e.aliasName, e.qualifiedName)

namespace Registry

/-- The mentions of types that were not mentioned before. -/
def firstMentions : List (MappedType × Bool) → List (MappedType × Bool)
  | [] => []
  | m :: mentions => m :: (firstMentions mentions).filter fun n => n.1 ≠ m.1

section FirstMentions

variable {t : MappedType} {mentions : List (MappedType × Bool)}

theorem mem_types_firstMentions :
    t ∈ (firstMentions mentions).map (·.1) ↔ t ∈ mentions.map (·.1) := by
  induction mentions with
  | nil => rfl
  | cons m mentions ih =>
    rw [firstMentions, List.map_cons, List.map_cons, List.mem_cons, List.mem_cons, ← ih]
    by_cases ht : t = m.1 <;> simp [ht]

theorem nodup_firstMentions : ((firstMentions mentions).map (·.1)).Nodup := by
  induction mentions with
  | nil => exact List.nodup_nil
  | cons m mentions ih =>
    rw [firstMentions, List.map_cons, List.nodup_cons]
    exact ⟨by simp, ih.sublist (List.filter_sublist.map _)⟩

theorem firstMentions_concat (m : MappedType × Bool) :
    firstMentions (mentions ++ [m]) =
      if m.1 ∈ mentions.map (·.1) then firstMentions mentions
      else firstMentions mentions ++ [m] := by
  induction mentions with
  | nil => rfl
  | cons n mentions ih =>
    rw [List.cons_append, firstMentions, ih, firstMentions, List.map_cons]
    by_cases hm : m.1 ∈ mentions.map (·.1)
    · rw [if_pos hm, if_pos (List.mem_cons_of_mem _ hm)]
    · rw [if_neg hm, List.filter_append]
      by_cases hn : m.1 = n.1 <;> simp [hn, hm]

end FirstMentions

/-! ## Aliases -/

theorem toDigits_injective : Function.Injective (Nat.toDigits 10) := by
  intro m n h
  calc
    m = Nat.ofDigitChars 10 (Nat.toDigits 10 m) 0 := Nat.ofDigitChars_ten_toDigits.symm
    _ = Nat.ofDigitChars 10 (Nat.toDigits 10 n) 0 := by rw [h]
    _ = n := Nat.ofDigitChars_ten_toDigits

theorem aliasAt_injective : Function.Injective aliasAt := by
  intro m n h
  have hlist := congrArg String.toList h
  rw [toList_aliasAt, toList_aliasAt] at hlist
  exact toDigits_injective (List.cons.inj hlist).2

theorem Numbered.nodup {r : Registry} (h : Numbered r) : (r.entries.map (·.aliasName)).Nodup := by
  rw [h.aliasName]
  exact List.nodup_range.map aliasAt_injective

/-! ## One mention -/

section Add

variable {r : Registry} {t : MappedType} {primary : Bool}

theorem get?_isSome_iff : (r.get? t).isSome ↔ t ∈ r.entries.map (·.type) := by
  simp [get?, List.find?_isSome]

/-- A mention of a type that has an entry changes nothing and gives this entry. -/
theorem add_of_get? {e : Entry} (h : r.get? t = some e) :
    r.add t primary = r ∧ r.entry t primary = e := by
  rw [add, entry, h]
  exact ⟨rfl, rfl⟩

/-- The first mention of a type adds its entry. -/
theorem add_of_not_mem (h : t ∉ r.entries.map (·.type)) :
    (r.add t primary).entries =
      (if primary then r.entries.map Entry.demoted else r.entries) ++ [r.fresh t primary] := by
  have hget : r.get? t = none := by
    rw [← Option.not_isSome_iff_eq_none, get?_isSome_iff]
    exact h
  rw [add, hget]

/-- Passing on the primary role changes no names. -/
theorem map_demoted (f : Entry → α) (hf : ∀ e, f e.demoted = f e) (r : Registry) :
    (if primary then r.entries.map Entry.demoted else r.entries).map f = r.entries.map f := by
  split
  · rw [List.map_map]
    exact List.map_congr_left fun e _ => hf e
  · rfl

theorem names_prefix_add :
    r.entries.map Entry.names <+: (r.add t primary).entries.map Entry.names := by
  by_cases ht : t ∈ r.entries.map (·.type)
  · obtain ⟨e, he⟩ := Option.isSome_iff_exists.1 (get?_isSome_iff.2 ht)
    rw [(add_of_get? he).1]
  · rw [add_of_not_mem ht, List.map_append, map_demoted _ fun _ => rfl]
    exact List.prefix_append _ _

/-- After a mention the type has the entry that the mention gave. -/
theorem get?_add : (r.add t primary).get? t = some (r.entry t primary) := by
  by_cases ht : t ∈ r.entries.map (·.type)
  · obtain ⟨e, he⟩ := Option.isSome_iff_exists.1 (get?_isSome_iff.2 ht)
    rw [(add_of_get? he).1, (add_of_get? he).2, he]
  · have hothers : ((if primary then r.entries.map Entry.demoted else r.entries).find?
        fun e => e.type == t) = none := by
      rw [List.find?_eq_none]
      intro e he
      have htype := List.mem_map_of_mem (f := (·.type)) he
      rw [map_demoted _ fun _ => rfl] at htype
      simpa using fun heq : e.type = t => ht (heq ▸ htype)
    have hget : r.get? t = none := by
      rw [← Option.not_isSome_iff_eq_none, get?_isSome_iff]
      exact ht
    rw [get?, add_of_not_mem ht, List.find?_append, hothers, entry, hget]
    simp [fresh]

end Add

/-! ## The invariant -/

/-- The entries that a chain of mentions makes: their types in the order of the first mentions, and
the primary one among them, if there is one. -/
structure Reflects (mentions : List (MappedType × Bool)) (r : Registry) : Prop where
  types : r.entries.map (·.type) = (firstMentions mentions).map (·.1)
  primary : (r.entries.filter (·.isPrimary)).map (·.type) =
    (((firstMentions mentions).filter (·.2)).getLast?.map (·.1)).toList

namespace Reflects

variable {mentions : List (MappedType × Bool)} {r : Registry}

theorem empty (schema : String) : Reflects [] (empty schema) := ⟨rfl, rfl⟩

theorem add (h : Reflects mentions r) (m : MappedType × Bool) :
    Reflects (mentions ++ [m]) (r.add m.1 m.2) := by
  have hmem : m.1 ∈ r.entries.map (·.type) ↔ m.1 ∈ mentions.map (·.1) := by
    rw [h.types, mem_types_firstMentions]
  by_cases ht : m.1 ∈ r.entries.map (·.type)
  · obtain ⟨e, he⟩ := Option.isSome_iff_exists.1 (get?_isSome_iff.2 ht)
    rw [(add_of_get? he).1]
    constructor
    · rw [firstMentions_concat, if_pos (hmem.1 ht), h.types]
    · rw [firstMentions_concat, if_pos (hmem.1 ht), h.primary]
  · have hfirst : firstMentions (mentions ++ [m]) = firstMentions mentions ++ [m] := by
      rw [firstMentions_concat, if_neg (mt hmem.2 ht)]
    constructor
    · rw [add_of_not_mem ht, hfirst, List.map_append, map_demoted _ fun _ => rfl, h.types,
        List.map_append]
      rfl
    · rw [add_of_not_mem ht, hfirst, List.filter_append, List.filter_append, List.map_append]
      cases hp : m.2 with
      | false => simp [hp, fresh, h.primary]
      | true =>
        have hdemoted : (r.entries.map Entry.demoted).filter (·.isPrimary) = [] := by
          simp [List.filter_eq_nil_iff, Entry.demoted]
        simp [hp, hdemoted, fresh]

/-- **What a chain of mentions preserves.** -/
theorem addAll (schema : String) (mentions : List (MappedType × Bool)) :
    Reflects mentions ((Registry.empty schema).addAll mentions) := by
  induction mentions using List.reverseRecOn with
  | nil => exact .empty schema
  | append_singleton mentions m ih =>
    rw [Registry.addAll, List.foldl_append]
    exact ih.add m

theorem primary?_eq (h : Reflects mentions r) :
    r.primary?.map (·.type) = ((firstMentions mentions).filter (·.2)).getLast?.map (·.1) := by
  have hlist := congrArg List.head? h.primary
  rwa [List.head?_map, List.head?_filter, Option.head?_toList] at hlist

theorem length_primary_le (h : Reflects mentions r) :
    (r.entries.filter (·.isPrimary)).length ≤ 1 := by
  have hlist := congrArg List.length h.primary
  rw [List.length_map] at hlist
  rw [hlist]
  cases ((firstMentions mentions).filter (·.2)).getLast? <;> simp

end Reflects

theorem names_prefix_addAll (r : Registry) (mentions : List (MappedType × Bool)) :
    r.entries.map Entry.names <+: (r.addAll mentions).entries.map Entry.names := by
  induction mentions generalizing r with
  | nil => exact List.prefix_rfl
  | cons m mentions ih => exact names_prefix_add.trans (ih _)

@[simp] theorem defaultSchema_add (r : Registry) (t : MappedType) (primary : Bool) :
    (r.add t primary).defaultSchema = r.defaultSchema := by
  rw [add]
  split <;> rfl

theorem defaultSchema_addAll (r : Registry) (mentions : List (MappedType × Bool)) :
    (r.addAll mentions).defaultSchema = r.defaultSchema := by
  induction mentions generalizing r with
  | nil => rfl
  | cons m mentions ih => exact (ih _).trans (defaultSchema_add r m.1 m.2)

/-! ## Going on -/

/-- A registry that is made from another one by mentions. -/
def Extends (r' r : Registry) : Prop :=
  ∃ mentions, r' = r.addAll mentions

namespace Extends

variable {r r' r'' : Registry}

theorem refl (r : Registry) : r.Extends r := ⟨[], rfl⟩

theorem trans (h : r''.Extends r') (h' : r'.Extends r) : r''.Extends r := by
  obtain ⟨mentions, rfl⟩ := h'
  obtain ⟨more, rfl⟩ := h
  exact ⟨mentions ++ more, (List.foldl_append ..).symm⟩

theorem add (r : Registry) (t : MappedType) (primary : Bool) : (r.add t primary).Extends r :=
  ⟨[(t, primary)], rfl⟩

theorem numbered (h : r'.Extends r) (hr : r.Numbered) : r'.Numbered := by
  obtain ⟨mentions, rfl⟩ := h
  exact hr.addAll mentions

theorem names_prefix (h : r'.Extends r) :
    r.entries.map Entry.names <+: r'.entries.map Entry.names := by
  obtain ⟨mentions, rfl⟩ := h
  exact names_prefix_addAll r mentions

theorem length_le (h : r'.Extends r) : r.entries.length ≤ r'.entries.length := by
  have hlength := h.names_prefix.length_le
  rwa [List.length_map, List.length_map] at hlength

end Extends

/-- The entry that a mention gives is one of those after it. -/
theorem entry_mem (r : Registry) (t : MappedType) (primary : Bool) :
    r.entry t primary ∈ (r.add t primary).entries :=
  List.mem_of_find?_eq_some get?_add

/-- **The registry after any chain of mentions.** There is one entry for each mentioned type, in the
order of the first mentions, and the entry at a place is named for that place, so that no two share
an alias. Whatever is mentioned afterwards, the entries stay where they are and keep their names; a
mention of a type that has an entry changes nothing and gives that entry, and in every case the
entry given is the one found from then on. No more than one entry is primary, and this is the one
that was made last among those made to be primary. -/
theorem addAll_ordered (schema : String) (mentions more : List (MappedType × Bool)) :
    let r := (empty schema).addAll mentions
    (r.entries.map (·.type)).Nodup ∧
    (∀ t, t ∈ r.entries.map (·.type) ↔ t ∈ mentions.map (·.1)) ∧
    r.entries.map (·.type) = (firstMentions mentions).map (·.1) ∧
    r.entries.map (·.aliasName) = (List.range r.entries.length).map (fun k => "t" ++ toString k) ∧
    (r.entries.map (·.aliasName)).Nodup ∧
    (∀ e ∈ r.entries, e.qualifiedName = e.type.table.qualifiedName schema) ∧
    r.entries.map Entry.names <+: (r.addAll more).entries.map Entry.names ∧
    (∀ t primary e, r.get? t = some e → r.add t primary = r ∧ r.entry t primary = e) ∧
    (∀ t primary, (r.add t primary).get? t = some (r.entry t primary)) ∧
    (r.entries.filter (·.isPrimary)).length ≤ 1 ∧
    r.primary?.map (·.type) = ((firstMentions mentions).filter (·.2)).getLast?.map (·.1) := by
  intro r
  have hreflects : Reflects mentions r := .addAll schema mentions
  have hnumbered : Numbered r := (Numbered.empty schema).addAll mentions
  have hschema : r.defaultSchema = schema := defaultSchema_addAll _ _
  refine ⟨?_, ?_, hreflects.types, hnumbered.aliasName, hnumbered.nodup, ?_,
    names_prefix_addAll r more, fun _ _ _ => add_of_get?, fun _ _ => get?_add,
    hreflects.length_primary_le, hreflects.primary?_eq⟩
  · rw [hreflects.types]
    exact nodup_firstMentions
  · intro t
    rw [hreflects.types]
    exact mem_types_firstMentions
  · rw [← hschema]
    exact hnumbered.qualifiedName

end Registry

end SqlWright
