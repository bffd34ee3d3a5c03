import SqlWright.Proofs.Identifier.RoundTrip
import SqlWright.Proofs.Registry

/-!
# Names are told apart as they are written

A name in brackets can be found again at the front of any text that does not go on with a closing
bracket: the scanner stops at the first closing bracket that is not written twice, and inside the name
there is none. Unlike a reader of identifiers, the scanner asks nothing of the name, which may also be
empty. So the parts of an identifier can be scanned one after the other, and the qualified name of a table
tells its schema and its name, whatever brackets and dots these hold.
-/

namespace SqlWright

open Text

namespace Identifier

/-! ## One name -/

/-- A bracketed name at the front of a text, and what follows its brackets. -/
def bracketed? : List Char → Option (String × List Char)
  | '[' :: inside => (body? inside).map fun (name, rest) => (String.ofList name, rest)
  | _ => none

theorem Body.eq_doubled {body name : List Char} (h : Body body name) :
    body = Text.doubled ']' name := by
  induction h with
  | empty => rfl
  | closing _ ih => rw [Text.doubled, if_pos rfl, ih]
  | other hc _ ih => rw [Text.doubled, if_neg hc, ih]

/-- After the bracket that ends a body there is no other. -/
theorem body?_stops {cs name rest : List Char} (h : body? cs = some (name, rest)) :
    rest.head? ≠ some ']' := by
  fun_induction body? cs generalizing name with
  | case1 => cases h
  | case2 cs ih =>
    obtain ⟨⟨inner, tail⟩, hread, heq⟩ := Option.map_eq_some_iff.1 h
    cases heq
    exact ih hread
  | case3 cs hcs =>
    cases h
    intro hhead
    obtain ⟨tail, rfl⟩ := List.head?_eq_some_iff.1 hhead
    exact hcs tail rfl
  | case4 c cs _ _ ih =>
    obtain ⟨⟨inner, tail⟩, hread, heq⟩ := Option.map_eq_some_iff.1 h
    cases heq
    exact ih hread

theorem body?_eq_some {cs name rest : List Char} :
    body? cs = some (name, rest) ↔
      cs = doubled ']' name ++ ']' :: rest ∧ rest.head? ≠ some ']' := by
  constructor
  · intro h
    obtain ⟨body, hbody, rfl⟩ := body_of_body? h
    rw [hbody.eq_doubled]
    exact ⟨rfl, body?_stops h⟩
  · rintro ⟨rfl, hrest⟩
    exact body?_of_body (Body.doubled name) hrest

/-- The scanner finds what was written, and nothing else. -/
theorem bracketed?_eq_some {cs rest : List Char} {name : String} :
    bracketed? cs = some (name, rest) ↔
      cs = (bracketed name).toList ++ rest ∧ rest.head? ≠ some ']' := by
  rw [toList_bracketed, List.cons_append, List.append_assoc, List.singleton_append]
  constructor
  · intro h
    rw [bracketed?.eq_def] at h
    split at h
    · obtain ⟨⟨inner, tail⟩, hread, heq⟩ := Option.map_eq_some_iff.1 h
      cases heq
      obtain ⟨rfl, hrest⟩ := body?_eq_some.1 hread
      rw [String.toList_ofList]
      exact ⟨rfl, hrest⟩
    · cases h
  · rintro ⟨rfl, hrest⟩
    rw [bracketed?, body?_eq_some.2 ⟨rfl, hrest⟩, Option.map_some]
    dsimp only
    rw [String.ofList_toList]

/-- A name and what follows it are both known from the text that they make. -/
theorem bracketed_append_inj {name other : String} {rest more : List Char}
    (hrest : rest.head? ≠ some ']') (hmore : more.head? ≠ some ']')
    (h : (bracketed name).toList ++ rest = (bracketed other).toList ++ more) :
    name = other ∧ rest = more := by
  have hscan := bracketed?_eq_some.2 ⟨h, hmore⟩
  rw [bracketed?_eq_some.2 ⟨rfl, hrest⟩] at hscan
  cases hscan
  exact ⟨rfl, rfl⟩

/-! ## All parts -/

theorem head?_following (written : List (List Char)) : (following written).head? ≠ some ']' :=
  fun h => absurd (stops_following written _ h) (by decide)

/-- The brackets around the parts show where each part ends. -/
theorem intercalate_bracketed_inj {parts names : List String}
    (h : ['.'].intercalate (parts.map fun part => (bracketed part).toList) =
      ['.'].intercalate (names.map fun name => (bracketed name).toList)) : parts = names := by
  have hne (name : String) (more : List (List Char)) :
      ['.'].intercalate ((bracketed name).toList :: more) ≠ [] := by
    rw [intercalate_cons, toList_bracketed]
    exact List.cons_ne_nil _ _
  induction parts generalizing names with
  | nil =>
    cases names with
    | nil => rfl
    | cons name names => exact absurd h.symm (hne name _)
  | cons part parts ih =>
    cases names with
    | nil => exact absurd h (hne part _)
    | cons name names =>
      rw [List.map_cons, List.map_cons, intercalate_cons, intercalate_cons] at h
      obtain ⟨rfl, hfollowing⟩ := bracketed_append_inj (head?_following _) (head?_following _) h
      obtain ⟨hparts, hnames⟩ | ⟨-, -, hmore⟩ := following_eq hfollowing
      · rw [List.map_eq_nil_iff.1 hparts, List.map_eq_nil_iff.1 hnames]
      · rw [ih hmore]

/-- The written form tells identifiers apart, also those that cannot be read. -/
theorem text_injective : Function.Injective text := by
  intro i j h
  have hlist := congrArg String.toList h
  rw [toList_text, toList_text] at hlist
  obtain ⟨parts⟩ := i
  obtain ⟨names⟩ := j
  exact congrArg mk (intercalate_bracketed_inj hlist)

end Identifier

/-! ## Tables -/

namespace Table

/-- The parts of a qualified name tell the schema and the name, because a schema that is written is not
empty. -/
theorem parts_eq_iff {t u : Table} {schema other : String} :
    t.parts schema = u.parts other ↔
      t.effectiveSchema schema = u.effectiveSchema other ∧ t.name = u.name := by
  rw [parts, parts]
  by_cases ht : t.effectiveSchema schema = "" <;> by_cases hu : u.effectiveSchema other = ""
  · simp [ht, hu]
  · simp [ht, hu, Ne.symm hu]
  · simp [ht, hu]
  · simp [ht, hu]

theorem qualifiedName_inj {t u : Table} {schema other : String} :
    t.qualifiedName schema = u.qualifiedName other ↔ t.parts schema = u.parts other := by
  rw [qualifiedName_eq_text, qualifiedName_eq_text, Identifier.text_injective.eq_iff,
    Identifier.mk.injEq]

/-- **Qualified names identify tables.** Two tables have one qualified name, whatever the default schemas
are under which they are written, exactly if they have one schema, which is the declared one or else the
default and may be empty for none, and one name. This rests on names in brackets: the scanner finds a
name at the front of a text, and what follows it, exactly if the text is that name in brackets and then
what follows, and this does not begin with a closing bracket. -/
theorem qualifiedName_eq_iff :
    (∀ (t u : Table) (schema other : String),
      t.qualifiedName schema = u.qualifiedName other ↔
        t.effectiveSchema schema = u.effectiveSchema other ∧ t.name = u.name) ∧
    ∀ (cs : List Char) (name : String) (rest : List Char),
      Identifier.bracketed? cs = some (name, rest) ↔
        cs = (bracketed name).toList ++ rest ∧ rest.head? ≠ some ']' := by
  refine ⟨fun t u schema other => ?_, fun _ _ _ => Identifier.bracketed?_eq_some⟩
  rw [qualifiedName_inj, parts_eq_iff]

/-- A name with the brackets and the dot of a qualified one in it, beside a table that has the schema and
the name which it seems to have. -/
example :
    let t : Table := ⟨"a].[b", some "", []⟩
    let u : Table := ⟨"b", none, []⟩
    t.qualifiedName "a" = "[a]].[b]" ∧ u.qualifiedName "a" = "[a].[b]" := by
  decide

end Table

end SqlWright
