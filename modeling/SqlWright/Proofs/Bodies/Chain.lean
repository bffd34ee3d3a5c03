import SqlWright.Proofs.Bodies.Outline
import SqlWright.Proofs.Failure.Chain

/-!
# Empty bodies

Which calls on a query are refused because they have no text to add, and which of those that are not
refused leave a body of the finished query empty. Conditions on a type, grouping keys and sort keys
are looked at before they are taken, and plain keys must not be missing. Nothing looks at the
condition of a join, at the condition on groups, and at whether a list with a keyword of its own has
a member, nor at the texts that a caller wrote.
-/

namespace SqlWright

open Text Outcome

namespace Grouping

/-- Whether the grouping is refused: some key has no text, or there is no plain key. -/
def isRefused : Grouping → Bool
  | .keys es => es.isEmpty || es.any Expr.isSilent
  | .rollup es | .cube es => es.any Expr.isSilent
  | .sets lists => lists.any fun es => es.any Expr.isSilent
  | .total => false

/-- Whether the grouping is a keyword around a list without members. -/
def isBare : Grouping → Bool
  | .rollup es | .cube es => es.isEmpty
  | .sets lists => lists.isEmpty
  | .keys _ | .total => false

end Grouping

namespace Select

/-- Whether a call is refused for having no text. -/
def Step.isRefused : Step → Bool
  | .addCondition _ condition _ => condition.isSilent
  | .groupBy _ g _ => g.isRefused
  | .orderBy _ key _ => key.isSilent
  | .fromType _ | .selectAll _ | .selectItems _ _ | .selectEvery | .selectDistinct | .limit _
  | .addHints _ | .intoType _ | .intoTable _ | .join _ _ _ _ | .crossJoin _ _ | .joinRaw _ _ _
  | .addConditionRaw _ _ => false

/-- Whether a call leaves a body of this place empty if it is taken. -/
def Step.leavesEmpty : Step → Place → Bool
  | .join _ _ condition _, .on => condition.isSilent
  | .joinRaw _ condition kind, .on => kind != .cross && !speaks condition
  | .addConditionRaw condition _, .condition => !speaks condition
  | .groupBy _ g _, .groupingList => g.isBare
  | .groupBy _ _ having, .having => having.any Expr.isSilent
  | _, _ => false

end Select

/-! ## Guarded texts -/

/-- An expression whose text was looked at before it was taken. -/
theorem Expr.of_guarded {e : Expr} {s : Scope} {named : Bool} {text : String} {fault : Error}
    (h : (do
      let text ← e.compile s named
      if text = "" then .error fault else .ok text : Outcome String) = .ok text) :
    e.isSilent = false ∧ speaks text = true := by
  obtain ⟨compiled, hcompiled, h⟩ := bind_eq_ok.1 h
  have htext := compile_textOf hcompiled
  split at h
  · cases h
  · next hne =>
    cases h
    have hsilent : e.isSilent = false := Bool.eq_false_iff.2 fun h => hne (htext.eq_empty_iff.2 h)
    exact ⟨hsilent, by rw [htext.speaks_eq, hsilent]; rfl⟩

namespace Draft

variable {d : Draft} {t : MappedType}

/-- Keys that are taken all have texts, and their list is empty if there are none. -/
theorem of_keys {es : List Expr} {texts : List String} (h : es.mapM (d.keyText t) = .ok texts) :
    es.any Expr.isSilent = false ∧ (∀ key ∈ texts, speaks key = true) ∧
      (!speaks (String.intercalate "," texts)) = es.isEmpty := by
  have hspeaks : ∀ key ∈ texts, speaks key = true :=
    forall_mem_of_mapM h fun e _ text htext => (Expr.of_guarded htext).2
  refine ⟨?_, hspeaks, ?_⟩
  · rw [List.any_eq_false]
    intro e he
    obtain ⟨text, -, htext⟩ := exists_mem_of_mapM h he
    exact Bool.eq_false_iff.1 (Expr.of_guarded htext).1
  · rw [(TextOf.list hspeaks).speaks_eq, isEmpty_of_mapM h, Bool.not_not]

/-- A grouping that is taken has texts for all of its keys, and its list is empty if it is a bare
keyword. -/
theorem of_keyTexts {g : Grouping} {keys : KeyTexts} (h : d.keyTexts t g = .ok keys) :
    g.isRefused = false ∧ (∀ key ∈ keys.all, speaks key = true) ∧
      keys.list?.any (fun list => !speaks list) = g.isBare := by
  cases g with
  | keys es =>
    rw [keyTexts] at h
    split at h
    · cases h
    · next hne =>
      rw [Bool.not_eq_true] at hne
      obtain ⟨texts, htexts, rfl⟩ := map_eq_ok.1 h
      obtain ⟨hsilent, hspeaks, hlist⟩ := of_keys htexts
      exact ⟨Bool.or_eq_false_iff.2 ⟨hne, hsilent⟩, hspeaks, hlist.trans hne⟩
  | rollup es | cube es =>
    obtain ⟨texts, htexts, rfl⟩ := map_eq_ok.1 h
    exact of_keys htexts
  | sets lists =>
    obtain ⟨texts, htexts, rfl⟩ := map_eq_ok.1 h
    have hgroups : ∀ text ∈ texts.map fun list => parenthesized (String.intercalate "," list),
        speaks text = true := by
      rw [List.forall_mem_map]
      exact fun list _ => speaks_parenthesized _
    refine ⟨?_, ?_, ?_⟩
    · rw [Grouping.isRefused, List.any_eq_false]
      intro es hes
      obtain ⟨list, -, hlist⟩ := exists_mem_of_mapM htexts hes
      exact Bool.eq_false_iff.1 (of_keys hlist).1
    · rw [KeyTexts.all, List.forall_mem_flatten]
      exact forall_mem_of_mapM htexts fun es _ list hlist => (of_keys hlist).2.1
    · show (!speaks (String.intercalate "," _)) = lists.isEmpty
      rw [(TextOf.list hgroups).speaks_eq, List.isEmpty_map, isEmpty_of_mapM htexts, Bool.not_not]
  | total =>
    cases h
    exact ⟨rfl, List.forall_mem_nil _, rfl⟩

theorem of_groupTexts {g : Grouping} {having : Option Expr} {group : GroupTexts}
    (h : d.groupTexts t g having = .ok group) :
    d.keyTexts t g = .ok group.keys ∧
      group.having.any (fun text => !speaks text) = having.any Expr.isSilent := by
  obtain ⟨keys, hkeys, h⟩ := bind_eq_ok.1 h
  cases having with
  | none =>
    cases h
    exact ⟨hkeys, rfl⟩
  | some condition =>
    obtain ⟨text, htext, h⟩ := bind_eq_ok.1 h
    cases h
    refine ⟨hkeys, ?_⟩
    show (!speaks text) = condition.isSilent
    rw [(Expr.compile_textOf htext).speaks_eq, Bool.not_not]

/-- What a grouping that is taken leaves empty. -/
theorem hasEmpty_of_groupTexts {g : Grouping} {having : Option Expr} {group : GroupTexts}
    (h : d.groupTexts t g having = .ok group) (place : Place) :
    { Outline.empty with group := some group }.HasEmpty place ↔
      (Select.Step.groupBy t g having).leavesEmpty place = true := by
  obtain ⟨hkeyTexts, hhaving⟩ := of_groupTexts h
  obtain ⟨-, hkeys, hlist⟩ := of_keyTexts hkeyTexts
  cases place with
  | groupingKey => simpa [Outline.HasEmpty, Outline.bodies, Select.Step.leavesEmpty] using hkeys
  | _ =>
    simp [Outline.HasEmpty, Outline.bodies, Outline.empty, Select.Step.leavesEmpty, ← hlist,
      ← hhaving, Option.any_eq_true]

end Draft

/-! ## One call -/

namespace Select

variable {q : Select} {o : Outline} {call : Step} {calls : List Step}

theorem failure?_orderBy (q : Select) (t : MappedType) (key : Expr) (direction : Direction) :
    q.failure? (.orderBy t key direction) = error? ((q.mention t).draft.sortText t key) := by
  rw [failure?, Draft.sortText]
  cases (q.mention t).draft.compile t false key with
  | error e => rfl
  | ok text =>
    simp only [ok_bind]
    split <;> rfl

/-- **What one call adds.** A call that is taken is not refused, and it leaves just those bodies
empty that it is said to leave empty. -/
theorem adds_hasEmpty (h : q.failure? call = none) :
    call.isRefused = false ∧
      ∀ place, (q.adds call).HasEmpty place ↔ call.leavesEmpty place = true := by
  cases call with
  | join left right condition kind =>
    obtain ⟨joins, hjoins⟩ := eq_ok_of_error?_eq_none h
    rw [Joins.add_eq_append] at hjoins
    obtain ⟨more, hmore, -⟩ := map_eq_ok.1 hjoins
    obtain ⟨-, text, htext, rfl⟩ := Joins.add_eq_ok hmore
    have hspeaks := (Expr.compile_textOf htext).speaks_eq
    refine ⟨rfl, fun place => ?_⟩
    rw [adds, hmore]
    cases place <;> simp [Outline.HasEmpty, Outline.bodies, Outline.empty, Step.leavesEmpty,
      Except.toOption, hspeaks]
  | crossJoin left right =>
    obtain ⟨joins, hjoins⟩ := eq_ok_of_error?_eq_none h
    rw [Joins.addCross_eq_append] at hjoins
    obtain ⟨more, hmore, -⟩ := map_eq_ok.1 hjoins
    obtain ⟨-, rfl⟩ := Joins.addCross_eq_ok hmore
    refine ⟨rfl, fun place => ?_⟩
    rw [adds, hmore]
    cases place <;> simp [Outline.HasEmpty, Outline.bodies, Outline.empty, Step.leavesEmpty,
      Except.toOption]
  | joinRaw table condition kind =>
    obtain ⟨name, hname⟩ := eq_ok_of_error?_eq_none h
    refine ⟨rfl, fun place => ?_⟩
    rw [adds, Joins.addRaw, hname]
    cases place <;> simp [Outline.HasEmpty, Outline.bodies, Outline.empty, Step.leavesEmpty,
      Except.toOption, Except.map]
  | addCondition t condition op =>
    rw [failure?, Conditions.add_eq, error?_map] at h
    obtain ⟨text, htext⟩ := eq_ok_of_error?_eq_none h
    obtain ⟨hsilent, hspeaks⟩ := Expr.of_guarded htext
    refine ⟨hsilent, fun place => ?_⟩
    rw [adds, htext]
    cases place <;> simp [Outline.HasEmpty, Outline.bodies, Outline.empty, Step.leavesEmpty,
      Conditions.granted, Except.toOption, hspeaks]
  | groupBy t g having =>
    rw [failure?] at h
    split at h
    · cases h
    · rw [Draft.groupClause_eq, error?_map] at h
      obtain ⟨group, hgroup⟩ := eq_ok_of_error?_eq_none h
      refine ⟨(Draft.of_keyTexts (Draft.of_groupTexts hgroup).1).1, fun place => ?_⟩
      rw [adds, hgroup]
      exact Draft.hasEmpty_of_groupTexts hgroup place
  | orderBy t key direction =>
    rw [failure?_orderBy] at h
    obtain ⟨text, htext⟩ := eq_ok_of_error?_eq_none h
    obtain ⟨hsilent, hspeaks⟩ := Expr.of_guarded htext
    refine ⟨hsilent, fun place => ?_⟩
    rw [adds, htext]
    cases place <;> simp [Outline.HasEmpty, Outline.bodies, Outline.empty, Step.leavesEmpty,
      Except.toOption, Except.map, hspeaks]
  | addConditionRaw _ _ | fromType _ | selectAll _ | selectItems _ _ | selectEvery
  | selectDistinct | limit _ | addHints _ | intoType _ | intoTable _ =>
    refine ⟨rfl, fun place => ?_⟩
    cases place <;> simp [Outline.HasEmpty, Outline.bodies, adds, Outline.empty, Step.leavesEmpty]

/-- Only one call of those that are taken has a grouping. -/
theorem HasOutline.group_eq_none_or (h : q.HasOutline o) (hf : q.failure? call = none) :
    o.group = none ∨ (q.adds call).group = none := by
  cases call with
  | groupBy t g having =>
    left
    rw [failure?] at hf
    split at hf
    · cases hf
    · next hgroup =>
      rw [h.group, Option.isSome_map, Bool.not_eq_true, Option.isSome_eq_false_iff,
        Option.isNone_iff_eq_none] at hgroup
      exact hgroup
  | _ => exact .inr rfl

/-! ## A chain of calls -/

/-- **A chain of calls.** None of the calls that are taken is refused, and the empty bodies are
those that one of them is said to leave empty. -/
theorem HasOutline.hasEmpty_run (h : q.HasOutline o)
    (hf : firstFailure? Select.step failure? q calls = none) :
    (∀ call ∈ calls, call.isRefused = false) ∧
      ∀ place, (o.append (q.outline calls)).HasEmpty place ↔
        o.HasEmpty place ∨ ∃ call ∈ calls, call.leavesEmpty place = true := by
  induction calls generalizing q o with
  | nil =>
    refine ⟨List.forall_mem_nil _, fun place => ?_⟩
    rw [outline, Outline.append_empty]
    simp
  | cons call calls ih =>
    rw [firstFailure?_cons, Option.or_eq_none_iff] at hf
    obtain ⟨hrefused, hcall⟩ := adds_hasEmpty hf.1
    obtain ⟨hall, hcalls⟩ := ih (h.step call) hf.2
    refine ⟨List.forall_mem_cons.2 ⟨hrefused, hall⟩, fun place => ?_⟩
    rw [outline, ← Outline.append_assoc, hcalls,
      Outline.hasEmpty_append (h.group_eq_none_or hf.1), hcall, or_assoc, List.exists_mem_cons_iff]

end Select

namespace Chain

/-- **Empty bodies.** A built query is the text up to its joins and the text of the outline of its
calls. No call is refused for having no text, so every condition on a type, every grouping key and
every sort key has a text. A body is empty just if some call leaves it so: a join on a condition
without any text, a grouping that is a bare keyword, a condition on groups without any text, or a
blank text of the caller. -/
theorem build_hasEmpty_iff (settings : Settings) (calls : List Select.Step) {text : String}
    (h : (selected settings calls).build = .ok text) :
    let o := (Select.new settings).outline calls
    (∃ primary, (selected settings calls).draft.registry.primary? = some primary ∧
      text = (selected settings calls).frontText primary ++ o.text ++ ";") ∧
    (∀ call ∈ calls, call.isRefused = false) ∧
    ∀ place, o.HasEmpty place ↔ ∃ call ∈ calls, call.leavesEmpty place = true := by
  intro o
  have hstart := Select.HasOutline.new settings
  have hnew : Outline.empty.append o = o := rfl
  obtain ⟨body, hbody, rfl⟩ := map_eq_ok.1 h
  obtain ⟨hfault, hbody⟩ := Draft.finish_eq_ok hbody
  refine ⟨?_, ?_⟩
  · split at hbody
    · cases hbody
    · next primary hp =>
      cases hbody
      have hclauses : (selected settings calls).clausesText = o.text :=
        (hstart.run calls).clausesText
      refine ⟨primary, hp, ?_⟩
      rw [← hclauses]
      rfl
  · have hfirst : firstFailure? Select.step Select.failure? (.new settings) calls = none :=
      (Select.run_fault (.new settings) calls).symm.trans hfault
    obtain ⟨hrefused, hempty⟩ := hstart.hasEmpty_run hfirst
    refine ⟨hrefused, fun place => ?_⟩
    rw [← hnew, hempty, or_iff_right (Outline.not_hasEmpty_empty place)]

/-- A query with a body in every place. The two that are empty are the list of the grouping and the
condition on groups. -/
theorem build_hasEmpty_of_rollup :
    let employee : MappedType := ⟨"Employee", "Employee", none, [Column.plain "Id" "Id"]⟩
    let department : MappedType := ⟨"Department", "Department", none, [Column.plain "Id" "Id"]⟩
    let id := Expr.column employee "Id"
    let calls : List Select.Step :=
      [.fromType employee,
        .join employee department (.binary .equal id (.column department "Id")) .left,
        .addCondition employee (.binary .greaterThan id (.constant (.int 1))) .and,
        .groupBy employee (.rollup []) (some (.parameter employee)),
        .orderBy employee id .descending]
    let o := (Select.new .default).outline calls
    (selected .default calls).build = .ok ("SELECT * FROM [dbo].[Employee] [t0] " ++
      "LEFT JOIN [dbo].[Department] [t1] WITH (NOLOCK) ON (t0.[Id] = t1.[Id]) " ++
      "WHERE (t0.[Id] > 1) GROUP BY ROLLUP () HAVING  ORDER BY t0.[Id] DESC;") ∧
    ∀ place, o.HasEmpty place ↔ place = .groupingList ∨ place = .having := by
  intro employee department id calls o
  have hbuild : (selected .default calls).build = .ok ("SELECT * FROM [dbo].[Employee] [t0] " ++
      "LEFT JOIN [dbo].[Department] [t1] WITH (NOLOCK) ON (t0.[Id] = t1.[Id]) " ++
      "WHERE (t0.[Id] > 1) GROUP BY ROLLUP () HAVING  ORDER BY t0.[Id] DESC;") := by
    decide +kernel
  obtain ⟨-, -, hempty⟩ := build_hasEmpty_iff .default calls hbuild
  refine ⟨hbuild, fun place => (hempty place).trans ?_⟩
  cases place <;> decide +kernel

/-- A query with three empty bodies: a join on a row as a whole, a cube of no keys, and a conversion
of a row as the condition on groups. -/
theorem build_hasEmpty_unguarded :
    let employee : MappedType := ⟨"Employee", "Employee", none, [Column.plain "Id" "Id"]⟩
    let department : MappedType := ⟨"Department", "Department", none, [Column.plain "Id" "Id"]⟩
    let row := Expr.parameter employee
    let calls : List Select.Step :=
      [.fromType employee, .join employee department row .inner,
        .groupBy employee (.cube []) (some (.unary .convert row))]
    let o := (Select.new .default).outline calls
    (selected .default calls).build = .ok ("SELECT * FROM [dbo].[Employee] [t0] " ++
      "INNER JOIN [dbo].[Department] [t1] WITH (NOLOCK) ON  GROUP BY CUBE () HAVING ;") ∧
    o.HasEmpty .on ∧ o.HasEmpty .groupingList ∧ o.HasEmpty .having := by
  decide +kernel

end Chain

end SqlWright
