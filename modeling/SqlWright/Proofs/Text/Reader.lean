import SqlWright.Proofs.Text.Words

/-!
# A reader of formulas

A reader that knows quotes, parentheses and three words. It takes a text apart at a connective on
its surface; a text without one is negated if it begins with `NOT`, so this word binds tighter; and
in a group it reads what is inside if there is a connective to be found there. Whatever else a text
may be, the reader takes it as a leaf.
-/

namespace SqlWright

/-- A formula: leaves under negations and connectives. -/
inductive Formula (α : Type) where
  | leaf (a : α)
  | not (f : Formula α)
  | link (op : Connective) (l r : Formula α)
deriving DecidableEq, Repr

namespace Formula

variable {α β : Type}

/-- The formula with other leaves. -/
def map (g : α → β) : Formula α → Formula β
  | .leaf a => .leaf (g a)
  | .not f => .not (f.map g)
  | .link op l r => .link op (l.map g) (r.map g)

/-- The leaves, from left to right. -/
def leaves : Formula α → List α
  | .leaf a => [a]
  | .not f => f.leaves
  | .link _ l r => l.leaves ++ r.leaves

end Formula

namespace Text

/-! ## One step -/

/-- What follows the word `NOT` at the front of a text. -/
def negated? (t : String) : Option String :=
  match words (surface t) with
  | [] => none
  | w :: ws => if spells "NOT" w then some (String.ofList (ws.flatten.map Glyph.char)) else none

/-- What is inside the parentheses of a text that is one group. -/
def inside? (t : String) : Option String :=
  match surface t with
  | [] => none
  | g :: gs =>
    if g = .shown '(' ∧ gs.getLast? = some (.shown ')') ∧ ∀ h ∈ gs.dropLast, h.visible = false then
      some (String.ofList (gs.dropLast.map Glyph.char))
    else none

/-- What a reader makes of a text before it goes on with the parts. -/
inductive Shape where
  | leaf (t : String)
  | not (rest : String)
  | group (inner : String)
  | link (op : Connective) (l r : String)
deriving DecidableEq, Repr

/-- The shape of a text that shows no connective. A group belongs to a leaf if there is no
connective inside either. -/
def shapeAlone (t : String) : Shape :=
  match negated? t with
  | some rest => .not rest
  | none =>
    match inside? t with
    | some inner => if (split inner).2 = [] then .leaf t else .group inner
    | none => .leaf t

/-- The shape of a text. How several connectives beside each other are to be read is not known. -/
def shape (t : String) : Shape :=
  match split t with
  | (l, [(op, r)]) => .link op l r
  | (_, _ :: _ :: _) => .leaf (trim t)
  | (whole, []) => shapeAlone whole

/-! ## The parts of a text are shorter -/

theorem trim_length (t : String) : (trim t).length ≤ t.length := by
  obtain ⟨front, back, ht, -, -⟩ := toList_eq_trim t
  have hlength := congrArg List.length ht
  simp only [List.length_append, String.length_toList] at hlength
  omega

theorem spelled_length (ws : List (List Glyph)) : (spelled ws).length ≤ ws.flatten.length := by
  have htrim := trim_length (String.ofList (ws.flatten.map Glyph.char))
  rwa [String.length_ofList, List.length_map] at htrim

theorem connective?_length {w : List Glyph} {op : Connective} (h : connective? w = some op) :
    0 < w.length := by
  have hspells : spells op.keyword w = true := by
    simpa using List.find?_some h
  have hlength := congrArg List.length (spells_iff.1 hspells)
  rw [List.length_map, List.length_map] at hlength
  rw [hlength]
  cases op <;> decide

theorem cut_length (ws : List (List Glyph)) :
    (cut ws).1.flatten.length + (cut ws).2.length ≤ ws.flatten.length ∧
      ∀ part ∈ (cut ws).2, part.2.flatten.length < ws.flatten.length := by
  induction ws with
  | nil => exact ⟨Nat.le_refl 0, List.forall_mem_nil _⟩
  | cons w ws ih =>
    obtain ⟨hfirst, hparts⟩ := ih
    rw [cut, List.flatten_cons, List.length_append]
    cases hw : connective? w with
    | none =>
      simp only [List.flatten_cons, List.length_append]
      refine ⟨by omega, fun part hpart => ?_⟩
      have := hparts part hpart
      omega
    | some op =>
      have hpos := connective?_length hw
      simp only [List.flatten_nil, List.length_nil, List.length_cons]
      refine ⟨by omega, List.forall_mem_cons.2 ⟨?_, fun part hpart => ?_⟩⟩
      · show (cut ws).1.flatten.length < w.length + ws.flatten.length
        omega
      · have := hparts part hpart
        omega

theorem length_surface (t : String) : (surface t).length = t.length := by
  rw [← String.length_toList, ← map_char_surface, List.length_map]

theorem split_length (t : String) :
    (split t).1.length + (split t).2.length ≤ t.length ∧
      ∀ part ∈ (split t).2, part.2.length < t.length := by
  obtain ⟨hfirst, hparts⟩ := cut_length (words (surface t))
  rw [words, List.flatten_splitBy, length_surface, ← words] at hfirst hparts
  have hsplit : split t = (spelled (cut (words (surface t))).1,
      (cut (words (surface t))).2.map fun part => (part.1, spelled part.2)) := rfl
  rw [hsplit]
  constructor
  · have := spelled_length (cut (words (surface t))).1
    simp only [List.length_map]
    omega
  · intro part hpart
    obtain ⟨ws, hws, rfl⟩ := List.mem_map.1 hpart
    exact (spelled_length ws.2).trans_lt (hparts ws hws)

theorem negated?_length {t rest : String} (h : negated? t = some rest) :
    rest.length < t.length := by
  have hflatten : (words (surface t)).flatten.length = t.length := by
    rw [words, List.flatten_splitBy, length_surface]
  unfold negated? at h
  split at h
  · cases h
  · next w ws hwords =>
    split at h
    · next hnot =>
      cases h
      have hlength := congrArg List.length (spells_iff.1 hnot)
      rw [List.length_map, List.length_map] at hlength
      rw [hwords, List.flatten_cons, List.length_append, hlength] at hflatten
      rw [String.length_ofList, List.length_map, ← hflatten]
      exact Nat.lt_add_of_pos_left (by decide)
    · cases h

theorem inside?_length {t inner : String} (h : inside? t = some inner) :
    inner.length < t.length := by
  have hsurface := length_surface t
  unfold inside? at h
  split at h
  · cases h
  · next g gs heq =>
    split at h
    · cases h
      rw [heq, List.length_cons] at hsurface
      rw [String.length_ofList, List.length_map, List.length_dropLast]
      omega
    · cases h

/-- The parts that a reader goes on with. -/
def Shape.parts : Shape → List String
  | .leaf _ => []
  | .not rest => [rest]
  | .group inner => [inner]
  | .link _ l r => [l, r]

theorem shapeAlone_length {t part : String} (h : part ∈ (shapeAlone t).parts) :
    part.length < t.length := by
  unfold shapeAlone at h
  split at h
  · next rest hrest =>
    rw [List.mem_singleton.1 h]
    exact negated?_length hrest
  · split at h
    · next inner hinner =>
      split at h
      · cases h
      · rw [List.mem_singleton.1 h]
        exact inside?_length hinner
    · cases h

theorem shape_length {t part : String} (h : part ∈ (shape t).parts) : part.length < t.length := by
  obtain ⟨hfirst, hparts⟩ := split_length t
  unfold shape at h
  split at h
  · next l op r heq =>
    rw [heq] at hfirst hparts
    rcases List.mem_pair.1 h with rfl | rfl
    · exact Nat.lt_of_succ_le hfirst
    · exact hparts (op, part) List.mem_cons_self
  · cases h
  · next whole heq =>
    rw [heq] at hfirst
    exact (shapeAlone_length h).trans_le hfirst

/-! ## The whole text -/

/-- Reads a formula. Its leaves are texts without outer blanks. -/
def read (t : String) : Formula String :=
  match _h : shape t with
  | .leaf whole => .leaf whole
  | .not rest => .not (read rest)
  | .group inner => read inner
  | .link op l r => .link op (read l) (read r)
termination_by t.length
decreasing_by all_goals exact shape_length (by simp [_h, Shape.parts])

/-- A text is read by its shape. -/
theorem read_eq (t : String) :
    read t = match shape t with
      | .leaf whole => .leaf whole
      | .not rest => .not (read rest)
      | .group inner => read inner
      | .link op l r => .link op (read l) (read r) := by
  rw [read]
  split <;> rename_i h <;> simp only [h]

/-! ## Leaves -/

variable {t u : String}

theorem shape_eq (h : Unlinked t) : shape t = shapeAlone (trim t) := by
  rw [shape, h.split_eq]

/-- Outer blanks do not matter to a reader. -/
theorem read_congr (ht : Unlinked t) (hu : Unlinked u) (h : trim t = trim u) : read t = read u := by
  rw [read_eq, read_eq u, shape_eq ht, shape_eq hu, h]

/-- Nothing begins with `NOT` that has no `O`. -/
theorem negated?_eq_none (h : ∀ g ∈ surface t, g.visible = true → g.char.toUpper ≠ 'O') :
    negated? t = none := by
  unfold negated?
  split
  · rfl
  · next w ws hwords =>
    rw [if_neg]
    intro hnot
    obtain ⟨g, hg, hvisible, hletter⟩ := exists_of_spells hnot (c := 'O') (by decide)
    have hw : w ∈ words (surface t) := by simp [hwords]
    exact h g (mem_of_mem_words hw hg) hvisible hletter

/-- In a group only the parentheses around it are visible. -/
theorem inside?_eq_none (h : (∀ g ∈ surface t, g ≠ .shown '(') ∨
    ∃ g ∈ surface t, g.visible = true ∧ g.char ≠ '(' ∧ g.char ≠ ')') : inside? t = none := by
  unfold inside?
  split
  · rfl
  · next g gs hsurface =>
    rw [if_neg]
    rintro ⟨rfl, hlast, hhidden⟩
    rw [hsurface] at h
    rcases h with h | ⟨g, hg, hvisible, hopen, hclose⟩
    · exact h _ List.mem_cons_self rfl
    · rcases List.mem_cons.1 hg with rfl | hg
      · exact hopen rfl
      · obtain ⟨front, rfl⟩ := List.getLast?_eq_some_iff.1 hlast
        rw [List.dropLast_concat] at hhidden
        rcases List.mem_append.1 hg with hg | hg
        · rw [hhidden g hg] at hvisible
          cases hvisible
        · rw [List.mem_singleton.1 hg] at hclose
          exact hclose rfl

/-- A text is a leaf if it has no `O` to be seen and either no opening parenthesis or something else
than parentheses and blanks. -/
theorem read_leaf (ht : Unlinked t)
    (hletter : ∀ g ∈ surface t, g.visible = true → g.char.toUpper ≠ 'O')
    (h : (∀ g ∈ surface t, g ≠ .shown '(') ∨
      ∃ g ∈ surface t, g.visible = true ∧ isBlank g.char = false ∧ g.char ≠ '(' ∧ g.char ≠ ')') :
    read t = .leaf (trim t) := by
  obtain ⟨front, back, hsurface, hfront, hback⟩ := surface_eq_trim t
  have hmem {g : Glyph} (hg : g ∈ surface (trim t)) : g ∈ surface t := by
    simp [hsurface, hg]
  have hinside : inside? (trim t) = none := by
    refine inside?_eq_none (h.imp (fun h g hg => h g (hmem hg)) ?_)
    rintro ⟨g, hg, hvisible, hblank, hparens⟩
    refine ⟨g, ?_, hvisible, hparens⟩
    rw [hsurface, List.mem_append, List.mem_append] at hg
    rcases hg with (hg | hg) | hg
    · rw [hfront g hg] at hblank
      cases hblank
    · exact hg
    · rw [hback g hg] at hblank
      cases hblank
  rw [read_eq, shape_eq ht, shapeAlone, negated?_eq_none fun g hg => hletter g (hmem hg), hinside]

/-! ## Groups -/

theorem negated?_parenthesized (h : Closed t) : negated? (parenthesized t) = none := by
  refine negated?_eq_none fun g hg hvisible => ?_
  rcases eq_of_mem_surface_parenthesized h.nests hg hvisible with rfl | rfl <;> decide

theorem inside?_parenthesized (h : Closed t) : inside? (parenthesized t) = some t := by
  have hhidden : ∀ g ∈ t.toList.map Glyph.hidden, g.visible = false := by
    intro g hg
    obtain ⟨c, -, rfl⟩ := List.mem_map.1 hg
    rfl
  have hchars : (t.toList.map Glyph.hidden).map Glyph.char = t.toList := by
    rw [List.map_map]
    exact List.map_id _
  simp only [inside?, surface_parenthesized h.nests, List.getLast?_concat, List.dropLast_concat,
    true_and]
  rw [if_pos hhidden, hchars, String.ofList_toList]

theorem shape_parenthesized (h : Closed t) :
    shape (parenthesized t) =
      if (split t).2 = [] then .leaf (parenthesized t) else .group t := by
  rw [shape_eq (.parenthesized h), trim_parenthesized, shapeAlone, negated?_parenthesized h,
    inside?_parenthesized h]

/-- A group is a leaf if no connective is inside it. -/
theorem read_parenthesized (h : Unlinked t) : read (parenthesized t) = .leaf (parenthesized t) := by
  rw [read_eq, shape_parenthesized h.closed, if_pos]
  rw [h.split_eq]

/-- Two texts that are linked in a group are read one by one. -/
theorem read_link (ht : Unlinked t) (hu : Unlinked u) (op : Connective) :
    read (parenthesized (t ++ (" " ++ op.keyword ++ " ") ++ u)) =
      .link op (read t) (read u) := by
  have hsplit := split_link ht.closed.nests ht.unlinked hu.closed.nests op
  rw [hu.split_eq] at hsplit
  have hgroup : shape (parenthesized (t ++ (" " ++ op.keyword ++ " ") ++ u)) =
      .group (t ++ (" " ++ op.keyword ++ " ") ++ u) := by
    rw [shape_parenthesized (link_closed ht.closed hu.closed op), hsplit]
    rfl
  have hshape : shape (t ++ (" " ++ op.keyword ++ " ") ++ u) = .link op (trim t) (trim u) := by
    rw [shape, hsplit]
  rw [read_eq, hgroup]
  show read (t ++ (" " ++ op.keyword ++ " ") ++ u) = _
  rw [read_eq, hshape]
  show Formula.link op (read (trim t)) (read (trim u)) = _
  rw [read_congr ht.trim ht (trim_trim t), read_congr hu.trim hu (trim_trim u)]

/-! ## Negations -/

/-- Behind `NOT` a text keeps the blanks at its front. -/
theorem trim_negated (hne : trim t ≠ "") :
    ∃ front : List Char, (∀ c ∈ front, isBlank c = true) ∧
      trim ("NOT " ++ t) = "NOT" ++ (String.ofList (' ' :: front) ++ trim t) := by
  obtain ⟨front, back, ht, hfront, hback⟩ := toList_eq_trim t
  refine ⟨front, hfront, ?_⟩
  have hlist : ("NOT " ++ t).toList =
      [] ++ ("NOT" ++ (String.ofList (' ' :: front) ++ trim t)).toList ++ back := by
    have hnot : "NOT ".toList = "NOT".toList ++ [' '] := by decide
    simp [ht, hnot]
  have hlast : (trim t).toList ≠ [] := fun h => hne (String.toList_eq_nil_iff.1 h)
  rw [trim_blanks (List.forall_mem_nil _) hback hlist]
  refine trim_eq_self ?_ ?_
  · rw [String.toList_append]
    rintro _ ⟨⟩
    decide
  · rw [String.toList_append, String.toList_append, ← List.append_assoc,
      List.getLast?_append_of_ne_nil _ hlast]
    exact getLast?_trim t

theorem words_not (h : Closed t) (hopens : opensApart t = true) :
    words (surface ("NOT" ++ t)) = "NOT".toList.map .shown :: words (surface t) := by
  have hnot : Closed "NOT" := .of_inert (by decide)
  have hword : words (surface "NOT") = ["NOT".toList.map .shown] := by decide
  rw [words_surface_append hnot.nests h.nests (.inr hopens), hword]
  rfl

theorem shapeAlone_not (h : Closed t) (hopens : opensApart t = true) :
    shapeAlone ("NOT" ++ t) = .not t := by
  have hspells : spells "NOT" ("NOT".toList.map .shown) = true := by decide
  rw [shapeAlone, negated?, words_not h hopens]
  simp only [hspells, if_true, toList_words_surface, String.ofList_toList]

theorem unlinked_of_not (h : Closed t) (hopens : opensApart t = true)
    (hnot : Unlinked ("NOT" ++ t)) : Unlinked t := by
  refine ⟨h, fun w hw => hnot.unlinked w ?_⟩
  rw [words_not h hopens]
  exact List.mem_cons_of_mem _ hw

/-- What is behind `NOT` is read by itself. -/
theorem read_not (h : Unlinked t) (hne : trim t ≠ "") : read ("NOT " ++ t) = .not (read t) := by
  obtain ⟨front, hfront, htrim⟩ := trim_negated hne
  have hblanks : ∀ c ∈ ' ' :: front, isBlank c = true := List.forall_mem_cons.2 ⟨by decide, hfront⟩
  have hword : Unlinked "NOT " := .plain (by decide) (by decide)
  have hnegated := hword.append h (.inl (by decide))
  generalize hrest : String.ofList (' ' :: front) ++ trim t = rest at htrim
  have hlist : rest.toList = (' ' :: front) ++ (trim t).toList ++ [] := by
    rw [← hrest, String.toList_append, String.toList_ofList, List.append_nil]
  have hclosed : Closed rest := by
    have hinert : (String.ofList (' ' :: front)).toList.all Closed.isInert = true := by
      rw [String.toList_ofList]
      exact List.all_eq_true.2 fun c hc => isInert_of_isBlank (hblanks c hc)
    exact hrest ▸ (Closed.of_inert hinert).append h.closed.trim
  have hopens : opensApart rest = true := by
    rw [opensApart, hlist]
    rfl
  have hunlinked : Unlinked rest := unlinked_of_not hclosed hopens (htrim ▸ hnegated.trim)
  have hsame : trim rest = trim t := by
    rw [trim_blanks hblanks (List.forall_mem_nil _) hlist, trim_trim]
  rw [read_eq, shape_eq hnegated, htrim, shapeAlone_not hclosed hopens]
  exact congrArg Formula.not (read_congr hunlinked h hsame)

end Text

end SqlWright
