import SqlWright.Proofs.Text.Closed

/-!
# The surface of a text

Which characters of a text stand outside its string literals, its bracketed names and its
parentheses. The surface of a balanced text is the same wherever the text stands, except inside a
parenthesis, where it is hidden altogether.
-/

namespace SqlWright.Text

/-- A character of a text, and whether it is on the surface. -/
structure Glyph where
  char : Char
  visible : Bool
deriving DecidableEq, Repr

/-- A character that is on the surface. -/
def Glyph.shown (c : Char) : Glyph := ⟨c, true⟩

/-- A character that is not on the surface. -/
def Glyph.hidden (c : Char) : Glyph := ⟨c, false⟩

namespace Mode

/-- How many parentheses are open after a character. A parenthesis that closes none leaves none. -/
def depthAfter (m : Mode) (depth : Nat) (c : Char) : Nat :=
  (nesting depth (m.step c).2).getD 0

/-- Whether a character is on the surface: it is read as code, and no parenthesis is open before it
or none after it. So the outermost parentheses are on the surface themselves. -/
def shows (m : Mode) (depth : Nat) (c : Char) : Bool :=
  (m.step c).2 == [.code c] && (depth == 0 || m.depthAfter depth c == 0)

/-- Some characters as they are read inside `depth` parentheses. -/
def surface (m : Mode) (depth : Nat) : List Char → List Glyph
  | [] => []
  | c :: cs => ⟨c, m.shows depth c⟩ :: surface (m.step c).1 (m.depthAfter depth c) cs

end Mode

/-- The characters of a text, with the surface marked. -/
def surface (t : String) : List Glyph :=
  Mode.code.surface 0 t.toList

namespace Mode

variable {m : Mode} {d e : Nat} {cs : List Char}

theorem map_char_surface (m : Mode) (d : Nat) (cs : List Char) :
    (m.surface d cs).map Glyph.char = cs := by
  induction cs generalizing m d with
  | nil => rfl
  | cons c cs ih => rw [surface, List.map_cons, ih]

/-- Only code is on the surface. -/
theorem code_of_mem_surface {g : Glyph} (h : g ∈ m.surface d cs) (hv : g.visible = true) :
    .code g.char ∈ m.marks cs := by
  induction cs generalizing m d with
  | nil => cases h
  | cons c cs ih =>
    rw [marks, List.mem_append]
    rcases List.mem_cons.1 h with rfl | h
    · simp only [shows, Bool.and_eq_true, beq_iff_eq] at hv
      rw [hv.1]
      exact .inl List.mem_cons_self
    · exact .inr (ih h)

/-! ## Characters one after the other -/

theorem depthAfter_eq {c : Char} (h : nesting d (m.step c).2 = some e) : m.depthAfter d c = e := by
  rw [depthAfter, h]
  rfl

theorem nesting_marks_cons {c : Char} (h : nesting d (m.marks (c :: cs)) = some e) :
    ∃ f, nesting d (m.step c).2 = some f ∧ nesting f ((m.step c).1.marks cs) = some e := by
  rw [marks, nesting_append] at h
  exact Option.bind_eq_some_iff.1 h

theorem surface_append (h : nesting d (m.marks cs) = some e) (ds : List Char) :
    m.surface d (cs ++ ds) = m.surface d cs ++ (m.after cs).surface e ds := by
  induction cs generalizing m d with
  | nil =>
    cases h
    rfl
  | cons c cs ih =>
    obtain ⟨f, hf, hrest⟩ := nesting_marks_cons h
    rw [List.cons_append, surface, surface, after, depthAfter_eq hf, ih hrest, List.cons_append]

/-- What is read later does not change the surface of what is read first. -/
theorem surface_prefix (m : Mode) (d : Nat) (cs ds : List Char) :
    ∃ more, m.surface d (cs ++ ds) = m.surface d cs ++ more ∧ more.map Glyph.char = ds := by
  induction cs generalizing m d with
  | nil => exact ⟨m.surface d ds, rfl, map_char_surface m d ds⟩
  | cons c cs ih =>
    obtain ⟨more, hmore, hchars⟩ := ih (m.step c).1 (m.depthAfter d c)
    exact ⟨more, by rw [List.cons_append, surface, surface, hmore, List.cons_append], hchars⟩

theorem joined_eq_code_iff (m : Mode) (c d : Char) :
    m.joined (enter c).2 = [.code d] ↔ (enter c).2 = [.code d] := by
  unfold enter
  split
  · cases m <;> simp [joined]
  · split <;> cases m <;> simp [joined]

/-- A text has the same surface after any other that ends outside its quotes. -/
theorem surface_of_isOutside (hm : m.isOutside = true) (hb : cs.head? ≠ some ']') (d : Nat) :
    m.surface d cs = Mode.code.surface d cs := by
  cases cs with
  | nil => rfl
  | cons c cs =>
    obtain ⟨hafter, hfound⟩ := step_eq_or hm (fun h => hb (congrArg some h))
    have hdepth : m.depthAfter d c = Mode.code.depthAfter d c := by
      rw [depthAfter, hfound, nesting_joined]
      rfl
    have hshows : m.shows d c = Mode.code.shows d c := by
      have hcode : ((m.step c).2 == [.code c]) = ((Mode.code.step c).2 == [.code c]) := by
        rw [hfound, step, Bool.eq_iff_iff, beq_iff_eq, beq_iff_eq, joined_eq_code_iff]
      rw [shows, shows, hcode, hdepth]
    rw [surface, surface, hshows, hdepth, hafter]
    rfl

/-- Inside a further parenthesis nothing is on the surface. -/
theorem surface_under (h : nesting d (m.marks cs) = some e) :
    m.surface (d + 1) cs = cs.map Glyph.hidden := by
  induction cs generalizing m d with
  | nil => rfl
  | cons c cs ih =>
    obtain ⟨f, hf, hrest⟩ := nesting_marks_cons h
    have hdepth := depthAfter_eq (nesting_add hf 1)
    have hshows : m.shows (d + 1) c = false := by simp [shows, hdepth]
    rw [surface, hshows, hdepth, ih hrest]
    rfl

/-- Characters that open and close nothing are on the surface. -/
theorem surface_inert_append (h : cs.all Closed.isInert = true) (ds : List Char) :
    Mode.code.surface 0 (cs ++ ds) = cs.map Glyph.shown ++ Mode.code.surface 0 ds := by
  induction cs with
  | nil => rfl
  | cons c cs ih =>
    simp only [List.all_cons, Bool.and_eq_true, Closed.isInert, bne_iff_ne] at h
    obtain ⟨⟨⟨hp, ho⟩, hc⟩, hrest⟩ := h
    have hstep : Mode.code.step c = (.code, [.code c]) := step_plain rfl hp
    have hdepth : Mode.code.depthAfter 0 c = 0 := by
      rw [depthAfter, hstep]
      simp [nesting, Mark.nest, ho, hc]
    have hshows : Mode.code.shows 0 c = true := by simp [shows, hstep]
    rw [List.cons_append, surface, hshows, hdepth, hstep, ih hrest]
    rfl

end Mode

/-! ## Balanced texts -/

variable {t u : String}

theorem map_char_surface (t : String) : (surface t).map Glyph.char = t.toList :=
  Mode.map_char_surface _ _ _

theorem surface_append (ht : Balanced t) (hu : Balanced u) :
    surface (t ++ u) = surface t ++ surface u := by
  have hhead := Mode.head?_ne_of_not_mem hu.no_bracket
  rw [surface, String.toList_append, Mode.surface_append ht.nesting,
    Mode.surface_of_isOutside ht.isSealed hhead]
  rfl

/-- A text in which nothing is quoted or in parentheses is all surface. -/
theorem surface_inert (h : t.toList.all Closed.isInert = true) :
    surface t = t.toList.map Glyph.shown := by
  have happend := Mode.surface_inert_append h []
  rwa [List.append_nil, Mode.surface, List.append_nil] at happend

theorem surface_parenthesized (h : Balanced t) :
    surface (parenthesized t) =
      .shown '(' :: (t.toList.map Glyph.hidden ++ [.shown ')']) := by
  have hopen : Mode.code.surface 0 ('(' :: (t.toList ++ [')'])) =
      .shown '(' :: Mode.code.surface 1 (t.toList ++ [')']) := rfl
  have hclose : (Mode.code.after t.toList).surface 1 [')'] = [.shown ')'] := by
    rw [Mode.surface_of_isOutside h.isSealed (by decide)]
    rfl
  have hlist : (parenthesized t).toList = '(' :: (t.toList ++ [')']) := by
    simp [parenthesized]
  rw [surface, hlist, hopen, Mode.surface_append (nesting_add h.nesting 1),
    Mode.surface_under h.nesting, hclose]

/-- Only the parentheses around a text are on its surface. -/
theorem eq_of_mem_surface_parenthesized (h : Balanced t) {g : Glyph}
    (hg : g ∈ surface (parenthesized t)) (hvisible : g.visible = true) :
    g = .shown '(' ∨ g = .shown ')' := by
  rw [surface_parenthesized h, List.mem_cons, List.mem_append, List.mem_singleton] at hg
  rcases hg with rfl | hg | rfl
  · exact .inl rfl
  · obtain ⟨c, -, rfl⟩ := List.mem_map.1 hg
    cases hvisible
  · exact .inr rfl

/-- Nothing of a text without code is on the surface. -/
theorem not_visible_of_mem_surface (h : ∀ c, Mark.code c ∉ masked t) {g : Glyph}
    (hg : g ∈ surface t) : ¬ g.visible = true :=
  fun hvisible => h g.char (Mode.code_of_mem_surface hg hvisible)

/-! ## Blanks at the ends -/

theorem isInert_of_isBlank {c : Char} (h : isBlank c = true) : Closed.isInert c = true := by
  have ho : c ≠ '(' := fun he => absurd (he ▸ h) (by decide)
  have hc : c ≠ ')' := fun he => absurd (he ▸ h) (by decide)
  simp [Closed.isInert, isPlain_of_isBlank h, ho, hc]

theorem trimFront_append_blanks (cs : List Char) :
    ∃ front, cs = front ++ trimFront cs ∧ ∀ c ∈ front, isBlank c = true :=
  ⟨cs.takeWhile isBlank, (List.takeWhile_append_dropWhile).symm, fun _ hc =>
    List.mem_takeWhile_imp hc⟩

theorem trimBack_append_blanks (cs : List Char) :
    ∃ back, cs = trimBack cs ++ back ∧ ∀ c ∈ back, isBlank c = true := by
  obtain ⟨front, hcs, hfront⟩ := trimFront_append_blanks cs.reverse
  refine ⟨front.reverse, ?_, fun c hc => hfront c (List.mem_reverse.1 hc)⟩
  rw [trimBack, ← List.reverse_append, ← hcs, List.reverse_reverse]

/-- A text is its trimmed form with some blanks around it. -/
theorem toList_eq_trim (t : String) :
    ∃ front back, t.toList = front ++ (trim t).toList ++ back ∧ (∀ c ∈ front, isBlank c = true) ∧
      ∀ c ∈ back, isBlank c = true := by
  obtain ⟨front, hcs, hfront⟩ := trimFront_append_blanks t.toList
  obtain ⟨back, hds, hback⟩ := trimBack_append_blanks (trimFront t.toList)
  refine ⟨front, back, ?_, hfront, hback⟩
  rw [trim, String.toList_ofList, List.append_assoc, ← hds]
  exact hcs

/-- The surface of a text is that of its trimmed form with some blanks around it. -/
theorem surface_eq_trim (t : String) :
    ∃ front back, surface t = front ++ surface (trim t) ++ back ∧
      (∀ g ∈ front, isBlank g.char = true) ∧ ∀ g ∈ back, isBlank g.char = true := by
  obtain ⟨front, back, ht, hfront, hback⟩ := toList_eq_trim t
  obtain ⟨more, hmore, hchars⟩ := Mode.surface_prefix .code 0 (trim t).toList back
  have hinert : front.all Closed.isInert = true :=
    List.all_eq_true.2 fun c hc => isInert_of_isBlank (hfront c hc)
  refine ⟨front.map Glyph.shown, more, ?_, ?_, ?_⟩
  · rw [surface, ht, List.append_assoc, Mode.surface_inert_append hinert, hmore, List.append_assoc]
    rfl
  · intro g hg
    obtain ⟨c, hc, rfl⟩ := List.mem_map.1 hg
    exact hfront c hc
  · intro g hg
    exact hback g.char (hchars ▸ List.mem_map_of_mem hg)

/-- Blanks around a text do not matter to its trimmed form. -/
theorem trim_blanks {front back : List Char} (hfront : ∀ c ∈ front, isBlank c = true)
    (hback : ∀ c ∈ back, isBlank c = true) {t u : String}
    (ht : t.toList = front ++ u.toList ++ back) : trim t = trim u := by
  have hdrop (cs : List Char) : trimBack (cs ++ back) = trimBack cs := by
    rw [trimBack, List.reverse_append, trimFront, List.dropWhile_append_of_pos, trimBack, trimFront]
    exact fun c hc => hback c (List.mem_reverse.1 hc)
  have hkeep (cs : List Char) : trimBack (trimFront (cs ++ back)) = trimBack (trimFront cs) := by
    rw [trimFront, List.dropWhile_append]
    split
    · next hnone =>
      have hempty : trimBack (back.dropWhile isBlank) = trimBack [] := by
        rw [List.dropWhile_eq_nil_iff.2 hback]
      rw [hempty, trimFront, List.isEmpty_iff.1 hnone]
    · exact hdrop _
  rw [trim, trim, ht, List.append_assoc, trimFront, List.dropWhile_append_of_pos hfront]
  exact congrArg String.ofList (hkeep _)

theorem trim_trim (t : String) : trim (trim t) = trim t := by
  obtain ⟨front, back, ht, hfront, hback⟩ := toList_eq_trim t
  exact (trim_blanks hfront hback ht).symm

/-- A text that neither begins nor ends with a blank is its own trimmed form. -/
theorem trim_eq_self (hfirst : ∀ c ∈ t.toList.head?, isBlank c = false)
    (hlast : ∀ c ∈ t.toList.getLast?, isBlank c = false) : trim t = t := by
  have hdrop {cs : List Char} (h : ∀ c ∈ cs.head?, isBlank c = false) : trimFront cs = cs := by
    cases cs with
    | nil => rfl
    | cons c cs => exact List.dropWhile_cons_of_neg (by simp [h c rfl])
  have hback : trimBack t.toList = t.toList := by
    rw [trimBack, hdrop (by rwa [List.head?_reverse]), List.reverse_reverse]
  rw [trim, hdrop hfirst, hback, String.ofList_toList]

theorem getLast?_trim (t : String) : ∀ c ∈ (trim t).toList.getLast?, isBlank c = false := by
  intro c hc
  rw [trim, String.toList_ofList, trimBack, List.getLast?_reverse, trimFront] at hc
  have hhead := List.head?_dropWhile_not isBlank (trimFront t.toList).reverse
  rw [Option.mem_def.1 hc] at hhead
  exact hhead

/-- A text between two marks that are no blanks is its own trimmed form. -/
theorem trim_enclosed {first last : Char} {inside : List Char}
    (ht : t.toList = first :: (inside ++ [last])) (hfirst : isBlank first = false)
    (hlast : isBlank last = false) : trim t = t := by
  refine trim_eq_self ?_ ?_
  · rw [ht]
    rintro _ ⟨⟩
    exact hfirst
  · rw [ht, ← List.cons_append, List.getLast?_concat]
    rintro _ ⟨⟩
    exact hlast

theorem trim_parenthesized (t : String) : trim (parenthesized t) = parenthesized t := by
  have hlist : (parenthesized t).toList = '(' :: (t.toList ++ [')']) := by simp [parenthesized]
  exact trim_enclosed hlist (by decide) (by decide)

theorem trim_grouped (h : trim t = t) : trim (grouped t) = grouped t :=
  grouped_of (P := fun u => trim u = u) h (trim_parenthesized t)

end SqlWright.Text
