import SqlWright.Text.Blank
import SqlWright.Text.Enclosed

/-!
# A reader of quoted text

How a server reads a statement, as far as quotes go: character by character, inside a string
literal, inside a bracketed name or outside both. A closing mark that is written twice stands for
itself, so only the character after a closing mark tells whether it closed anything. What the text
outside the quotes means is not read; comments are not known to this reader.
-/

namespace SqlWright.Text

/-- Where the reader stands. After a mark that may close a literal or a name it waits for the next
character. -/
inductive Mode where
  | code
  | inString
  | atApostrophe
  | inName
  | atBracket
deriving DecidableEq, Repr

/-- What is left of a text when every string literal is replaced by one placeholder: characters
outside the quotes, characters of bracketed names, and the placeholders. -/
inductive Mark where
  | code (c : Char)
  | name (c : Char)
  | literal
deriving DecidableEq, Repr

namespace Mode

/-- Whether a text may end here: no literal and no name is open. -/
def isOutside : Mode → Bool
  | .inString | .inName => false
  | .code | .atApostrophe | .atBracket => true

/-- Reads a character outside literals and names. -/
def enter (c : Char) : Mode × List Mark :=
  if c = '\'' then (.inString, [.literal])
  else if c = '[' then (.inName, [.name c])
  else (.code, [.code c])

/-- Reads one character. -/
def step : Mode → Char → Mode × List Mark
  | .code, c => enter c
  | .inString, c => (if c = '\'' then .atApostrophe else .inString, [])
  | .atApostrophe, c => if c = '\'' then (.inString, []) else enter c
  | .inName, c => (if c = ']' then .atBracket else .inName, [.name c])
  | .atBracket, c => if c = ']' then (.inName, [.name c]) else enter c

/-- Where the reader stands after some characters. -/
def after (m : Mode) : List Char → Mode
  | [] => m
  | c :: cs => after (m.step c).1 cs

/-- What the reader finds in some characters. -/
def marks (m : Mode) : List Char → List Mark
  | [] => []
  | c :: cs => (m.step c).2 ++ marks (m.step c).1 cs

end Mode

/-- A text with a placeholder for every string literal. -/
def masked (t : String) : List Mark :=
  Mode.code.marks t.toList

/-- Whether a text ends outside literals and names. -/
def isSealed (t : String) : Bool :=
  (Mode.code.after t.toList).isOutside

namespace Mode

/-! ## Texts one after the other -/

theorem after_append (m : Mode) (cs ds : List Char) :
    m.after (cs ++ ds) = (m.after cs).after ds := by
  induction cs generalizing m with
  | nil => rfl
  | cons c cs ih => exact ih (m.step c).1

theorem marks_append (m : Mode) (cs ds : List Char) :
    m.marks (cs ++ ds) = m.marks cs ++ (m.after cs).marks ds := by
  induction cs generalizing m with
  | nil => rfl
  | cons c cs ih =>
    rw [List.cons_append, marks, ih, marks, after, List.append_assoc]

/-! ## Characters outside the quotes -/

/-- Outside the quotes only a closing mark is read in another way than in plain code. -/
theorem step_eq_enter {m : Mode} (hm : m.isOutside = true) {c : Char} (hq : c ≠ '\'')
    (hb : c ≠ ']') : m.step c = enter c := by
  cases m with
  | code => rfl
  | atApostrophe => rw [step, if_neg hq]
  | atBracket => rw [step, if_neg hb]
  | inString => cases hm
  | inName => cases hm

/-- Whether a character is neither a quote nor the end of a statement. -/
def isPlain (c : Char) : Bool :=
  c != '\'' && c != '[' && c != ']' && c != ';'

theorem step_plain {m : Mode} (hm : m.isOutside = true) {c : Char} (hc : isPlain c = true) :
    m.step c = (.code, [.code c]) := by
  simp only [isPlain, Bool.and_eq_true, bne_iff_ne] at hc
  obtain ⟨⟨⟨hq, ho⟩, hb⟩, -⟩ := hc
  rw [step_eq_enter hm hq hb, enter, if_neg hq, if_neg ho]

theorem after_plain {m : Mode} (hm : m.isOutside = true) {cs : List Char}
    (h : cs.all isPlain = true) : (m.after cs).isOutside = true := by
  induction cs generalizing m with
  | nil => exact hm
  | cons c cs ih =>
    rw [List.all_cons, Bool.and_eq_true] at h
    rw [after, step_plain hm h.1]
    exact ih rfl h.2

theorem marks_plain {m : Mode} (hm : m.isOutside = true) {cs : List Char}
    (h : cs.all isPlain = true) : m.marks cs = cs.map .code := by
  induction cs generalizing m with
  | nil => rfl
  | cons c cs ih =>
    rw [List.all_cons, Bool.and_eq_true] at h
    rw [marks, step_plain hm h.1, List.map_cons]
    exact congrArg (Mark.code c :: ·) (ih rfl h.2)

/-- A text in which the reader finds nothing but code is that code. -/
theorem eq_of_marks_eq_map {cs ds : List Char} (h : Mode.code.marks cs = ds.map .code) :
    cs = ds := by
  induction cs generalizing ds with
  | nil =>
    cases ds with
    | nil => rfl
    | cons d ds => cases h
  | cons c cs ih =>
    rw [marks, step, enter] at h
    by_cases hq : c = '\''
    · rw [if_pos hq] at h
      cases ds <;> cases h
    · by_cases hb : c = '['
      · rw [if_neg hq, if_pos hb] at h
        cases ds <;> cases h
      · rw [if_neg hq, if_neg hb] at h
        cases ds with
        | nil => cases h
        | cons d ds =>
          rw [List.map_cons, List.singleton_append, List.cons.injEq, Mark.code.injEq] at h
          rw [h.1, ih h.2]

/-- Whether a text starts with a parenthesis shows in what the reader finds. -/
theorem opens_iff (cs : List Char) :
    cs.head? = some '(' ↔ (Mode.code.marks cs).head? = some (.code '(') := by
  cases cs with
  | nil => simp [marks]
  | cons c cs =>
    rw [marks, step, enter]
    by_cases hq : c = '\''
    · simp [hq]
    · by_cases hb : c = '['
      · simp [hb]
      · simp [hq, hb]

/-! ## The reader between two texts -/

/-- What the reader finds in a text after another one, if it finds `found` in the text alone: right
after a literal a further literal goes on with the first. -/
def joined : Mode → List Mark → List Mark
  | .atApostrophe, .literal :: found => found
  | _, found => found

theorem step_eq_or {m : Mode} (hm : m.isOutside = true) {c : Char} (hb : c ≠ ']') :
    (m.step c).1 = (enter c).1 ∧ (m.step c).2 = m.joined (enter c).2 := by
  by_cases hq : c = '\''
  · subst hq
    cases m <;> first | exact ⟨rfl, rfl⟩ | cases hm
  · rw [step_eq_enter hm hq hb]
    refine ⟨rfl, ?_⟩
    rw [enter, if_neg hq]
    cases m <;> split <;> rfl

theorem joined_append (m : Mode) {found : List Mark} (h : found ≠ []) (more : List Mark) :
    m.joined (found ++ more) = m.joined found ++ more := by
  cases found with
  | nil => exact absurd rfl h
  | cons f found => cases m <;> cases f <;> rfl

theorem enter_ne_nil (c : Char) : (enter c).2 ≠ [] := by
  rw [enter]
  split
  · simp
  · split <;> simp

/-- A text is read after another one as it is read alone, unless it starts with a closing bracket.
-/
theorem marks_eq_joined {m : Mode} (hm : m.isOutside = true) {cs : List Char}
    (hb : cs.head? ≠ some ']') : m.marks cs = m.joined (Mode.code.marks cs) := by
  cases cs with
  | nil => cases m <;> rfl
  | cons c cs =>
    obtain ⟨h₁, h₂⟩ := step_eq_or hm (fun h => hb (congrArg some h))
    rw [marks, marks, h₁, h₂, step, joined_append m (enter_ne_nil c)]

theorem after_eq_after {m : Mode} (hm : m.isOutside = true) {cs : List Char}
    (hb : cs.head? ≠ some ']') (hn : cs ≠ []) : m.after cs = Mode.code.after cs := by
  cases cs with
  | nil => exact absurd rfl hn
  | cons c cs =>
    rw [after, after, (step_eq_or hm (fun h => hb (congrArg some h))).1, step]

theorem head?_ne_of_not_mem {cs : List Char} (h : Mark.code ']' ∉ Mode.code.marks cs) :
    cs.head? ≠ some ']' := by
  intro hc
  cases cs with
  | nil => cases hc
  | cons c cs =>
    cases hc
    exact h (List.mem_append_left _ List.mem_cons_self)

/-! ## Enclosed texts -/

theorem after_doubled_apostrophe (cs : List Char) :
    Mode.inString.after (doubled '\'' cs) = .inString := by
  induction cs with
  | nil => rfl
  | cons c cs ih =>
    by_cases h : c = '\''
    · rw [doubled, if_pos h]
      exact ih
    · rw [doubled, if_neg h, after, step, if_neg h, ih]

theorem marks_doubled_apostrophe (cs : List Char) :
    Mode.inString.marks (doubled '\'' cs) = [] := by
  induction cs with
  | nil => rfl
  | cons c cs ih =>
    by_cases h : c = '\''
    · rw [doubled, if_pos h]
      exact ih
    · rw [doubled, if_neg h, marks, step, if_neg h, ih, List.append_nil]

theorem after_doubled_bracket (cs : List Char) :
    Mode.inName.after (doubled ']' cs) = .inName := by
  induction cs with
  | nil => rfl
  | cons c cs ih =>
    by_cases h : c = ']'
    · rw [doubled, if_pos h]
      exact ih
    · rw [doubled, if_neg h, after, step, if_neg h, ih]

theorem marks_doubled_bracket (cs : List Char) :
    Mode.inName.marks (doubled ']' cs) = (doubled ']' cs).map .name := by
  induction cs with
  | nil => rfl
  | cons c cs ih =>
    by_cases h : c = ']'
    · rw [doubled, if_pos h]
      exact congrArg (fun found => Mark.name ']' :: Mark.name ']' :: found) ih
    · rw [doubled, if_neg h, marks, step, if_neg h, ih]
      rfl

end Mode

/-- Doubling loses nothing. -/
theorem doubled_injective (mark : Char) : Function.Injective (doubled mark) := by
  intro cs
  induction cs with
  | nil =>
    intro ds h
    cases ds with
    | nil => rfl
    | cons d ds =>
      rw [doubled, doubled] at h
      split at h <;> cases h
  | cons c cs ih =>
    intro ds h
    cases ds with
    | nil =>
      rw [doubled, doubled] at h
      split at h <;> cases h
    | cons d ds =>
      rw [doubled, doubled] at h
      split at h <;> split at h <;> rename_i hc hd
      · rw [hc, hd, ih (List.cons.inj (List.cons.inj h).2).2]
      · exact absurd (List.cons.inj h).1.symm hd
      · exact absurd (List.cons.inj h).1 hc
      · rw [(List.cons.inj h).1, ih (List.cons.inj h).2]

theorem toList_bracketed (name : String) :
    (bracketed name).toList = '[' :: (doubled ']' name.toList ++ [']']) := by
  rw [bracketed, enclosed, String.toList_ofList]

/-- Bracketed names tell the names apart. -/
theorem bracketed_injective : Function.Injective bracketed := by
  intro s u h
  have hlist := congrArg String.toList h
  rw [toList_bracketed, toList_bracketed] at hlist
  exact String.toList_injective
    (doubled_injective ']' (List.append_cancel_right (List.cons.inj hlist).2))

/-- A string literal is one placeholder, whatever it holds. -/
theorem masked_quoted (s : String) : masked (quoted s) = [.literal] := by
  rw [masked, quoted, enclosed, String.toList_ofList]
  show Mark.literal :: Mode.inString.marks (doubled '\'' s.toList ++ ['\'']) = [.literal]
  rw [Mode.marks_append, Mode.marks_doubled_apostrophe, Mode.after_doubled_apostrophe]
  rfl

theorem after_quoted (s : String) : Mode.code.after (quoted s).toList = .atApostrophe := by
  rw [quoted, enclosed, String.toList_ofList]
  show Mode.inString.after (doubled '\'' s.toList ++ ['\'']) = .atApostrophe
  rw [Mode.after_append, Mode.after_doubled_apostrophe]
  rfl

/-- A bracketed name is read as nothing but a name, whatever it holds. -/
theorem masked_bracketed (name : String) :
    masked (bracketed name) = (bracketed name).toList.map .name := by
  rw [masked, toList_bracketed]
  show Mark.name '[' :: Mode.inName.marks (doubled ']' name.toList ++ [']']) = _
  rw [Mode.marks_append, Mode.marks_doubled_bracket, Mode.after_doubled_bracket, List.map_cons,
    List.map_append]
  rfl

theorem after_bracketed (name : String) :
    Mode.code.after (bracketed name).toList = .atBracket := by
  rw [toList_bracketed]
  show Mode.inName.after (doubled ']' name.toList ++ [']']) = .atBracket
  rw [Mode.after_append, Mode.after_doubled_bracket]
  rfl

end SqlWright.Text
