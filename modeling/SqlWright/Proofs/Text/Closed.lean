import SqlWright.Proofs.Text.Trim

/-!
# Closed texts

Texts that can be put into a statement without an effect on what stands around them: no quote and no
parenthesis is left open, none is closed that was opened before, and no statement ends inside. A
text with open parentheses is described by how many it finds and how many it leaves, so a closed
text is put together from parts that are not.
-/

namespace SqlWright.Text

/-! ## Parentheses outside the quotes -/

/-- How many parentheses are open after a mark; `none` if one is closed that was never opened. -/
def Mark.nest (depth : Nat) : Mark → Option Nat
  | .code c =>
    if c = '(' then some (depth + 1)
    else if c = ')' then (if depth = 0 then none else some (depth - 1))
    else some depth
  | .name _ | .literal => some depth

/-- How many parentheses are open after some marks, if there never is one closed too many. -/
def nesting (depth : Nat) (found : List Mark) : Option Nat :=
  found.foldlM Mark.nest depth

theorem nesting_cons (d : Nat) (mark : Mark) (found : List Mark) :
    nesting d (mark :: found) = (mark.nest d).bind fun e => nesting e found := rfl

theorem nesting_append (d : Nat) (found more : List Mark) :
    nesting d (found ++ more) = (nesting d found).bind fun e => nesting e more := by
  rw [nesting, List.foldlM_append]
  rfl

theorem nest_add {d e : Nat} {mark : Mark} (h : mark.nest d = some e) (n : Nat) :
    mark.nest (d + n) = some (e + n) := by
  cases mark with
  | code c =>
    rw [Mark.nest] at h ⊢
    split at h <;> rename_i ho
    · rw [if_pos ho, ← Option.some.inj h, Nat.add_right_comm]
    · rw [if_neg ho]
      split at h <;> rename_i hc
      · split at h
        · cases h
        · have := Option.some.inj h
          rw [if_pos hc, if_neg (by omega)]
          exact congrArg some (by omega)
      · rw [if_neg hc, Option.some.inj h]
  | name c | literal => rw [Mark.nest, ← Option.some.inj h]

/-- Parentheses that are open around a text stay open. -/
theorem nesting_add {d e : Nat} {found : List Mark} (h : nesting d found = some e) (n : Nat) :
    nesting (d + n) found = some (e + n) := by
  induction found generalizing d with
  | nil => rw [Option.some.inj (show some d = some e from h)]; rfl
  | cons mark found ih =>
    rw [nesting_cons] at h ⊢
    obtain ⟨f, hf, hr⟩ := Option.bind_eq_some_iff.1 h
    rw [nest_add hf n]
    exact ih hr

theorem nest_blank {mark : Mark} (h : mark.isBlank = true) (d : Nat) :
    mark.nest d = some d := by
  cases mark with
  | code c =>
    have ho : c ≠ '(' := fun he => absurd (he ▸ h) (by decide)
    have hc : c ≠ ')' := fun he => absurd (he ▸ h) (by decide)
    rw [Mark.nest, if_neg ho, if_neg hc]
  | name c | literal => cases h

theorem nesting_dropWhile (d : Nat) (found : List Mark) :
    nesting d (found.dropWhile Mark.isBlank) = nesting d found := by
  induction found with
  | nil => rfl
  | cons mark found ih =>
    by_cases h : mark.isBlank = true
    · rw [List.dropWhile_cons_of_pos h, ih, nesting_cons, nest_blank h]
      rfl
    · rw [List.dropWhile_cons_of_neg h]

theorem nesting_rdropWhile (d : Nat) (found : List Mark) :
    nesting d (found.rdropWhile Mark.isBlank) = nesting d found := by
  induction found using List.reverseRecOn with
  | nil => rfl
  | append_singleton found mark ih =>
    by_cases h : mark.isBlank = true
    · rw [List.rdropWhile_concat_pos _ _ _ h, ih, nesting_append]
      simp [nesting, nest_blank h]
    · rw [List.rdropWhile_concat_neg _ _ _ h]

theorem nesting_joined (d : Nat) (m : Mode) (found : List Mark) :
    nesting d (m.joined found) = nesting d found := by
  cases found with
  | nil => cases m <;> rfl
  | cons mark found => cases m <;> cases mark <;> rfl

theorem joined_sublist (m : Mode) (found : List Mark) : (m.joined found).Sublist found := by
  cases found with
  | nil => cases m <;> exact List.Sublist.refl _
  | cons mark found =>
    cases m <;> cases mark <;>
      first | exact List.Sublist.refl _ | exact List.sublist_cons_self _ _

/-- What holds of a text and of it in parentheses holds of the group that it makes. -/
theorem grouped_of {P : String → Prop} {t : String} (h : P t) (hp : P (parenthesized t)) :
    P (grouped t) := by
  rw [grouped]
  split
  · exact h
  · exact hp

theorem parenthesized_ne_empty (t : String) : parenthesized t ≠ "" := by
  intro h
  have hlength := congrArg String.length h
  simp [parenthesized] at hlength

/-! ## Parts of a closed text -/

/-- What holds of the empty text and of two texts with a separator between them holds of a list of
texts. -/
theorem separated_induction {P : String → Prop} (hempty : P "") {separator : String}
    (hlink : ∀ {t u}, P t → P u → P (t ++ separator ++ u)) {texts : List String}
    (h : ∀ t ∈ texts, P t) : P (String.intercalate separator texts) := by
  induction texts with
  | nil =>
    rw [String.intercalate_nil]
    exact hempty
  | cons t rest ih =>
    rw [List.forall_mem_cons] at h
    cases rest with
    | nil =>
      rw [String.intercalate_singleton]
      exact h.1
    | cons u rest =>
      rw [String.intercalate_cons_cons]
      exact hlink h.1 (ih h.2)

/-- What holds of the empty text and of two texts together holds of a list of texts. -/
theorem intercalate_induction {P : String → Prop} (hempty : P "")
    (happend : ∀ {t u}, P t → P u → P (t ++ u)) {separator : String} (hs : P separator)
    {texts : List String} (h : ∀ t ∈ texts, P t) : P (String.intercalate separator texts) :=
  separated_induction hempty (fun ht hu => happend (happend ht hs) hu) h

theorem masked_append {t u : String} (ht : isSealed t = true) (hu : Mark.code ']' ∉ masked u) :
    masked (t ++ u) = masked t ++ (Mode.code.after t.toList).joined (masked u) := by
  rw [masked, String.toList_append, Mode.marks_append,
    Mode.marks_eq_joined ht (Mode.head?_ne_of_not_mem hu)]
  rfl

/-- Only a literal goes on with what is in front of it. -/
theorem masked_append_of_ne {t u : String} (ht : isSealed t = true) (hu : Mark.code ']' ∉ masked u)
    (h : (masked u).head? ≠ some .literal) : masked (t ++ u) = masked t ++ masked u := by
  rw [masked_append ht hu]
  generalize masked u = found at h
  cases found with
  | nil => cases Mode.code.after t.toList <;> rfl
  | cons mark found =>
    cases Mode.code.after t.toList <;> cases mark <;> first | rfl | exact absurd rfl h

theorem isSealed_append {t u : String} (ht : isSealed t = true) (hu : isSealed u = true)
    (hb : Mark.code ']' ∉ masked u) : isSealed (t ++ u) = true := by
  rw [isSealed, String.toList_append, Mode.after_append]
  by_cases hn : u.toList = []
  · rw [hn]
    exact ht
  · rw [Mode.after_eq_after ht (Mode.head?_ne_of_not_mem hb) hn]
    exact hu

theorem masked_plain {t : String} (h : t.toList.all Mode.isPlain = true) :
    masked t = t.toList.map .code :=
  Mode.marks_plain rfl h

theorem not_mem_masked_plain {t : String} (h : t.toList.all Mode.isPlain = true) {c : Char}
    (hc : Mode.isPlain c = false) : Mark.code c ∉ masked t := by
  rw [masked_plain h]
  intro hm
  obtain ⟨d, hd, he⟩ := List.mem_map.1 hm
  rw [Mark.code.inj he] at hd
  exact absurd (List.all_eq_true.1 h c hd) (by rw [hc]; exact Bool.false_ne_true)

/-- A text that finds `i` open parentheses of its own statement and leaves `j`. It ends outside its
quotes and holds no closing bracket without an opening one. -/
structure Nests (i j : Nat) (t : String) : Prop where
  isSealed : isSealed t = true
  nesting : nesting i (masked t) = some j
  no_bracket : Mark.code ']' ∉ masked t

/-- A text with its quotes, brackets and parentheses in pairs. -/
abbrev Balanced (t : String) : Prop := Nests 0 0 t

namespace Nests

variable {i j k : Nat} {t u : String}

theorem append (ht : Nests i j t) (hu : Nests j k u) : Nests i k (t ++ u) where
  isSealed := isSealed_append ht.isSealed hu.isSealed hu.no_bracket
  nesting := by
    rw [masked_append ht.isSealed hu.no_bracket, nesting_append, ht.nesting, Option.bind_some,
      nesting_joined, hu.nesting]
  no_bracket := by
    rw [masked_append ht.isSealed hu.no_bracket, List.mem_append, not_or]
    exact ⟨ht.no_bracket, fun h => hu.no_bracket ((joined_sublist _ _).subset h)⟩

/-- Further open parentheses around a text do not matter to it. -/
theorem under (ht : Nests i j t) (n : Nat) : Nests (i + n) (j + n) t :=
  { ht with nesting := nesting_add ht.nesting n }

end Nests

/-- A text that finds `i` open parentheses of its own statement and leaves `j`. It ends outside its
quotes and holds neither the end of a statement nor a closing bracket without an opening one. -/
structure Spans (i j : Nat) (t : String) : Prop where
  isSealed : isSealed t = true
  nesting : nesting i (masked t) = some j
  no_semicolon : Mark.code ';' ∉ masked t
  no_bracket : Mark.code ']' ∉ masked t

/-- A text that leaves everything around it as it is. -/
abbrev Closed (t : String) : Prop := Spans 0 0 t

namespace Spans

variable {i j k : Nat} {t u : String}

theorem nests (h : Spans i j t) : Nests i j t := ⟨h.isSealed, h.nesting, h.no_bracket⟩

theorem append (ht : Spans i j t) (hu : Spans j k u) : Spans i k (t ++ u) where
  isSealed := (ht.nests.append hu.nests).isSealed
  nesting := (ht.nests.append hu.nests).nesting
  no_bracket := (ht.nests.append hu.nests).no_bracket
  no_semicolon := by
    rw [masked_append ht.isSealed hu.no_bracket, List.mem_append, not_or]
    exact ⟨ht.no_semicolon, fun h => hu.no_semicolon ((joined_sublist _ _).subset h)⟩

/-- Further open parentheses around a text do not matter to it. -/
theorem under (ht : Spans i j t) (n : Nat) : Spans (i + n) (j + n) t :=
  { ht with nesting := nesting_add ht.nesting n }

/-- A text without quotes and semicolons. -/
theorem plain (h : t.toList.all Mode.isPlain = true)
    (hd : Text.nesting i (t.toList.map .code) = some j) : Spans i j t :=
  ⟨Mode.after_plain rfl h, masked_plain h ▸ hd, not_mem_masked_plain h rfl,
    not_mem_masked_plain h rfl⟩

theorem closing : Spans 1 0 ")" := plain (by decide) (by decide)

end Spans

/-- A balanced text in parentheses is balanced. -/
theorem Balanced.parenthesized {t : String} (h : Balanced t) : Balanced (parenthesized t) := by
  have hopening : Nests 0 1 "(" := (Spans.plain (by decide) (by decide)).nests
  exact (hopening.append (h.under 1)).append Spans.closing.nests

theorem Balanced.grouped {t : String} (h : Balanced t) : Balanced (grouped t) :=
  grouped_of h h.parenthesized

namespace Closed

variable {t : String}

theorem empty : Closed "" := ⟨rfl, rfl, List.not_mem_nil, List.not_mem_nil⟩

/-- Between closed texts no parenthesis is open. -/
theorem append {u : String} (ht : Closed t) (hu : Closed u) : Closed (t ++ u) :=
  Spans.append ht hu

/-- Whether a character is no quote, no parenthesis and no semicolon. -/
def isInert (c : Char) : Bool :=
  Mode.isPlain c && c != '(' && c != ')'

theorem of_inert (h : t.toList.all isInert = true) : Closed t := by
  have hc {c : Char} (hm : c ∈ t.toList) :
      Mode.isPlain c = true ∧ (Mark.code c).nest 0 = some 0 := by
    have := List.all_eq_true.1 h c hm
    simp only [isInert, Bool.and_eq_true, bne_iff_ne] at this
    obtain ⟨⟨hp, ho⟩, hb⟩ := this
    exact ⟨hp, by rw [Mark.nest, if_neg ho, if_neg hb]⟩
  refine Spans.plain (List.all_eq_true.2 fun c hm => (hc hm).1) ?_
  generalize t.toList = cs at hc
  induction cs with
  | nil => rfl
  | cons c cs ih =>
    rw [List.map_cons, nesting_cons, (hc List.mem_cons_self).2]
    exact ih fun hm => hc (List.mem_cons_of_mem c hm)

theorem space : Closed " " := of_inert (by decide)

theorem dot : Closed "." := of_inert (by decide)

theorem equal : Closed "=" := of_inert (by decide)

theorem quoted (s : String) : Closed (quoted s) where
  isSealed := by rw [isSealed, after_quoted]; rfl
  nesting := by rw [masked_quoted]; rfl
  no_semicolon := by rw [masked_quoted]; simp
  no_bracket := by rw [masked_quoted]; simp

theorem bracketed (name : String) : Closed (bracketed name) where
  isSealed := by rw [isSealed, after_bracketed]; rfl
  nesting := by
    rw [masked_bracketed]
    induction (Text.bracketed name).toList with
    | nil => rfl
    | cons c cs ih => exact ih
  no_semicolon := by rw [masked_bracketed]; simp
  no_bracket := by rw [masked_bracketed]; simp

theorem trim (h : Closed t) : Closed (trim t) where
  isSealed := isSealed_trim h.isSealed
  nesting := by
    rw [masked_trim h.isSealed, trimMarks, nesting_rdropWhile, nesting_dropWhile, h.nesting]
  no_semicolon := by
    rw [masked_trim h.isSealed]
    exact fun hm => h.no_semicolon ((trimMarks_sublist _).subset hm)
  no_bracket := by
    rw [masked_trim h.isSealed]
    exact fun hm => h.no_bracket ((trimMarks_sublist _).subset hm)

/-- A text inside a parenthesis that the text before it opens. -/
theorem inside {opening : String} (ho : Spans 0 1 opening) (h : Closed t) :
    Closed (opening ++ t ++ ")") :=
  (ho.append (h.under 1)).append .closing

theorem parenthesized (h : Closed t) : Closed (parenthesized t) :=
  inside (.plain (by decide) (by decide)) h

/-- Two closed texts around a keyword. -/
theorem grouped (h : Closed t) : Closed (grouped t) :=
  grouped_of h h.parenthesized

theorem spaced {u keyword : String} (ht : Closed t) (hk : Closed keyword) (hu : Closed u) :
    Closed (t ++ " " ++ keyword ++ " " ++ u) :=
  (((ht.append space).append hk).append space).append hu

theorem intercalate {separator : String} (hs : Closed separator) {texts : List String}
    (h : ∀ t ∈ texts, Closed t) : Closed (String.intercalate separator texts) :=
  intercalate_induction empty append hs h

/-- The texts of some things, with commas between them. -/
theorem commas {texts : List String} (h : ∀ t ∈ texts, Closed t) :
    Closed (String.intercalate "," texts) :=
  intercalate (of_inert (by decide)) h

end Closed

/-! ## Whole statements -/

/-- Statements, `n` of them and one a line: all quotes and parentheses are closed, and semicolons
outside the quotes stand at the ends of the statements only. -/
structure Terminated (n : Nat) (t : String) : Prop where
  isSealed : isSealed t = true
  nesting : nesting 0 (masked t) = some 0
  statements : ∃ parts : List (List Mark),
    parts.length = n ∧ (∀ part ∈ parts, Mark.code ';' ∉ part) ∧
      masked t = [Mark.code '\n'].intercalate (parts.map fun part => part ++ [.code ';'])

theorem after_semicolon {t : String} (h : isSealed t = true) :
    Mode.code.after (t ++ ";").toList = .code := by
  rw [String.toList_append, Mode.after_append]
  show ((Mode.code.after t.toList).step ';').1 = .code
  rw [Mode.step_eq_enter h (by decide) (by decide)]
  rfl

theorem masked_semicolon {t : String} (h : isSealed t = true) :
    masked (t ++ ";") = masked t ++ [.code ';'] := by
  rw [masked, String.toList_append, Mode.marks_append]
  show masked t ++ (((Mode.code.after t.toList).step ';').2 ++ []) = _
  rw [Mode.step_eq_enter h (by decide) (by decide)]
  rfl

/-- After a line that is read as code the reader starts anew. -/
theorem masked_line {t : String} (h : Mode.code.after t.toList = .code) (u : String) :
    masked (t ++ "\n" ++ u) = masked t ++ ([.code '\n'] ++ masked u) := by
  rw [masked, String.toList_append, String.toList_append, Mode.marks_append, Mode.marks_append,
    Mode.after_append, h, List.append_assoc]
  rfl

theorem after_line {t : String} (h : Mode.code.after t.toList = .code) (u : String) :
    Mode.code.after (t ++ "\n" ++ u).toList = Mode.code.after u.toList := by
  rw [String.toList_append, String.toList_append, Mode.after_append, Mode.after_append, h]
  rfl

/-- A closed text with a semicolon after it. -/
def IsStatement (t : String) : Prop :=
  ∃ body, Closed body ∧ t = body ++ ";"

theorem IsStatement.terminated {t : String} (h : IsStatement t) : Terminated 1 t := by
  obtain ⟨body, hbody, rfl⟩ := h
  have hmasked := masked_semicolon hbody.isSealed
  refine ⟨?_, ?_, [masked body], rfl, List.forall_mem_singleton.2 hbody.no_semicolon, ?_⟩
  · rw [Text.isSealed, after_semicolon hbody.isSealed]
    rfl
  · rw [hmasked, nesting_append, hbody.nesting]
    rfl
  · rw [hmasked]
    simp

/-- Statements, one a line, are as many as there are lines. -/
theorem Terminated.lines {texts : List String} (hne : texts ≠ [])
    (h : ∀ t ∈ texts, IsStatement t) :
    Terminated texts.length (String.intercalate "\n" texts) := by
  induction texts with
  | nil => exact absurd rfl hne
  | cons t texts ih =>
    obtain ⟨ht, hrest⟩ := List.forall_mem_cons.1 h
    cases texts with
    | nil =>
      rw [String.intercalate_singleton]
      exact ht.terminated
    | cons u texts =>
      obtain ⟨hsealed, hnesting, parts, hlength, hparts, hmasked⟩ :=
        ih (List.cons_ne_nil u texts) hrest
      obtain ⟨body, hbody, rfl⟩ := ht
      have hafter := after_semicolon hbody.isSealed
      have hline := masked_semicolon hbody.isSealed
      rw [String.intercalate_cons_cons]
      generalize String.intercalate "\n" (u :: texts) = rest at hsealed hnesting hmasked ⊢
      refine ⟨?_, ?_, masked body :: parts, congrArg (· + 1) hlength,
        List.forall_mem_cons.2 ⟨hbody.no_semicolon, hparts⟩, ?_⟩
      · rw [Text.isSealed, after_line hafter]
        exact hsealed
      · rw [masked_line hafter, hline, nesting_append, nesting_append, hbody.nesting]
        exact hnesting
      · rw [masked_line hafter, hline, hmasked]
        cases parts with
        | nil => cases hlength
        | cons part parts => simp [List.intercalate]

end SqlWright.Text
