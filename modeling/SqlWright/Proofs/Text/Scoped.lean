import SqlWright.Proofs.Text.Closed

/-!
# Texts in the scope of some aliases

Closed texts in which every alias before a dot is one of the first `n`, and in which no bracketed
name stands where an alias of a table would. Both are properties of what stands around a mark and
are seen close by, so they hold of a text that is put together from parts if they hold of the parts.
-/

namespace SqlWright.Text

/-! ## What stands around a mark -/

/-- A property of a mark, the marks before it and the marks after it that is seen close by: more
marks at either end do not matter, nor does it matter whether there is a literal or a blank at the
front or a blank at the end. -/
structure Near (P : List Mark → Mark → List Mark → Prop) : Prop where
  extend {before after : List Mark} {m : Mark} (front back : List Mark) :
    P before m after → P (front ++ before) m (after ++ back)
  front {skipped : Mark} {before after : List Mark} {m : Mark} :
    skipped = .literal ∨ skipped.isBlank = true → P (skipped :: before) m after → P before m after
  back {skipped : Mark} {before after : List Mark} {m : Mark} :
    skipped.isBlank = true → P before m (after ++ [skipped]) → P before m after

/-- Every mark has the property. -/
def Everywhere (P : List Mark → Mark → List Mark → Prop) (found : List Mark) : Prop :=
  ∀ before m after, found = before ++ m :: after → P before m after

namespace Everywhere

variable {P : List Mark → Mark → List Mark → Prop} {found more : List Mark}

theorem of_forall (h : ∀ m ∈ found, ∀ before after, P before m after) : Everywhere P found := by
  intro before m after heq
  exact h m (heq ▸ List.mem_append_right before List.mem_cons_self) before after

theorem append (hP : Near P) (h : Everywhere P found) (h' : Everywhere P more) :
    Everywhere P (found ++ more) := by
  intro before m after heq
  rcases List.append_eq_append_iff.1 heq with ⟨front, rfl, hmore⟩ | ⟨rest, hfound, hrest⟩
  · have hm := hP.extend found [] (h' front m after hmore)
    rwa [List.append_nil] at hm
  · cases rest with
    | nil =>
      have hm := hP.extend before [] (h' [] m after hrest.symm)
      rwa [List.append_nil, List.append_nil] at hm
    | cons d rest =>
      obtain ⟨rfl, rfl⟩ := List.cons.inj hrest
      exact hP.extend [] more (h before m rest hfound)

theorem tail (hP : Near P) {skipped : Mark}
    (hs : skipped = .literal ∨ skipped.isBlank = true) (h : Everywhere P (skipped :: found)) :
    Everywhere P found :=
  fun before m after heq => hP.front hs (h (skipped :: before) m after (congrArg _ heq))

theorem joined (hP : Near P) (mode : Mode) (h : Everywhere P found) :
    Everywhere P (mode.joined found) := by
  cases found with
  | nil => cases mode <;> exact h
  | cons mark found =>
    cases mode <;> cases mark <;> first | exact h | exact h.tail hP (.inl rfl)

theorem dropWhile (hP : Near P) (h : Everywhere P found) :
    Everywhere P (found.dropWhile Mark.isBlank) := by
  induction found with
  | nil => exact h
  | cons mark found ih =>
    by_cases hb : mark.isBlank = true
    · rw [List.dropWhile_cons_of_pos hb]
      exact ih (h.tail hP (.inr hb))
    · rw [List.dropWhile_cons_of_neg hb]
      exact h

theorem rdropWhile (hP : Near P) (h : Everywhere P found) :
    Everywhere P (found.rdropWhile Mark.isBlank) := by
  induction found using List.reverseRecOn with
  | nil => exact h
  | append_singleton found mark ih =>
    by_cases hb : mark.isBlank = true
    · rw [List.rdropWhile_concat_pos _ _ _ hb]
      refine ih fun before m after heq => hP.back hb (h before m (after ++ [mark]) ?_)
      rw [heq, List.append_assoc, List.cons_append]
    · rw [List.rdropWhile_concat_neg _ _ _ hb]
      exact h

variable {t u : String}

theorem masked_append (hP : Near P) (ht : isSealed t = true) (hu : Mark.code ']' ∉ masked u)
    (h : Everywhere P (masked t)) (h' : Everywhere P (masked u)) :
    Everywhere P (masked (t ++ u)) := by
  rw [Text.masked_append ht hu]
  exact h.append hP (h'.joined hP _)

theorem masked_trim (hP : Near P) (ht : isSealed t = true) (h : Everywhere P (masked t)) :
    Everywhere P (masked (trim t)) := by
  rw [Text.masked_trim ht]
  exact (h.dropWhile hP).rdropWhile hP

end Everywhere

/-! ## Qualifiers -/

/-- What follows the first letter of an alias before a dot. -/
def qualifierRest (k : Nat) : List Mark :=
  (Nat.toDigits 10 k).map .code ++ [.code '.']

/-- The first letter of an alias begins one of the first `n` aliases, and a dot is after it. -/
def Qualifies (n : Nat) (_ : List Mark) (m : Mark) (after : List Mark) : Prop :=
  m = .code 't' → ∃ k < n, qualifierRest k <+: after

theorem near_qualifies (n : Nat) : Near (Qualifies n) where
  extend _ back h hm := by
    obtain ⟨k, hk, hrest⟩ := h hm
    exact ⟨k, hk, hrest.trans (List.prefix_append _ back)⟩
  front _ h := h
  back {skipped _ after _} hs h hm := by
    obtain ⟨k, hk, hrest⟩ := h hm
    refine ⟨k, hk, ?_⟩
    rcases List.prefix_concat_iff.1 hrest with heq | hrest
    · -- The last mark of a qualifier is a dot and no blank.
      have hdot : skipped = .code '.' := by
        have hlast := congrArg List.getLast? heq
        rw [qualifierRest, List.getLast?_concat, List.getLast?_concat] at hlast
        exact (Option.some.inj hlast).symm
      rw [hdot] at hs
      exact absurd hs (by decide)
    · exact hrest

/-! ## Bracketed names -/

/-- A bracketed name after these marks is no alias of a table: a character that is no blank stands
before it, or before one space before it. -/
def Guards (before : List Mark) : Prop :=
  ∃ c, isBlank c = false ∧ ([.code c] <:+ before ∨ [.code c, .code ' '] <:+ before)

/-- A character of a bracketed name is not the first one, or the name is no alias of a table. -/
def Guarded (before : List Mark) (m : Mark) (_ : List Mark) : Prop :=
  ∀ c, m = .name c → Guards before ∨ ∃ d, [.name d] <:+ before

theorem Guards.extend {before : List Mark} (front : List Mark) (h : Guards before) :
    Guards (front ++ before) := by
  obtain ⟨c, hc, h | h⟩ := h
  · exact ⟨c, hc, .inl (h.trans (List.suffix_append front before))⟩
  · exact ⟨c, hc, .inr (h.trans (List.suffix_append front before))⟩

/-- A guard is a mark or two that are neither a literal nor begin with a blank. -/
theorem Guards.front {skipped : Mark} {before : List Mark}
    (hs : skipped = .literal ∨ skipped.isBlank = true) (h : Guards (skipped :: before)) :
    Guards before := by
  have hcode {c : Char} (hc : isBlank c = false) : Mark.code c ≠ skipped := by
    rintro rfl
    rcases hs with hs | hs
    · cases hs
    · rw [Mark.isBlank, hc] at hs
      cases hs
  obtain ⟨c, hc, h | h⟩ := h
  · rcases List.suffix_cons_iff.1 h with heq | h
    · exact absurd (List.cons.inj heq).1 (hcode hc)
    · exact ⟨c, hc, .inl h⟩
  · rcases List.suffix_cons_iff.1 h with heq | h
    · exact absurd (List.cons.inj heq).1 (hcode hc)
    · exact ⟨c, hc, .inr h⟩

theorem near_guarded : Near Guarded where
  extend {before _ _} front _ h c hm := by
    rcases h c hm with h | ⟨d, h⟩
    · exact .inl (h.extend front)
    · exact .inr ⟨d, h.trans (List.suffix_append front before)⟩
  front {skipped _ _ _} hs h c hm := by
    rcases h c hm with h | ⟨d, h⟩
    · exact .inl (h.front hs)
    · rcases List.suffix_cons_iff.1 h with heq | h
      · rw [← (List.cons.inj heq).1] at hs
        rcases hs with hs | hs <;> cases hs
      · exact .inr ⟨d, h⟩
  back _ h := h

theorem Guards.masked_append {t u : String} (ht : isSealed t = true)
    (hu : Mark.code ']' ∉ masked u) (h : Guards (masked u)) : Guards (masked (t ++ u)) := by
  rw [Text.masked_append ht hu]
  refine .extend _ ?_
  generalize masked u = found at h
  cases found with
  | nil => cases Mode.code.after t.toList <;> exact h
  | cons mark found =>
    cases Mode.code.after t.toList <;> cases mark <;> first | exact h | exact h.front (.inl rfl)

/-- Whether a text without quotes ends in a character that is no blank, or in that and a space. -/
def endsGuarding (t : String) : Bool :=
  t.toList.all Mode.isPlain &&
    match t.toList.reverse with
    | ' ' :: c :: _ | c :: _ => !isBlank c
    | [] => false

theorem Guards.of_ends {t : String} (h : endsGuarding t = true) : Guards (masked t) := by
  rw [endsGuarding, Bool.and_eq_true] at h
  obtain ⟨hplain, hend⟩ := h
  rw [masked_plain hplain]
  have hlist : t.toList = t.toList.reverse.reverse := (List.reverse_reverse _).symm
  rw [hlist]
  split at hend
  · next c rest hr =>
    refine ⟨c, Bool.not_eq_true' _ ▸ hend, .inr ?_⟩
    rw [hr]
    simp
  · next c rest _ hr =>
    refine ⟨c, Bool.not_eq_true' _ ▸ hend, .inl ?_⟩
    rw [hr]
    simp
  · cases hend

/-- A word at the end of a text guards what is after it. -/
theorem Guards.ends {t w : String} (ht : isSealed t = true) (hw : endsGuarding w = true) :
    Guards (masked (t ++ w)) := by
  refine .masked_append ht (not_mem_masked_plain ?_ rfl) (.of_ends hw)
  rw [endsGuarding, Bool.and_eq_true] at hw
  exact hw.1

/-! ## Scoped texts -/

/-- A part of a statement that names no aliases but the first `n`, each before a dot, and that holds
no name which could be read as the alias of a table, whatever text it stands in. It finds `i` open
parentheses and leaves `j`. -/
structure Scopes (n i j : Nat) (t : String) : Prop where
  spans : Spans i j t
  qualified : Everywhere (Qualifies n) (masked t)
  guarded : Everywhere Guarded (masked t)

/-- A closed text that names no aliases but the first `n`. -/
abbrev Scoped (n : Nat) (t : String) : Prop := Scopes n 0 0 t

/-- A bracketed name with a scoped text after it. -/
def StartsNamed (n : Nat) (t : String) : Prop :=
  ∃ name rest, t = bracketed name ++ rest ∧ Scoped n rest

theorem qualifies_of_ne {n : Nat} {m : Mark} (h : m ≠ .code 't') (before after : List Mark) :
    Qualifies n before m after :=
  fun hm => absurd hm h

theorem guarded_of_ne {m : Mark} (h : ∀ c, m ≠ .name c) (before after : List Mark) :
    Guarded before m after :=
  fun c hm => absurd hm (h c)

/-- Whether a character is neither a quote nor a semicolon nor the first letter of an alias. -/
def isBare (c : Char) : Bool :=
  Mode.isPlain c && c != 't'

/-- Whether a character is bare and no parenthesis. -/
def isWord (c : Char) : Bool :=
  Closed.isInert c && c != 't'

theorem isWord_iff {c : Char} : isWord c = true ↔ Closed.isInert c = true ∧ c ≠ 't' := by
  rw [isWord, Bool.and_eq_true, bne_iff_ne]

theorem isPlain_of_isWord {c : Char} (h : isWord c = true) : Mode.isPlain c = true := by
  have hinert := (isWord_iff.1 h).1
  rw [Closed.isInert, Bool.and_eq_true, Bool.and_eq_true] at hinert
  exact hinert.1.1

namespace Scopes

variable {n i j k : Nat} {t u : String}

/-- In a bare text there is neither an alias nor a name. -/
theorem everywhere_of_bare (h : t.toList.all isBare = true) :
    t.toList.all Mode.isPlain = true ∧ Everywhere (Qualifies n) (masked t) ∧
      Everywhere Guarded (masked t) := by
  have hbare {c : Char} (hc : c ∈ t.toList) : Mode.isPlain c = true ∧ c ≠ 't' := by
    have hcb := List.all_eq_true.1 h c hc
    rwa [isBare, Bool.and_eq_true, bne_iff_ne] at hcb
  have hplain : t.toList.all Mode.isPlain = true := List.all_eq_true.2 fun _ hc => (hbare hc).1
  rw [masked_plain hplain]
  refine ⟨hplain, .of_forall fun m hm => ?_, .of_forall fun m hm => ?_⟩
  · obtain ⟨c, hc, rfl⟩ := List.mem_map.1 hm
    exact qualifies_of_ne fun he => (hbare hc).2 (Mark.code.inj he)
  · obtain ⟨c, -, rfl⟩ := List.mem_map.1 hm
    exact guarded_of_ne fun d he => by cases he

/-- A text without quotes and without the first letter of an alias. -/
theorem bare (h : t.toList.all isBare = true)
    (hd : Text.nesting i (t.toList.map .code) = some j) : Scopes n i j t := by
  obtain ⟨hplain, hqualified, hguarded⟩ := everywhere_of_bare (n := n) h
  exact ⟨.plain hplain hd, hqualified, hguarded⟩

theorem append (ht : Scopes n i j t) (hu : Scopes n j k u) : Scopes n i k (t ++ u) where
  spans := ht.spans.append hu.spans
  qualified :=
    ht.qualified.masked_append (near_qualifies n) ht.spans.isSealed hu.spans.no_bracket
      hu.qualified
  guarded :=
    ht.guarded.masked_append near_guarded ht.spans.isSealed hu.spans.no_bracket hu.guarded

/-- Further open parentheses around a text do not matter to it. -/
theorem under (h : Scopes n i j t) (m : Nat) : Scopes n (i + m) (j + m) t :=
  { h with spans := h.spans.under m }

/-- More aliases do no harm. -/
theorem mono {m : Nat} (h : Scopes n i j t) (hnm : n ≤ m) : Scopes m i j t :=
  { h with
    qualified := fun before mark after heq hm => by
      obtain ⟨k, hk, hrest⟩ := h.qualified before mark after heq hm
      exact ⟨k, Nat.lt_of_lt_of_le hk hnm, hrest⟩ }

theorem head?_bracketed (name : String) : (masked (bracketed name)).head? ≠ some .literal := by
  rw [masked_bracketed, toList_bracketed]
  exact fun h => by cases h

/-- A bracketed name after a text that guards it. -/
theorem named (h : Scopes n i j t) (hg : Guards (masked t)) (name : String) :
    Scopes n i j (t ++ bracketed name) := by
  have hname := Closed.bracketed name
  have hmarks : masked (t ++ bracketed name) =
      masked t ++ (bracketed name).toList.map .name := by
    rw [masked_append_of_ne h.spans.isSealed hname.no_bracket (head?_bracketed name),
      masked_bracketed]
  refine ⟨h.spans.append (by simpa using hname.under j), ?_, ?_⟩
  · rw [hmarks]
    refine h.qualified.append (near_qualifies n) (.of_forall fun m hm => ?_)
    obtain ⟨c, -, rfl⟩ := List.mem_map.1 hm
    exact qualifies_of_ne fun he => by cases he
  · rw [hmarks]
    intro before m after heq
    rcases List.append_eq_append_iff.1 heq with ⟨front, rfl, hnames⟩ | ⟨rest, hfound, hrest⟩
    · -- The first character of the name is guarded by the text, the others by the one before them.
      intro c hc
      rcases List.eq_nil_or_concat front with rfl | ⟨init, last, rfl⟩
      · rw [List.append_nil]
        exact .inl hg
      · have hlast : last ∈ (bracketed name).toList.map Mark.name := by
          rw [hnames]
          simp
        obtain ⟨d, -, rfl⟩ := List.mem_map.1 hlast
        refine .inr ⟨d, ?_⟩
        rw [List.concat_eq_append, ← List.append_assoc]
        exact List.suffix_append _ _
    · cases rest with
      | nil =>
        rw [List.append_nil] at hfound
        rw [← hfound]
        exact fun c _ => .inl hg
      | cons d rest =>
        obtain ⟨rfl, rfl⟩ := List.cons.inj hrest
        exact h.guarded before m rest hfound

/-- Bracketed names with texts after them, in a list after a text. -/
theorem listed (h : Scopes n i j t) (hg : Guards (masked t)) {separator : String}
    (hs : Scoped n separator) (hgs : Guards (masked separator)) {texts : List String}
    (ht : ∀ u ∈ texts, StartsNamed n u) :
    Scopes n i j (t ++ String.intercalate separator texts) := by
  induction texts generalizing i t with
  | nil =>
    rw [String.intercalate_nil, String.append_empty]
    exact h
  | cons u texts ih =>
    rw [List.forall_mem_cons] at ht
    have hfirst : Scopes n i j (t ++ u) := by
      obtain ⟨name, rest, rfl, hrest⟩ := ht.1
      rw [← String.append_assoc]
      exact (h.named hg name).append (by simpa using hrest.under j)
    cases texts with
    | nil =>
      rw [String.intercalate_singleton]
      exact hfirst
    | cons v texts =>
      have hnext : Scopes n j j (separator ++ String.intercalate separator (v :: texts)) :=
        ih (by simpa using hs.under j) hgs ht.2
      rw [String.intercalate_cons_cons, String.append_assoc, ← String.append_assoc]
      exact hfirst.append hnext

end Scopes

namespace Scoped

variable {n : Nat} {t : String}

theorem closed (h : Scoped n t) : Closed t := h.spans

/-- Between scoped texts no parenthesis is open. -/
theorem append {u : String} (ht : Scoped n t) (hu : Scoped n u) : Scoped n (t ++ u) :=
  Scopes.append ht hu

theorem word (h : t.toList.all isWord = true) : Scoped n t := by
  have hword {c : Char} (hc : c ∈ t.toList) : isWord c = true := List.all_eq_true.1 h c hc
  have hinert : t.toList.all Closed.isInert = true :=
    List.all_eq_true.2 fun _ hc => (isWord_iff.1 (hword hc)).1
  have hbare : t.toList.all isBare = true := by
    refine List.all_eq_true.2 fun c hc => ?_
    rw [isBare, isPlain_of_isWord (hword hc), Bool.true_and, bne_iff_ne]
    exact (isWord_iff.1 (hword hc)).2
  obtain ⟨-, hqualified, hguarded⟩ := Scopes.everywhere_of_bare (n := n) hbare
  exact ⟨Closed.of_inert hinert, hqualified, hguarded⟩

theorem empty : Scoped n "" := word (by decide)

theorem space : Scoped n " " := word (by decide)

theorem equal : Scoped n "=" := word (by decide)

theorem quoted (s : String) : Scoped n (quoted s) where
  spans := Closed.quoted s
  qualified := by
    rw [masked_quoted]
    exact .of_forall fun m hm => qualifies_of_ne (by rw [List.mem_singleton.1 hm]; simp)
  guarded := by
    rw [masked_quoted]
    exact .of_forall fun m hm => guarded_of_ne (by rw [List.mem_singleton.1 hm]; simp)

theorem trim (h : Scoped n t) : Scoped n (trim t) where
  spans := h.closed.trim
  qualified := h.qualified.masked_trim (near_qualifies n) h.spans.isSealed
  guarded := h.guarded.masked_trim near_guarded h.spans.isSealed

/-- A text inside a parenthesis that the text before it opens. -/
theorem inside {opening : String} (ho : Scopes n 0 1 opening) (h : Scoped n t) :
    Scoped n (opening ++ t ++ ")") :=
  (ho.append (h.under 1)).append (.bare (by decide) (by decide))

theorem parenthesized (h : Scoped n t) : Scoped n (parenthesized t) :=
  inside (.bare (by decide) (by decide)) h

theorem grouped (h : Scoped n t) : Scoped n (grouped t) :=
  grouped_of h h.parenthesized

theorem intercalate {separator : String} (hs : Scoped n separator) {texts : List String}
    (h : ∀ t ∈ texts, Scoped n t) : Scoped n (String.intercalate separator texts) :=
  intercalate_induction empty append hs h

/-- The texts of some things, with commas between them. -/
theorem commas {texts : List String} (h : ∀ t ∈ texts, Scoped n t) :
    Scoped n (String.intercalate "," texts) :=
  intercalate (word (by decide)) h

end Scoped

theorem StartsNamed.bracketed {n : Nat} (name : String) : StartsNamed n (bracketed name) :=
  ⟨name, "", (String.append_empty).symm, .empty⟩

theorem StartsNamed.mono {m n : Nat} {t : String} (h : StartsNamed m t) (hmn : m ≤ n) :
    StartsNamed n t := by
  obtain ⟨name, rest, rfl, hrest⟩ := h
  exact ⟨name, rest, rfl, hrest.mono hmn⟩

end SqlWright.Text
