import SqlWright.Identifier
import SqlWright.Proofs.Registry.Mentions
import SqlWright.Proofs.Text.Scoped

/-!
# The aliases that a statement introduces

How aliases are read in the text of a statement, quotes aside. The keywords `FROM` and `JOIN` with
the name of a table introduce the bracketed name after that, and an alias before a dot qualifies a
column. A text that is scoped introduces nothing, so the aliases that a statement introduces are
those of its tables, in the order in which it names them.
-/

namespace SqlWright.Text

/-- Whether a mark belongs to a bracketed name. -/
def Mark.isName : Mark → Bool
  | .name _ => true
  | .code _ | .literal => false

/-- Whether a mark belongs to the name of a table: bracketed names with dots between them. -/
def Mark.isTable : Mark → Bool
  | .name _ => true
  | .code c => c == '.'
  | .literal => false

/-- The bracketed name that some marks begin with. -/
def nameText : List Mark → List Char
  | .name c :: found => c :: nameText found
  | _ => []

/-- Whether what stands before a place is `FROM` or `JOIN` with the name of a table and a space. The
marks are given from the last one on. -/
def introduces : List Mark → Bool
  | .code ' ' :: .name _ :: before =>
    let keyword := before.dropWhile Mark.isTable
    ("FROM ".toList.map Mark.code).reverse.isPrefixOf keyword ||
      ("JOIN ".toList.map Mark.code).reverse.isPrefixOf keyword
  | _ => false

/-- The bracketed names that are introduced in some marks after the marks `seen`, which are given
from the last one on. -/
def introduced : List Mark → List Mark → List String
  | _, [] => []
  | seen, m :: found =>
    if m.isName && introduces seen then
      String.ofList (nameText (m :: found)) :: introduced (m :: seen) found
    else introduced (m :: seen) found

/-- The aliases that a text introduces, in their brackets. -/
def introductions (t : String) : List String :=
  introduced [] (masked t)

/-- The alias at a place stands before a dot, outside the quotes of a text. -/
def HasQualifier (k : Nat) (t : String) : Prop :=
  (Registry.aliasAt k ++ ".").toList.map Mark.code <:+: masked t

instance (k : Nat) (t : String) : Decidable (HasQualifier k t) :=
  inferInstanceAs (Decidable (_ <:+: masked t))

/-! ## Reading on -/

section Introduced

variable {seen found more : List Mark}

/-- After a guard no name is the alias of a table, and within a name none begins. -/
theorem introduces_of_guarded {before after : List Mark} {c : Char}
    (h : Guarded before (.name c) after) : introduces (before.reverse ++ seen) = false := by
  rcases h c rfl with ⟨d, hd, ⟨front, rfl⟩ | ⟨front, rfl⟩⟩ | ⟨d, front, rfl⟩
  · have hne : d ≠ ' ' := by
      rintro rfl
      cases hd
    rw [List.reverse_append]
    simp [introduces, hne]
  · rw [List.reverse_append]
    rfl
  · rw [List.reverse_append]
    rfl

/-- Guarded names introduce nothing, whatever is before them. -/
theorem introduced_of_guarded (h : Everywhere Guarded found) : introduced seen found = [] := by
  suffices hrest : ∀ rest before, found = before ++ rest →
      introduced (before.reverse ++ seen) rest = [] from hrest found [] rfl
  intro rest
  induction rest with
  | nil => exact fun _ _ => rfl
  | cons m rest ih =>
    intro before heq
    have hnext := ih (before ++ [m]) (by rw [heq, List.append_assoc]; rfl)
    rw [List.reverse_append, List.reverse_singleton, List.append_assoc] at hnext
    rw [introduced, if_neg ?_]
    · exact hnext
    · cases m with
      | name c =>
        rw [introduces_of_guarded (h before _ rest heq), Bool.and_false]
        exact Bool.false_ne_true
      | code c | literal => exact Bool.false_ne_true

theorem nameText_append (h : ∀ c, more.head? ≠ some (.name c)) :
    nameText (found ++ more) = nameText found := by
  induction found with
  | nil =>
    cases more with
    | nil => rfl
    | cons m more =>
      cases m with
      | name c => exact absurd rfl (h c)
      | code c | literal => rfl
  | cons m found ih =>
    cases m with
    | name c => exact congrArg (c :: ·) ih
    | code c | literal => rfl

/-- What is introduced in two parts, unless a name goes on from the one to the other. -/
theorem introduced_append (h : ∀ c, more.head? ≠ some (.name c)) :
    introduced seen (found ++ more) =
      introduced seen found ++ introduced (found.reverse ++ seen) more := by
  induction found generalizing seen with
  | nil => rfl
  | cons m found ih =>
    have htext : nameText (m :: found ++ more) = nameText (m :: found) := nameText_append h
    rw [List.cons_append] at htext
    rw [List.cons_append, introduced, introduced, ih, htext, List.reverse_cons, List.append_assoc]
    split <;> rfl

/-- What is introduced in two parts if the first one ends outside names. -/
theorem introduced_append_code (c : Char) :
    introduced seen (found ++ [.code c] ++ more) =
      introduced seen (found ++ [.code c]) ++
        introduced (.code c :: (found.reverse ++ seen)) more := by
  have hcode (more : List Mark) : ∀ d, (Mark.code c :: more).head? ≠ some (.name d) :=
    fun d h => by cases h
  have hstep (seen more : List Mark) :
      introduced seen (.code c :: more) = introduced (.code c :: seen) more :=
    if_neg Bool.false_ne_true
  rw [List.append_assoc, List.singleton_append, introduced_append (hcode more),
    introduced_append (hcode []), hstep, hstep, List.append_assoc]
  rfl

/-- Between spaces nothing is introduced but at the first place. -/
theorem introduced_of_no_space (hs : introduces seen = false) (h : Mark.code ' ' ∉ found) :
    introduced seen found = [] := by
  induction found generalizing seen with
  | nil => rfl
  | cons m found ih =>
    rw [List.mem_cons, not_or] at h
    have hnext : introduces (m :: seen) = false := by
      unfold introduces
      split
      · next heq => exact absurd (List.cons.inj heq).1.symm h.1
      · rfl
    rw [introduced, hs, Bool.and_false, if_neg Bool.false_ne_true]
    exact ih hnext h.2

/-- A name is introduced once, at its first character. -/
theorem introduced_names {cs : List Char} (hcs : cs ≠ []) (hs : introduces seen = true) :
    introduced seen (cs.map .name) = [String.ofList cs] := by
  have htext (ds : List Char) : nameText (ds.map .name) = ds := by
    induction ds with
    | nil => rfl
    | cons d ds ih => exact congrArg (d :: ·) ih
  have hinside (c : Char) (seen : List Mark) (ds : List Char) :
      introduced (.name c :: seen) (ds.map .name) = [] := by
    induction ds generalizing c seen with
    | nil => rfl
    | cons d ds ih =>
      rw [List.map_cons, introduced, if_neg (by exact Bool.false_ne_true)]
      exact ih d _
  cases cs with
  | nil => exact absurd rfl hcs
  | cons c cs =>
    have hfirst : (Mark.name c).isName && introduces seen := by rw [hs]; rfl
    have hname := htext (c :: cs)
    rw [List.map_cons] at hname ⊢
    rw [introduced, if_pos hfirst, hname, hinside]

end Introduced

/-! ## Qualifiers -/

/-- What follows the first letter of an alias before a dot tells which alias it is. -/
theorem eq_of_qualifierRest {j k : Nat} {rest after : List Mark}
    (h : qualifierRest j ++ rest = qualifierRest k ++ after) : j = k := by
  have hdigits (n : Nat) (more : List Mark) :
      (qualifierRest n ++ more).takeWhile (· != .code '.') = (Nat.toDigits 10 n).map .code := by
    have hdigit : ∀ m ∈ (Nat.toDigits 10 n).map Mark.code, (m != .code '.') = true := by
      intro m hm
      obtain ⟨c, hc, rfl⟩ := List.mem_map.1 hm
      have hd := Nat.isDigit_of_mem_toDigits (by omega) (by omega) hc
      rw [bne_iff_ne]
      rintro ⟨⟩
      exact absurd hd (by decide)
    rw [qualifierRest, List.append_assoc, List.takeWhile_append_of_pos hdigit,
      List.singleton_append, List.takeWhile_cons_of_neg (by decide), List.append_nil]
  have hmarks := hdigits j rest
  rw [h, hdigits k after] at hmarks
  have hcode : Function.Injective Mark.code := fun _ _ he => Mark.code.inj he
  exact (Registry.toDigits_injective (hcode.list_map hmarks)).symm

/-- A qualifier of a text is one of those that the text is limited to. -/
theorem HasQualifier.lt {n k : Nat} {t : String} (h : HasQualifier k t)
    (hq : Everywhere (Qualifies n) (masked t)) : k < n := by
  obtain ⟨before, after, heq⟩ := h
  rw [Registry.toList_qualifier, List.append_assoc, List.cons_append] at heq
  obtain ⟨j, hj, rest, hrest⟩ := hq before _ _ heq.symm rfl
  rwa [← eq_of_qualifierRest hrest]

/-! ## Tables -/

theorem head?_table {front : List Mark} (h : ∀ m ∈ front, m.isTable = true) (c : Char)
    (more : List Mark) : (front ++ [Mark.name c] ++ more).head? ≠ some .literal := by
  cases front with
  | nil => exact fun h => by cases h
  | cons m front =>
    rintro ⟨⟩
    exact absurd (h .literal List.mem_cons_self) Bool.false_ne_true

/-- The written name of a table is made of bracketed names and dots, and a name is at its end. -/
theorem masked_identifier {parts : List String} (hne : parts ≠ []) :
    ∃ front c, masked (Identifier.text ⟨parts⟩) = front ++ [.name c] ∧
      ∀ m ∈ front, m.isTable = true := by
  have hpart (part : String) : ∃ front c, masked (bracketed part) = front ++ [.name c] ∧
      ∀ m ∈ front, m.isTable = true := by
    refine ⟨('[' :: doubled ']' part.toList).map .name, ']', ?_, fun m hm => ?_⟩
    · rw [masked_bracketed, toList_bracketed]
      simp
    · obtain ⟨c, -, rfl⟩ := List.mem_map.1 hm
      rfl
  induction parts with
  | nil => exact absurd rfl hne
  | cons part parts ih =>
    cases parts with
    | nil =>
      rw [Identifier.text, List.map_singleton, String.intercalate_singleton]
      exact hpart part
    | cons next parts =>
      obtain ⟨front, c, hfirst, hfront⟩ := hpart part
      obtain ⟨rest, d, hnext, hrest⟩ := ih (List.cons_ne_nil next parts)
      have hdot : masked (bracketed part ++ ".") = front ++ [.name c] ++ [.code '.'] := by
        rw [masked_append_of_ne (Closed.bracketed part).isSealed Closed.dot.no_bracket (by decide),
          hfirst]
        rfl
      have hliteral : (rest ++ [Mark.name d]).head? ≠ some .literal := by
        have hhead := head?_table hrest d []
        rwa [List.append_nil] at hhead
      refine ⟨front ++ [.name c] ++ [.code '.'] ++ rest, d, ?_, ?_⟩
      · rw [Identifier.text, List.map_cons, List.map_cons, String.intercalate_cons_cons,
          ← List.map_cons]
        show masked (bracketed part ++ "." ++ Identifier.text ⟨next :: parts⟩) = _
        rw [masked_append_of_ne ((Closed.bracketed part).append .dot).isSealed
          (Identifier.text_closed _).no_bracket (hnext ▸ hliteral), hnext, hdot]
        exact (List.append_assoc ..).symm
      · have hname : (Mark.name c).isTable = true := rfl
        have hcode : (Mark.code '.').isTable = true := rfl
        simp only [List.forall_mem_append, List.forall_mem_singleton]
        exact ⟨⟨⟨hfront, hname⟩, hcode⟩, hrest⟩

/-! ## Texts that introduce aliases -/

/-- A closed text that names no aliases but the first `n`, each before a dot, and introduces the
names `aliases`. -/
structure Introduces (n : Nat) (aliases : List String) (t : String) : Prop where
  closed : Closed t
  qualified : Everywhere (Qualifies n) (masked t)
  introductions : introductions t = aliases

variable {n : Nat} {aliases : List String} {t u : String}

theorem Scoped.introduces (h : Scoped n t) : Introduces n [] t :=
  ⟨h.closed, h.qualified, introduced_of_guarded h.guarded⟩

theorem Introduces.append_scoped (h : Introduces n aliases t) (hu : Scoped n u) :
    Introduces n aliases (t ++ u) where
  closed := h.closed.append hu.closed
  qualified :=
    h.qualified.masked_append (near_qualifies n) h.closed.isSealed hu.spans.no_bracket hu.qualified
  introductions := by
    have hguarded := hu.guarded.joined near_guarded (Mode.code.after t.toList)
    rw [Text.introductions, masked_append h.closed.isSealed hu.spans.no_bracket]
    generalize (Mode.code.after t.toList).joined (masked u) = more at hguarded ⊢
    have hname : ∀ c, more.head? ≠ some (.name c) := by
      intro c hc
      obtain ⟨rest, rfl⟩ : ∃ rest, more = .name c :: rest := by
        cases more with
        | nil => cases hc
        | cons m rest => exact ⟨rest, by rw [Option.some.inj hc]⟩
      rcases hguarded [] _ rest rfl c rfl with ⟨d, -, h | h⟩ | ⟨d, h⟩ <;>
        exact absurd (List.eq_nil_of_suffix_nil h) (by simp)
    rw [introduced_append hname, introduced_of_guarded hguarded, List.append_nil]
    exact h.introductions

/-- A text ends in `FROM` or `JOIN` and a space. -/
def EndsInKeyword (t : String) : Prop :=
  "FROM ".toList.map Mark.code <:+ masked t ∨ "JOIN ".toList.map Mark.code <:+ masked t

namespace EndsInKeyword

theorem of_word {w : String} (ht : isSealed t = true) (hw : w.toList.all Mode.isPlain = true)
    (h : "FROM ".toList <:+ w.toList ∨ "JOIN ".toList <:+ w.toList) : EndsInKeyword (t ++ w) := by
  have hliteral : (masked w).head? ≠ some .literal := by
    rw [masked_plain hw]
    cases w.toList with
    | nil => exact fun h => by cases h
    | cons c cs => exact fun h => by cases h
  have hend (keyword : List Char) (hk : keyword <:+ w.toList) :
      keyword.map Mark.code <:+ masked t ++ w.toList.map .code :=
    (hk.map Mark.code).trans (List.suffix_append _ _)
  rw [EndsInKeyword, masked_append_of_ne ht (not_mem_masked_plain hw rfl) hliteral,
    masked_plain hw]
  exact h.imp (hend _) (hend _)

/-- After the keyword itself there is the name of a table and no alias. -/
theorem introduces_reverse (h : EndsInKeyword t) :
    ∃ init, masked t = init ++ [.code ' '] ∧ introduces (masked t).reverse = false := by
  rcases h with ⟨init, hinit⟩ | ⟨init, hinit⟩
  · refine ⟨init ++ "FROM".toList.map .code, ?_, ?_⟩
    · rw [← hinit, List.append_assoc]
      rfl
    · rw [← hinit, List.reverse_append]
      rfl
  · refine ⟨init ++ "JOIN".toList.map .code, ?_, ?_⟩
    · rw [← hinit, List.append_assoc]
      rfl
    · rw [← hinit, List.reverse_append]
      rfl

/-- After the keyword, the name of a table and a space there is an alias. -/
theorem introduces_table (h : EndsInKeyword t) {front : List Mark}
    (hf : ∀ m ∈ front, m.isTable = true) (c : Char) :
    introduces (.code ' ' :: .name c :: (front.reverse ++ (masked t).reverse)) = true := by
  have hreverse : ∀ m ∈ front.reverse, m.isTable = true :=
    fun m hm => hf m (List.mem_reverse.1 hm)
  have hblank (before : List Mark) :
      (Mark.code ' ' :: before).dropWhile Mark.isTable = .code ' ' :: before :=
    List.dropWhile_cons_of_neg (by decide)
  have hdrop : (front.reverse ++ (masked t).reverse).dropWhile Mark.isTable =
      (masked t).reverse := by
    obtain ⟨init, hinit, -⟩ := h.introduces_reverse
    rw [List.dropWhile_append_of_pos hreverse, hinit, List.reverse_append]
    exact hblank init.reverse
  rw [introduces, hdrop, Bool.or_eq_true]
  rcases h with hk | hk
  · exact .inl (List.isPrefixOf_iff_prefix.2 (List.reverse_prefix.2 hk))
  · exact .inr (List.isPrefixOf_iff_prefix.2 (List.reverse_prefix.2 hk))

end EndsInKeyword

/-- The name of a table and, after a space, a name in brackets. -/
def IsSource (name t : String) : Prop :=
  ∃ parts, parts ≠ [] ∧ t = Identifier.text ⟨parts⟩ ++ " " ++ bracketed name

/-- A table under a name as a reader of quotes sees it. -/
theorem masked_source {name source : String} (hs : IsSource name source) :
    Closed source ∧ ∃ front c, (∀ m ∈ front, m.isTable = true) ∧
      masked source = front ++ [.name c] ++ [.code ' '] ++ (bracketed name).toList.map .name := by
  obtain ⟨parts, hne, rfl⟩ := hs
  have hspaced := (Identifier.text_closed ⟨parts⟩).append .space
  obtain ⟨front, c, htable, hfront⟩ := masked_identifier hne
  refine ⟨hspaced.append (.bracketed name), front, c, hfront, ?_⟩
  rw [masked_append_of_ne hspaced.isSealed (Closed.bracketed name).no_bracket
      (Scopes.head?_bracketed name),
    masked_append_of_ne (Identifier.text_closed ⟨parts⟩).isSealed Closed.space.no_bracket
      (by decide), htable, masked_bracketed]
  rfl

/-- After the keyword the name in brackets is introduced, and it alone: neither the keyword nor the
name of the table goes on. -/
theorem EndsInKeyword.introduced_source (h : EndsInKeyword t) {front : List Mark}
    (hf : ∀ m ∈ front, m.isTable = true) (c : Char) (name : String) :
    introduced (masked t).reverse
      (front ++ [.name c] ++ [.code ' '] ++ (bracketed name).toList.map .name) =
        [bracketed name] := by
  have hspace : Mark.code ' ' ∉ front ++ [.name c] := by
    intro hm
    rcases List.mem_append.1 hm with hm | hm
    · exact absurd (hf _ hm) (by decide)
    · cases List.mem_singleton.1 hm
  obtain ⟨-, -, hplace⟩ := h.introduces_reverse
  have hplain : introduced (masked t).reverse (front ++ [.name c] ++ [.code ' ']) = [] := by
    rw [introduced_append (fun d h => by cases h), introduced_of_no_space hplace hspace]
    rfl
  have hnames : (bracketed name).toList ≠ [] := by
    rw [toList_bracketed]
    exact List.cons_ne_nil _ _
  rw [introduced_append_code, hplain, List.nil_append, List.reverse_append,
    List.reverse_singleton, List.append_assoc]
  exact (introduced_names hnames (h.introduces_table hf c)).trans
    (congrArg (fun s => [s]) String.ofList_toList)

/-- A table under its alias after `FROM` or `JOIN` introduces the alias. -/
theorem Introduces.append_source (h : Introduces n aliases t) (hk : EndsInKeyword t)
    {name source : String} (hs : IsSource name source) :
    Introduces n (aliases ++ [bracketed name]) (t ++ source) := by
  obtain ⟨hsource, front, c, hfront, hmarks⟩ := masked_source hs
  have hliteral : (masked source).head? ≠ some .literal := by
    rw [hmarks, List.append_assoc]
    exact head?_table hfront c _
  have happend := masked_append_of_ne h.closed.isSealed hsource.no_bracket hliteral
  refine ⟨h.closed.append hsource, ?_, ?_⟩
  · rw [happend]
    refine h.qualified.append (near_qualifies n) (.of_forall fun m hm => qualifies_of_ne ?_)
    rintro rfl
    simp only [hmarks, List.mem_append, List.mem_singleton, List.mem_map] at hm
    rcases hm with ((hm | hm) | hm) | ⟨d, -, hm⟩
    · exact absurd (hfront _ hm) (by decide)
    · cases hm
    · cases hm
    · cases hm
  · obtain ⟨init, hinit, -⟩ := hk.introduces_reverse
    have hreverse : (masked t).reverse = .code ' ' :: init.reverse := by
      rw [hinit, List.reverse_append]
      rfl
    rw [Text.introductions, happend, hmarks, hinit, introduced_append_code, List.append_nil,
      ← hinit, ← hreverse, hk.introduced_source hfront c name]
    exact congrArg (· ++ [bracketed name]) h.introductions

/-! ## Whole statements -/

/-- A statement that names no aliases but the first `n`, each before a dot, and introduces the names
`aliases`. -/
def IsStatementOf (n : Nat) (aliases : List String) (t : String) : Prop :=
  ∃ body, Introduces n aliases body ∧ t = body ++ ";"

namespace IsStatementOf

theorem isStatement (h : IsStatementOf n aliases t) : IsStatement t := by
  obtain ⟨body, hbody, rfl⟩ := h
  exact ⟨body, hbody.closed, rfl⟩

theorem introductions_eq (h : IsStatementOf n aliases t) : introductions t = aliases := by
  obtain ⟨body, hbody, rfl⟩ := h
  rw [introductions, masked_semicolon hbody.closed.isSealed,
    introduced_append fun d h => by cases h]
  exact (List.append_nil _).trans hbody.introductions

theorem lt_of_hasQualifier (h : IsStatementOf n aliases t) {k : Nat} (hk : HasQualifier k t) :
    k < n := by
  obtain ⟨body, hbody, rfl⟩ := h
  refine hk.lt ?_
  rw [masked_semicolon hbody.closed.isSealed]
  refine hbody.qualified.append (near_qualifies n) (.of_forall fun m hm => qualifies_of_ne ?_)
  rw [List.mem_singleton.1 hm]
  simp

end IsStatementOf

end SqlWright.Text
