import Mathlib.Data.List.SplitBy
import SqlWright.Clause.Conditions
import SqlWright.Identifier
import SqlWright.Proofs.Text.Surface

/-!
# Words on the surface

A reader of conditions that knows quotes, parentheses and the words `AND` and `OR`. It cuts a text
wherever one of these words stands on the surface, in whatever case it is written. A text without
such a word is unlinked: it comes back whole, also when it stands between two connectives.
-/

namespace SqlWright.Text

/-! ## Words -/

/-- Whether a glyph is a part of a word. -/
def Glyph.isWord (g : Glyph) : Bool :=
  g.visible && Identifier.isNameRest g.char

/-- The words of a text. Every glyph that is no part of a word stands alone. -/
def words (glyphs : List Glyph) : List (List Glyph) :=
  glyphs.splitBy fun g h => g.isWord && h.isWord

/-- Whether a word is this keyword, in any case. -/
def spells (keyword : String) (w : List Glyph) : Bool :=
  w.map (fun g => ⟨g.char.toUpper, g.visible⟩) == keyword.toList.map Glyph.shown

/-- The connective that a word stands for. -/
def connective? (w : List Glyph) : Option Connective :=
  [Connective.and, .or].find? fun op => spells op.keyword w

/-- Cuts some words at the connectives: the words before the first one, and each connective with the
words after it. -/
def cut : List (List Glyph) → List (List Glyph) × List (Connective × List (List Glyph))
  | [] => ([], [])
  | w :: ws =>
    match connective? w with
    | some op => ([], (op, (cut ws).1) :: (cut ws).2)
    | none => (w :: (cut ws).1, (cut ws).2)

/-- The text of some words, without the blanks at its ends. -/
def spelled (ws : List (List Glyph)) : String :=
  trim (String.ofList (ws.flatten.map Glyph.char))

/-- Splits a text at the connectives on its surface. -/
def split (t : String) : String × List (Connective × String) :=
  let (first, rest) := cut (words (surface t))
  (spelled first, rest.map fun part => (part.1, spelled part.2))

theorem spells_iff {keyword : String} {w : List Glyph} :
    spells keyword w = true ↔
      w.map (fun g => ⟨g.char.toUpper, g.visible⟩) = keyword.toList.map Glyph.shown :=
  beq_iff_eq

theorem mem_of_mem_words {glyphs w : List Glyph} (hw : w ∈ words glyphs) {g : Glyph} (hg : g ∈ w) :
    g ∈ glyphs := by
  rw [← List.flatten_splitBy (fun g h => g.isWord && h.isWord) glyphs]
  exact List.mem_flatten_of_mem hw hg

theorem words_append {p q : List Glyph}
    (h : (∀ g ∈ p.getLast?, g.isWord = false) ∨ ∀ g ∈ q.head?, g.isWord = false) :
    words (p ++ q) = words p ++ words q := by
  refine List.splitBy_append fun g hg g' hg' => ?_
  rcases h with h | h
  · rw [h g hg, Bool.false_and]
  · rw [h g' hg', Bool.and_false]

/-- A keyword has its letters on the surface. -/
theorem exists_of_spells {keyword : String} {w : List Glyph} (h : spells keyword w = true)
    {c : Char} (hc : c ∈ keyword.toList) : ∃ g ∈ w, g.visible = true ∧ g.char.toUpper = c := by
  have hmem := List.mem_map_of_mem (f := Glyph.shown) hc
  rw [← spells_iff.1 h] at hmem
  obtain ⟨g, hg, heq⟩ := List.mem_map.1 hmem
  obtain ⟨hchar, hvisible⟩ := Glyph.mk.inj heq
  exact ⟨g, hg, hvisible, hchar⟩

theorem isNameRest_of_isBlank {c : Char} (h : isBlank c = true) :
    Identifier.isNameRest c = false := by
  by_contra hn
  have hrest : Identifier.isNameRest c =
      (c == '_' || c == '@' || c == '#' || c == '$' ||
        (decide (c.val ≥ 'A'.val ∧ c.val ≤ 'Z'.val) ||
            (decide (c.val ≥ 'a'.val) && decide (c.val ≤ 'z'.val)) ||
          (decide (c.val ≥ '0'.val) && decide (c.val ≤ '9'.val)))) := rfl
  simp only [hrest, UInt32.le_iff_toNat_le, Char.ext_iff, ← UInt32.toNat_inj, Bool.not_eq_false,
    Bool.or_eq_true, Bool.and_eq_true, decide_eq_true_eq, beq_iff_eq, Char.toNat_val,
    Char.reduceToNat] at hn
  simp only [isBlank, Bool.or_eq_true, Bool.and_eq_true, decide_eq_true_eq, beq_iff_eq] at h
  omega

theorem isWord_of_isBlank {g : Glyph} (h : isBlank g.char = true) : g.isWord = false := by
  rw [Glyph.isWord, isNameRest_of_isBlank h, Bool.and_false]

/-! ## Where no word crosses the border between two texts -/

/-- Whether no word of a text goes on with one before it. -/
def opensApart (t : String) : Bool :=
  t.toList.head?.all fun c => !Identifier.isNameRest c

/-- Whether no word of a text goes on with one after it. -/
def endsApart (t : String) : Bool :=
  t.toList.getLast?.all fun c => !Identifier.isNameRest c

variable {t u : String}

theorem endsApart_append (t : String) {u : String} (hu : u ≠ "") :
    endsApart (t ++ u) = endsApart u := by
  have hne : u.toList ≠ [] := fun h => hu (String.toList_eq_nil_iff.1 h)
  rw [endsApart, endsApart, String.toList_append, List.getLast?_append_of_ne_nil _ hne]

theorem opensApart_append (u : String) (ht : t ≠ "") : opensApart (t ++ u) = opensApart t := by
  have hne : t.toList ≠ [] := fun h => ht (String.toList_eq_nil_iff.1 h)
  rw [opensApart, opensApart, String.toList_append, List.head?_append_of_ne_nil _ hne]

theorem words_surface_append (ht : Balanced t) (hu : Balanced u)
    (h : endsApart t = true ∨ opensApart u = true) :
    words (surface (t ++ u)) = words (surface t) ++ words (surface u) := by
  rw [surface_append ht hu]
  refine words_append (h.imp (fun h g hg => ?_) fun h g hg => ?_)
  · have hchar : g.char ∈ t.toList.getLast? := by
      rw [← map_char_surface, List.getLast?_map]
      exact Option.mem_map_of_mem _ hg
    rw [endsApart, hchar, Option.all_some, Bool.not_eq_true'] at h
    rw [Glyph.isWord, h, Bool.and_false]
  · have hchar : g.char ∈ u.toList.head? := by
      rw [← map_char_surface, List.head?_map]
      exact Option.mem_map_of_mem _ hg
    rw [opensApart, hchar, Option.all_some, Bool.not_eq_true'] at h
    rw [Glyph.isWord, h, Bool.and_false]

theorem endsApart_comma (t : String) : endsApart (t ++ ",") = true := by
  rw [endsApart_append t (by decide)]
  decide

/-! ## Texts without connectives -/

/-- Every connective has one of two letters. -/
theorem connective?_eq_none (h : ∀ g ∈ surface t, g.visible = true →
    g.char.toUpper ≠ 'N' ∧ g.char.toUpper ≠ 'R') :
    ∀ w ∈ words (surface t), connective? w = none := by
  intro w hw
  rw [connective?, List.find?_eq_none]
  intro op _ hop
  obtain ⟨c, hc, hletter⟩ : ∃ c ∈ op.keyword.toList, c = 'N' ∨ c = 'R' := by
    cases op
    · exact ⟨'N', by decide, .inl rfl⟩
    · exact ⟨'R', by decide, .inr rfl⟩
  obtain ⟨g, hg, hvisible, rfl⟩ := exists_of_spells hop hc
  obtain ⟨hn, hr⟩ := h g (mem_of_mem_words hw hg) hvisible
  exact hletter.elim hn hr

/-- Inside parentheses anything may stand. -/
theorem connective?_parenthesized (h : Balanced t) :
    ∀ w ∈ words (surface (parenthesized t)), connective? w = none := by
  refine connective?_eq_none fun g hg hvisible => ?_
  rcases eq_of_mem_surface_parenthesized h hg hvisible with rfl | rfl <;> decide

/-! ## Unlinked texts -/

/-- A closed text without a connective on its surface. -/
structure Unlinked (t : String) : Prop where
  closed : Closed t
  unlinked : ∀ w ∈ words (surface t), connective? w = none

namespace Unlinked

theorem append (ht : Unlinked t) (hu : Unlinked u)
    (h : endsApart t = true ∨ opensApart u = true) : Unlinked (t ++ u) where
  closed := ht.closed.append hu.closed
  unlinked := by
    rw [words_surface_append ht.closed.nests hu.closed.nests h]
    exact List.forall_mem_append.2 ⟨ht.unlinked, hu.unlinked⟩

theorem of_letters (ht : Closed t) (h : ∀ g ∈ surface t, g.visible = true →
    g.char.toUpper ≠ 'N' ∧ g.char.toUpper ≠ 'R') : Unlinked t :=
  ⟨ht, connective?_eq_none h⟩

theorem of_hidden (ht : Closed t) (h : ∀ c, Mark.code c ∉ masked t) : Unlinked t :=
  of_letters ht fun _ hg hvisible => absurd hvisible (not_visible_of_mem_surface h hg)

/-- A text of plain words. -/
theorem plain (h : t.toList.all Closed.isInert = true)
    (hw : ∀ w ∈ words (t.toList.map Glyph.shown), connective? w = none) : Unlinked t where
  closed := .of_inert h
  unlinked := by rwa [surface_inert h]

theorem parenthesized (h : Closed t) : Unlinked (parenthesized t) :=
  ⟨.parenthesized h, connective?_parenthesized h.nests⟩

theorem grouped (h : Unlinked t) : Unlinked (grouped t) :=
  grouped_of h (parenthesized h.closed)

theorem commas {texts : List String} (h : ∀ t ∈ texts, Unlinked t) :
    Unlinked (String.intercalate "," texts) := by
  have hcomma : Unlinked "," := plain (by decide) (by decide)
  refine separated_induction (plain (by decide) (by decide)) (fun {t u} ht hu => ?_) h
  exact (ht.append hcomma (.inr (by decide))).append hu (.inl (endsApart_comma t))

theorem trim (h : Unlinked t) : Unlinked (trim t) where
  closed := h.closed.trim
  unlinked := by
    obtain ⟨front, back, hsurface, hfront, hback⟩ := surface_eq_trim t
    intro w hw
    refine h.unlinked w ?_
    rw [hsurface, words_append, words_append]
    · exact List.mem_append_left _ (List.mem_append_right _ hw)
    · exact .inl fun g hg => isWord_of_isBlank (hfront g (List.mem_of_getLast? hg))
    · exact .inr fun g hg => isWord_of_isBlank (hback g (List.mem_of_mem_head? hg))

end Unlinked

/-- An unlinked text that shows neither an opening parenthesis nor a letter of `NOT` that the
literals do without: so it is no group and does not begin with that word. -/
structure Simple (t : String) : Prop extends Unlinked t where
  letters : ∀ g ∈ surface t, g.visible = true → g.char.toUpper ≠ 'O' ∧ g.char ≠ '('

namespace Simple

theorem append (ht : Simple t) (hu : Simple u) (h : endsApart t = true ∨ opensApart u = true) :
    Simple (t ++ u) where
  toUnlinked := ht.toUnlinked.append hu.toUnlinked h
  letters := by
    rw [surface_append ht.closed.nests hu.closed.nests]
    exact List.forall_mem_append.2 ⟨ht.letters, hu.letters⟩

theorem of_hidden (ht : Closed t) (h : ∀ c, Mark.code c ∉ masked t) : Simple t where
  toUnlinked := .of_hidden ht h
  letters _ hg hvisible := absurd hvisible (not_visible_of_mem_surface h hg)

/-- A text of plain words. -/
theorem plain (h : t.toList.all Closed.isInert = true)
    (hw : ∀ w ∈ words (t.toList.map Glyph.shown), connective? w = none)
    (hl : 'O' ∉ t.toList.map Char.toUpper) : Simple t where
  toUnlinked := .plain h hw
  letters := by
    intro g hg _
    rw [surface_inert h] at hg
    obtain ⟨c, hc, rfl⟩ := List.mem_map.1 hg
    have hinert := List.all_eq_true.1 h c hc
    simp only [Closed.isInert, Bool.and_eq_true, bne_iff_ne] at hinert
    exact ⟨fun ho => hl (ho ▸ List.mem_map_of_mem hc), hinert.1.2⟩

/-- A text that has none of three letters. -/
theorem of_letters (h : t.toList.all Closed.isInert = true)
    (hl : ∀ c ∈ t.toList, c.toUpper ∉ ['N', 'O', 'R']) : Simple t := by
  have hletters {c : Char} (hc : c ∈ t.toList) :
      c.toUpper ≠ 'N' ∧ c.toUpper ≠ 'O' ∧ c.toUpper ≠ 'R' := by
    simpa using hl c hc
  have hunlinked : Unlinked t := by
    refine .of_letters (.of_inert h) fun g hg _ => ?_
    rw [surface_inert h] at hg
    obtain ⟨c, hc, rfl⟩ := List.mem_map.1 hg
    exact ⟨(hletters hc).1, (hletters hc).2.2⟩
  refine plain h ?_ fun ho => ?_
  · rw [← surface_inert h]
    exact hunlinked.unlinked
  · obtain ⟨c, hc, hletter⟩ := List.mem_map.1 ho
    exact (hletters hc).2.1 hletter

theorem quoted (s : String) : Simple (quoted s) :=
  of_hidden (.quoted s) (by simp [masked_quoted])

theorem bracketed (name : String) : Simple (bracketed name) :=
  of_hidden (.bracketed name) (by simp [masked_bracketed])

theorem empty : Simple "" := plain (by decide) (by decide) (by decide)

theorem commas {texts : List String} (h : ∀ t ∈ texts, Simple t) :
    Simple (String.intercalate "," texts) := by
  have hcomma : Simple "," := plain (by decide) (by decide) (by decide)
  refine separated_induction empty (fun {t u} ht hu => ?_) h
  exact (ht.append hcomma (.inr (by decide))).append hu (.inl (endsApart_comma t))

end Simple

/-! ## Cutting at connectives -/

theorem cut_append {ws : List (List Glyph)} (h : ∀ w ∈ ws, connective? w = none)
    (vs : List (List Glyph)) : cut (ws ++ vs) = (ws ++ (cut vs).1, (cut vs).2) := by
  induction ws with
  | nil => rfl
  | cons w ws ih =>
    rw [List.forall_mem_cons] at h
    rw [List.cons_append, cut, h.1, ih h.2]
    rfl

theorem toList_words_surface (t : String) :
    (words (surface t)).flatten.map Glyph.char = t.toList := by
  rw [words, List.flatten_splitBy, map_char_surface]

/-- Blanks around some words are cut off. -/
theorem spelled_blanks (ws : List (List Glyph)) {front back : List (List Glyph)}
    (hfront : ∀ g ∈ front.flatten, isBlank g.char = true)
    (hback : ∀ g ∈ back.flatten, isBlank g.char = true) :
    spelled (front ++ ws ++ back) = spelled ws := by
  have hchars {gs : List Glyph} (h : ∀ g ∈ gs, isBlank g.char = true) :
      ∀ c ∈ gs.map Glyph.char, isBlank c = true := by
    simpa using h
  refine trim_blanks (hchars hfront) (hchars hback) ?_
  simp only [String.toList_ofList, List.flatten_append, List.map_append]

theorem spelled_words (t : String) : spelled (words (surface t)) = trim t := by
  rw [spelled, toList_words_surface, String.ofList_toList]

/-- Every connective among some words starts a new part. -/
theorem length_cut (ws : List (List Glyph)) :
    (cut ws).2.length = ws.countP fun w => (connective? w).isSome := by
  induction ws with
  | nil => rfl
  | cons w ws ih =>
    rw [cut, List.countP_cons, ← ih]
    cases connective? w <;> rfl

theorem length_split (t : String) :
    (split t).2.length = (words (surface t)).countP fun w => (connective? w).isSome := by
  rw [← length_cut, split]
  exact List.length_map _

theorem split_snd_eq_nil_iff :
    (split t).2 = [] ↔ ∀ w ∈ words (surface t), connective? w = none := by
  rw [← List.length_eq_zero_iff, length_split, List.countP_eq_zero]
  simp only [Option.not_isSome_iff_eq_none]

/-- A text without a connective on its surface comes back whole. -/
theorem split_eq_trim (h : ∀ w ∈ words (surface t), connective? w = none) :
    split t = (trim t, []) := by
  have hcut : cut (words (surface t)) = (words (surface t), []) := by
    have happend := cut_append h []
    simpa [cut] using happend
  rw [split, hcut]
  exact congrArg (·, []) (spelled_words t)

theorem Unlinked.split_eq (h : Unlinked t) : split t = (Text.trim t, []) :=
  split_eq_trim h.unlinked

theorem words_keyword (op : Connective) :
    words (surface (" " ++ op.keyword ++ " ")) =
      [[.shown ' '], op.keyword.toList.map .shown, [.shown ' ']] := by
  cases op <;> decide

theorem connective?_keyword (op : Connective) :
    connective? (op.keyword.toList.map .shown) = some op := by
  cases op <;> decide

theorem keyword_closed (op : Connective) : Closed op.keyword := by
  cases op <;> exact .of_inert (by decide)

theorem spacedKeyword_closed (op : Connective) : Closed (" " ++ op.keyword ++ " ") :=
  (Closed.space.append (keyword_closed op)).append .space

theorem link_closed (ht : Closed t) (hu : Closed u) (op : Connective) :
    Closed (t ++ (" " ++ op.keyword ++ " ") ++ u) :=
  (ht.append (spacedKeyword_closed op)).append hu

/-- The words of two texts and those of the connective between them. -/
theorem words_surface_link (ht : Balanced t) (hu : Balanced u) (op : Connective) :
    words (surface (t ++ (" " ++ op.keyword ++ " ") ++ u)) =
      words (surface t) ++ [.shown ' '] :: op.keyword.toList.map .shown :: [.shown ' '] ::
        words (surface u) := by
  have hlink := (spacedKeyword_closed op).nests
  have hopens : opensApart (" " ++ op.keyword ++ " ") = true := by cases op <;> decide
  have hends : endsApart (t ++ (" " ++ op.keyword ++ " ")) = true := by
    rw [endsApart_append t (by cases op <;> decide)]
    cases op <;> decide
  rw [words_surface_append (ht.append hlink) hu (.inl hends),
    words_surface_append ht hlink (.inr hopens), words_keyword, List.append_assoc]
  rfl

theorem length_split_link (ht : Balanced t) (hu : Balanced u) (op : Connective) :
    (split (t ++ (" " ++ op.keyword ++ " ") ++ u)).2.length =
      (split t).2.length + ((split u).2.length + 1) := by
  have hspace : connective? [.shown ' '] = none := by decide
  simp only [length_split, words_surface_link ht hu, List.countP_append, List.countP_cons, hspace,
    connective?_keyword, Option.isSome_some, Option.isSome_none, Bool.false_eq_true, if_true,
    if_false, Nat.add_zero]

/-- A text is split at a connective between two of its parts if the first of them shows none. -/
theorem split_link (ht : Balanced t) (hw : ∀ w ∈ words (surface t), connective? w = none)
    (hu : Balanced u) (op : Connective) :
    split (t ++ (" " ++ op.keyword ++ " ") ++ u) = (trim t, (op, (split u).1) :: (split u).2) := by
  have hblank : ∀ g ∈ [[Glyph.shown ' ']].flatten, isBlank g.char = true := by decide
  have hnone : ∀ g ∈ ([] : List (List Glyph)).flatten, isBlank g.char = true := by decide
  have hcut : cut (words (surface (t ++ (" " ++ op.keyword ++ " ") ++ u))) =
      (words (surface t) ++ [[.shown ' ']],
        (op, [.shown ' '] :: (cut (words (surface u))).1) :: (cut (words (surface u))).2) := by
    have hspace : connective? [.shown ' '] = none := by decide
    rw [words_surface_link ht hu, cut_append hw]
    simp only [cut, hspace, connective?_keyword]
  have hfirst : spelled (words (surface t) ++ [[.shown ' ']]) = trim t := by
    have h := spelled_blanks (words (surface t)) hnone hblank
    rwa [List.nil_append, spelled_words] at h
  have hnext (ws : List (List Glyph)) : spelled ([.shown ' '] :: ws) = spelled ws := by
    have h := spelled_blanks ws hblank hnone
    rwa [List.append_nil] at h
  rw [split, hcut, split]
  simp only [List.map_cons, hfirst, hnext]

end SqlWright.Text
