import SqlWright.Proofs.Identifier.Grammar
import SqlWright.Proofs.Outcome

/-!
# Written identifiers are read back

Which identifiers can be read at all: those of one or more parts, none of them empty and none with
the NUL character. The written form of such an identifier is one of the texts of the grammar,
whatever else its parts hold, and it stands for these parts and no others. So reading undoes writing,
and the written form of what was read is a normal form of the text.
-/

namespace SqlWright.Identifier

/-- What reading can give: at least one part, and no part that is empty or holds the NUL
character. -/
structure IsReadable (i : Identifier) : Prop where
  parts_ne_nil : i.parts ≠ []
  part_ne_empty : ∀ part ∈ i.parts, part ≠ ""
  nul_not_mem : ∀ part ∈ i.parts, '\x00' ∉ part.toList

/-! ## The written form in the grammar -/

theorem Body.doubled (name : List Char) : Body (Text.doubled ']' name) name := by
  induction name with
  | nil => exact .empty
  | cons c name ih =>
    rw [Text.doubled]
    split
    · next hc =>
      subst hc
      exact .closing ih
    · next hc => exact .other hc ih

theorem Segment.of_bracketed {part : String} (h : part ≠ "") :
    Segment (Text.bracketed part).toList part := by
  have hbody := Body.doubled part.toList
  have hne : Text.doubled ']' part.toList ≠ [] := by
    intro hnil
    exact h (String.toList_eq_nil_iff.1 (hbody.nil_iff.1 hnil))
  have hsegment := Segment.bracketed hbody hne
  rw [String.ofList_toList] at hsegment
  rw [Text.toList_bracketed]
  exact hsegment

theorem toList_text (i : Identifier) :
    i.text.toList = ['.'].intercalate (i.parts.map fun part => (Text.bracketed part).toList) := by
  rw [text, String.toList_intercalate, List.map_map]
  rfl

/-- Brackets around every part make a text of the grammar. -/
theorem IsReadable.segmentation {i : Identifier} (h : i.IsReadable) :
    Segmentation i.text.toList (i.parts.map fun part => (Text.bracketed part).toList) i.parts where
  nonempty := by
    intro hnil
    exact h.parts_ne_nil (List.map_eq_nil_iff.1 hnil)
  joined := toList_text i
  named := by
    rw [List.forall₂_map_left_iff, List.forall₂_same]
    intro part hpart
    exact .of_bracketed (h.part_ne_empty part hpart)

/-! ## Characters of a text and of its parts -/

theorem Body.mem_of_mem {body name : List Char} (h : Body body name) {c : Char}
    (hc : c ∈ name) : c ∈ body := by
  induction h with
  | empty => cases hc
  | closing _ ih =>
    rcases List.mem_cons.1 hc with rfl | hc
    · exact List.mem_cons_self
    · exact List.mem_cons_of_mem _ (List.mem_cons_of_mem _ (ih hc))
  | other _ _ ih =>
    rcases List.mem_cons.1 hc with rfl | hc
    · exact List.mem_cons_self
    · exact List.mem_cons_of_mem _ (ih hc)

/-- A segment names a part that is not empty, in characters of its own. -/
theorem Segment.part {written : List Char} {part : String} (h : Segment written part) :
    part ≠ "" ∧ ∀ c ∈ part.toList, c ∈ written := by
  cases h with
  | regular _ _ => simp
  | @bracketed body name hbody hne =>
    constructor
    · intro hempty
      exact hne (hbody.nil_iff.2 (String.ofList_eq_empty_iff.1 hempty))
    · intro c hc
      rw [String.toList_ofList] at hc
      simp [hbody.mem_of_mem hc]

theorem mem_intercalate_of_mem {written : List (List Char)} {first : List Char}
    (h : first ∈ written) {c : Char} (hc : c ∈ first) : c ∈ ['.'].intercalate written := by
  induction written with
  | nil => cases h
  | cons second written ih =>
    rw [intercalate_cons, List.mem_append]
    rcases List.mem_cons.1 h with rfl | h
    · exact .inl hc
    · right
      rw [following, if_neg (by simp [List.ne_nil_of_mem h])]
      exact List.mem_cons_of_mem _ (ih h)

theorem mem_intercalate {written : List (List Char)} {c : Char}
    (h : c ∈ ['.'].intercalate written) : c = '.' ∨ ∃ first ∈ written, c ∈ first := by
  induction written with
  | nil => simp at h
  | cons first written ih =>
    rw [intercalate_cons, List.mem_append] at h
    rcases h with h | h
    · exact .inr ⟨first, List.mem_cons_self, h⟩
    · rw [following] at h
      split at h
      · cases h
      · rcases List.mem_cons.1 h with h | h
        · exact .inl h
        · obtain hdot | ⟨second, hsecond, hc⟩ := ih h
          · exact .inl hdot
          · exact .inr ⟨second, List.mem_cons_of_mem _ hsecond, hc⟩

theorem mem_doubled {mark c : Char} {cs : List Char} (h : c ∈ Text.doubled mark cs) : c ∈ cs := by
  induction cs with
  | nil => exact h
  | cons d cs ih =>
    rw [List.mem_cons]
    by_cases hd : d = mark
    · simp only [Text.doubled, if_pos hd, List.mem_cons] at h
      rcases h with h | h | h
      · exact .inl (h.trans hd.symm)
      · exact .inl (h.trans hd.symm)
      · exact .inr (ih h)
    · simp only [Text.doubled, if_neg hd, List.mem_cons] at h
      exact h.imp_right ih

theorem IsReadable.nul_not_mem_text {i : Identifier} (h : i.IsReadable) :
    '\x00' ∉ i.text.toList := by
  intro hnul
  rw [toList_text] at hnul
  obtain hdot | ⟨written, hmem, hnul⟩ := mem_intercalate hnul
  · exact absurd hdot (by decide)
  · obtain ⟨part, hpart, rfl⟩ := List.mem_map.1 hmem
    rw [Text.toList_bracketed] at hnul
    simp only [List.mem_cons, List.mem_append, List.not_mem_nil, or_false] at hnul
    rcases hnul with hopen | hinside | hclose
    · exact absurd hopen (by decide)
    · exact h.nul_not_mem part hpart (mem_doubled hinside)
    · exact absurd hclose (by decide)

/-! ## Writing and reading -/

/-- What is read can be read again: reading never makes an identifier that has no text. -/
theorem isReadable_of_parse {s : String} {i : Identifier} (h : parse s = .ok i) :
    i.IsReadable := by
  rw [parse_eq_ok] at h
  obtain ⟨hnul, hread⟩ := h
  obtain ⟨written, hne, hjoined, hnamed⟩ := segmentation_of_segments hread
  have hparts (part : String) (hpart : part ∈ i.parts) :
      ∃ first ∈ written, Segment first part := by
    obtain ⟨n, hn, rfl⟩ := List.mem_iff_getElem.1 hpart
    have hlen := hnamed.length_eq
    exact ⟨written[n], List.getElem_mem _, hnamed.get (by omega) hn⟩
  refine ⟨?_, ?_, ?_⟩
  · intro hnil
    rw [hnil] at hnamed
    exact hne (List.forall₂_nil_right_iff.1 hnamed)
  · intro part hpart
    obtain ⟨first, -, hsegment⟩ := hparts part hpart
    exact hsegment.part.1
  · intro part hpart hmem
    obtain ⟨first, hfirst, hsegment⟩ := hparts part hpart
    apply hnul
    rw [hjoined]
    exact mem_intercalate_of_mem hfirst (hsegment.part.2 _ hmem)

/-- The written form of an identifier is read as that identifier, if it can be read at all. -/
theorem parse_text {i : Identifier} (h : i.IsReadable) : parse i.text = .ok i := by
  rw [parse_eq_ok]
  exact ⟨h.nul_not_mem_text, segments_of_segmentation h.segmentation⟩

/-- **Reading undoes writing.** An identifier is read back from its written form exactly if it has
parts and none of them is empty or holds the NUL character. Every identifier that was read is such
a one, so reading its written form gives it again; two of them with one written form are the same;
and to write a name that was written already changes nothing. -/
theorem parse_text_iff :
    (∀ i : Identifier, parse i.text = .ok i ↔ i.IsReadable) ∧
    (∀ s : String, ((parse s).bind fun i => parse i.text) = parse s) ∧
    (∀ i j : Identifier, i.IsReadable → j.IsReadable → i.text = j.text → i = j) ∧
    (∀ s t : String, (parse s).map text = .ok t → (parse t).map text = .ok t) := by
  refine ⟨fun i => ⟨isReadable_of_parse, parse_text⟩, ?_, ?_, ?_⟩
  · intro s
    cases hs : parse s with
    | error fault => rfl
    | ok i => exact parse_text (isReadable_of_parse hs)
  · intro i j hi hj hij
    have hread : (Except.ok i : Outcome Identifier) = .ok j := by
      rw [← parse_text hi, ← parse_text hj, hij]
    exact Except.ok.inj hread
  · intro s t ht
    obtain ⟨i, hs, rfl⟩ := Outcome.map_eq_ok.1 ht
    rw [parse_text (isReadable_of_parse hs)]
    rfl

/-- Parts that are nothing but closing brackets, that hold an opening one and a dot, or that are a
quote and a blank. -/
theorem parse_text_iff_brackets :
    let i : Identifier := ⟨["]", "a].[b", "]]", "' "]⟩
    i.IsReadable ∧ i.text = "[]]].[a]].[b].[]]]]].[' ]" ∧ parse i.text = .ok i ∧
      (∀ j : Identifier, j.IsReadable → i.text = j.text → i = j) ∧
      (parse i.text).map text = .ok i.text := by
  intro i
  have hi : i.IsReadable := ⟨by decide, by decide, by decide⟩
  have hread : parse i.text = .ok i := (parse_text_iff.1 i).2 hi
  have hwritten : (parse i.text).map text = .ok i.text := by
    rw [hread]
    rfl
  refine ⟨hi, by decide, hread, ?_, parse_text_iff.2.2.2 i.text i.text hwritten⟩
  intro j hj hij
  exact parse_text_iff.2.2.1 i j hi hj hij

end SqlWright.Identifier
