import Mathlib.Data.List.Forall2
import Mathlib.Tactic.Common
import SqlWright.Identifier
import SqlWright.Proofs.Value.Reader

/-!
# The grammar of written identifiers

Which texts are read as identifiers, and as which parts. The grammar says it without a reader: a
text is a list of segments with dots between them, and a segment is a regular name or a body in
brackets. A reader that goes from left to right has to find where each segment ends, and it finds
the only place: a regular name ends at the first dot, a bracketed one at the first closing bracket
that is not written twice.
-/

namespace SqlWright.Identifier

open Literal (Stops takeWhile_run dropWhile_run)

/-! ## Segments as they are written -/

/-- A letter from A to Z, an underscore, an at sign or a number sign. -/
def StartsName (c : Char) : Prop :=
  ('A' ≤ c ∧ c ≤ 'Z') ∨ ('a' ≤ c ∧ c ≤ 'z') ∨ c = '_' ∨ c = '@' ∨ c = '#'

/-- A character that starts a name, a digit or a dollar sign. -/
def ContinuesName (c : Char) : Prop :=
  StartsName c ∨ ('0' ≤ c ∧ c ≤ '9') ∨ c = '$'

/-- A text between brackets and the name it stands for: the text has every closing bracket of the
name twice and every other character once. -/
inductive Body : List Char → List Char → Prop
  | empty : Body [] []
  | closing {body name : List Char} : Body body name → Body (']' :: ']' :: body) (']' :: name)
  | other {c : Char} {body name : List Char} :
    c ≠ ']' → Body body name → Body (c :: body) (c :: name)

/-- A segment as it is written, and the part that it names. -/
inductive Segment : List Char → String → Prop
  | regular {c : Char} {cs : List Char} : StartsName c → (∀ d ∈ cs, ContinuesName d) →
      Segment (c :: cs) (String.ofList (c :: cs))
  | bracketed {body name : List Char} : Body body name → body ≠ [] →
      Segment ('[' :: (body ++ [']'])) (String.ofList name)

/-- A text in one or more segments with dots between them, and the parts that these name. -/
structure Segmentation (cs : List Char) (written : List (List Char)) (parts : List String) :
    Prop where
  nonempty : written ≠ []
  joined : cs = ['.'].intercalate written
  named : List.Forall₂ Segment written parts

/-! ## Characters of regular names -/

theorem isAlpha_iff {c : Char} :
    c.isAlpha = true ↔ ('A' ≤ c ∧ c ≤ 'Z') ∨ ('a' ≤ c ∧ c ≤ 'z') := by
  have hupper : c.isUpper = decide ('A' ≤ c ∧ c ≤ 'Z') := rfl
  have hlower : c.isLower = (decide ('a' ≤ c) && decide (c ≤ 'z')) := rfl
  show (c.isUpper || c.isLower) = true ↔ _
  simp only [hupper, hlower, Bool.or_eq_true, Bool.and_eq_true, decide_eq_true_eq]

theorem isNameStart_iff {c : Char} : isNameStart c = true ↔ StartsName c := by
  simp only [isNameStart, StartsName, isAlpha_iff, Bool.or_eq_true, beq_iff_eq]
  tauto

theorem isNameRest_iff {c : Char} : isNameRest c = true ↔ ContinuesName c := by
  simp only [isNameRest, ContinuesName, StartsName, Char.isAlphanum, isAlpha_iff, Char.isDigit,
    Char.le_def, Bool.or_eq_true, Bool.and_eq_true, beq_iff_eq, decide_eq_true_eq]
  tauto

theorem ContinuesName.ne_dot {c : Char} (h : ContinuesName c) : c ≠ '.' := by
  rintro rfl
  exact absurd (isNameRest_iff.2 h) (by decide)

theorem StartsName.ne_bracket {c : Char} (h : StartsName c) : c ≠ '[' := by
  rintro rfl
  exact absurd (isNameStart_iff.2 h) (by decide)

theorem misfit?_eq_none {c : Char} {cs : List Char} :
    misfit? (c :: cs) = none ↔ StartsName c ∧ ∀ d ∈ cs, ContinuesName d := by
  rw [misfit?]
  split
  · rename_i hc
    simp [isNameStart_iff.1 hc, List.find?_eq_none, isNameRest_iff]
  · rename_i hc
    simp [isNameStart_iff.not.1 hc]

/-! ## Bodies in brackets -/

theorem Body.nil_iff {body name : List Char} (h : Body body name) : body = [] ↔ name = [] := by
  cases h <;> simp

/-- The end of a body is the first closing bracket that is not followed by another one. -/
theorem body?_of_body {body name rest : List Char} (h : Body body name)
    (hrest : rest.head? ≠ some ']') : body? (body ++ ']' :: rest) = some (name, rest) := by
  induction h with
  | empty =>
    rw [List.nil_append, body?]
    rintro tail rfl
    exact hrest rfl
  | closing _ ih => simp only [List.cons_append, body?, ih, Option.map_some]
  | other hc _ ih =>
    rw [List.cons_append, body?, ih, Option.map_some]
    · rintro _ rfl
      exact absurd rfl hc
    · rintro rfl
      exact absurd rfl hc

theorem body_of_body? {cs name rest : List Char} (h : body? cs = some (name, rest)) :
    ∃ body, Body body name ∧ cs = body ++ ']' :: rest := by
  fun_induction body? cs generalizing name with
  | case1 => cases h
  | case2 cs ih =>
    obtain ⟨⟨inner, tail⟩, hread, heq⟩ := Option.map_eq_some_iff.1 h
    cases heq
    obtain ⟨body, hbody, rfl⟩ := ih hread
    exact ⟨_, hbody.closing, rfl⟩
  | case3 cs =>
    cases h
    exact ⟨[], .empty, rfl⟩
  | case4 c cs _ hc ih =>
    obtain ⟨⟨inner, tail⟩, hread, heq⟩ := Option.map_eq_some_iff.1 h
    cases heq
    obtain ⟨body, hbody, rfl⟩ := ih hread
    exact ⟨_, hbody.other hc, rfl⟩

/-! ## One segment -/

/-- A segment is read up to where it ends, whatever comes after the next dot. -/
theorem segment_of_segment {written rest : List Char} {part : String} (h : Segment written part)
    (hrest : Stops (· != '.') rest) : segment (written ++ rest) = .ok (part, rest) := by
  cases h with
  | @regular c cs hc hcs =>
    have hall : ∀ d ∈ c :: cs, (d != '.') = true := by
      simp only [List.forall_mem_cons, bne_iff_ne]
      exact ⟨ContinuesName.ne_dot (.inl hc), fun d hd => (hcs d hd).ne_dot⟩
    rw [segment]
    · rw [takeWhile_run hall hrest, dropWhile_run hall hrest, misfit?_eq_none.2 ⟨hc, hcs⟩]
      rfl
    · intro inside heq
      exact hc.ne_bracket (List.cons.inj heq).1
  | @bracketed body name hbody hne =>
    have hclosed : rest.head? ≠ some ']' := fun h => absurd (hrest _ h) (by decide)
    rw [List.cons_append, List.append_assoc, List.singleton_append, segment,
      body?_of_body hbody hclosed]
    cases name with
    | nil => exact absurd (hbody.nil_iff.2 rfl) hne
    | cons _ _ => rfl

theorem segment_of_read {cs rest : List Char} {part : String}
    (h : segment cs = .ok (part, rest)) :
    ∃ written, Segment written part ∧ cs = written ++ rest := by
  unfold segment at h
  split at h
  · rename_i inside
    split at h
    · cases h
    · cases h
    · rename_i name tail hne hread
      cases h
      obtain ⟨body, hbody, rfl⟩ := body_of_body? hread
      refine ⟨_, .bracketed hbody fun hnil => ?_, by simp⟩
      exact hne (hbody.nil_iff.1 hnil)
  · dsimp only at h
    split at h
    · cases h
    · rename_i hfit
      have hsplit := List.takeWhile_append_dropWhile (p := (· != '.')) (l := cs)
      cases hname : cs.takeWhile (· != '.') with
      | nil => simp [hname] at h
      | cons c name =>
        rw [hname] at h hfit hsplit
        simp only [List.isEmpty_cons, Bool.false_eq_true, if_false, Except.ok.injEq,
          Prod.mk.injEq] at h
        obtain ⟨hc, hcs⟩ := misfit?_eq_none.1 hfit
        rw [← h.1, ← h.2]
        exact ⟨_, .regular hc hcs, hsplit.symm⟩

/-! ## All segments -/

/-- What stands after the first segment of a text. -/
def following (written : List (List Char)) : List Char :=
  if written.isEmpty then [] else '.' :: ['.'].intercalate written

theorem intercalate_cons (first : List Char) (more : List (List Char)) :
    ['.'].intercalate (first :: more) = first ++ following more := by
  cases more with
  | nil => simp [following]
  | cons second more => simp [following, List.intercalate_cons_cons]

theorem stops_following (written : List (List Char)) : Stops (· != '.') (following written) := by
  cases written with
  | nil => rintro _ ⟨⟩
  | cons _ _ =>
    rintro _ ⟨⟩
    rfl

theorem following_eq {written other : List (List Char)} (h : following written = following other) :
    (written = [] ∧ other = []) ∨
      (written ≠ [] ∧ other ≠ [] ∧ ['.'].intercalate written = ['.'].intercalate other) := by
  cases written with
  | nil =>
    cases other with
    | nil => exact .inl ⟨rfl, rfl⟩
    | cons _ _ => simp [following] at h
  | cons _ _ =>
    cases other with
    | nil => simp [following] at h
    | cons _ _ => exact .inr ⟨List.cons_ne_nil _ _, List.cons_ne_nil _ _, (List.cons.inj h).2⟩

/-- The first segment of a text, read with the right end. -/
theorem segment_intercalate {first : List Char} {part : String} (h : Segment first part)
    (more : List (List Char)) :
    segment (['.'].intercalate (first :: more)) = .ok (part, following more) := by
  rw [intercalate_cons, segment_of_segment h (stops_following more)]

theorem Segment.ne_nil {written : List Char} {part : String} (h : Segment written part) :
    written ≠ [] := by
  cases h <;> exact List.cons_ne_nil _ _

theorem segments_last {cs : List Char} {part : String} (h : segment cs = .ok (part, [])) :
    segments cs = .ok [part] := by
  rw [segments]
  split <;> simp_all

theorem segments_more {cs more : List Char} {part : String} (hne : more ≠ [])
    (h : segment cs = .ok (part, '.' :: more)) :
    segments cs = (segments more).map (part :: ·) := by
  rw [segments]
  split <;> simp_all

theorem segments_of_segmentation {cs : List Char} {written : List (List Char)}
    {parts : List String} (h : Segmentation cs written parts) : segments cs = .ok parts := by
  obtain ⟨hne, rfl, hnamed⟩ := h
  induction hnamed with
  | nil => exact absurd rfl hne
  | @cons first part more parts hfirst hmore ih =>
    have hread := segment_intercalate hfirst more
    cases hmore with
    | nil => exact segments_last hread
    | cons hsecond _ =>
      rw [segments_more _ hread, ih (List.cons_ne_nil _ _)]
      · rfl
      · simp [intercalate_cons, hsecond.ne_nil]

theorem Segmentation.cons {cs first : List Char} {written : List (List Char)} {part : String}
    {parts : List String} (hfirst : Segment first part) (h : Segmentation cs written parts) :
    Segmentation (first ++ '.' :: cs) (first :: written) (part :: parts) where
  nonempty := List.cons_ne_nil _ _
  joined := by
    rw [intercalate_cons, following, if_neg (by simpa using h.nonempty), h.joined]
  named := .cons hfirst h.named

theorem segmentation_of_segments {cs : List Char} {parts : List String}
    (h : segments cs = .ok parts) : ∃ written, Segmentation cs written parts := by
  fun_induction segments cs generalizing parts with
  | case1 => cases h
  | case2 cs part hread =>
    cases h
    obtain ⟨written, hnamed, rfl⟩ := segment_of_read hread
    exact ⟨[written], List.cons_ne_nil _ _, by simp, .cons hnamed .nil⟩
  | case3 => cases h
  | case4 cs part more _ hread _ ih =>
    obtain ⟨first, hfirst, rfl⟩ := segment_of_read hread
    cases hmore : segments more with
    | error fault => simp [hmore, Except.map] at h
    | ok later =>
      rw [hmore] at h
      cases h
      obtain ⟨written, hwritten⟩ := ih hmore
      exact ⟨_, hwritten.cons hfirst⟩
  | case5 => cases h

/-- The first segments of two segmentations are read alike, so they are the same text, and so is
what follows them. -/
theorem Segmentation.unique {cs : List Char} {written other : List (List Char)}
    {parts names : List String} (h : Segmentation cs written parts)
    (hother : Segmentation cs other names) : written = other ∧ parts = names := by
  obtain ⟨hne, rfl, hnamed⟩ := h
  obtain ⟨hne', hjoined, hnamed'⟩ := hother
  induction hnamed generalizing other names with
  | nil => exact absurd rfl hne
  | @cons first part more parts hfirst hmore ih =>
    cases hnamed' with
    | nil => exact absurd rfl hne'
    | @cons first' part' more' parts' hfirst' hmore' =>
      have hread := segment_intercalate hfirst more
      rw [hjoined, segment_intercalate hfirst' more'] at hread
      simp only [Except.ok.injEq, Prod.mk.injEq] at hread
      obtain ⟨rfl, hfollowing⟩ := hread
      rw [intercalate_cons, intercalate_cons, hfollowing, List.append_cancel_right_eq] at hjoined
      subst hjoined
      obtain ⟨rfl, rfl⟩ | ⟨hmany, hmany', heq⟩ := following_eq hfollowing
      · cases hmore
        cases hmore'
        exact ⟨rfl, rfl⟩
      · obtain ⟨rfl, rfl⟩ := ih hmany' hmany heq.symm hmore'
        exact ⟨rfl, rfl⟩

theorem segments_eq_ok_iff {cs : List Char} {parts : List String} :
    segments cs = .ok parts ↔ ∃ written, Segmentation cs written parts :=
  ⟨segmentation_of_segments, fun ⟨_, h⟩ => segments_of_segmentation h⟩

theorem segments_nil : segments [] = .error .emptySegment := by
  rw [segments]
  rfl

/-! ## Reading an identifier -/

theorem toNat_eq_zero {c : Char} : c.toNat = 0 ↔ c = '\x00' := by
  rw [← Char.toNat_inj]
  rfl

theorem parse_eq_ok {s : String} {i : Identifier} :
    parse s = .ok i ↔ '\x00' ∉ s.toList ∧ segments s.toList = .ok i.parts := by
  have hnul : s.toList.any (·.toNat == 0) = true ↔ '\x00' ∈ s.toList := by
    simp [List.any_eq_true, toNat_eq_zero]
  unfold parse
  split
  · rename_i hempty
    simp [List.isEmpty_iff.1 hempty, segments_nil]
  · split
    · rename_i hn
      simp [hnul.1 hn]
    · rename_i hn
      rw [hnul] at hn
      obtain ⟨parts⟩ := i
      split
      · rename_i read hread
        simp [hn, hread]
      · rename_i fault hread
        simp [hread]

/-- What is read is exactly what the grammar allows, as the parts that the grammar gives, and the
grammar takes a text apart in one way only. -/
theorem parse_eq_ok_iff (s : String) :
    (∀ i : Identifier, parse s = .ok i ↔
      '\x00' ∉ s.toList ∧ ∃ written, Segmentation s.toList written i.parts) ∧
    (∀ written other parts names, Segmentation s.toList written parts →
      Segmentation s.toList other names → written = other ∧ parts = names) := by
  refine ⟨fun i => ?_, fun _ _ _ _ h hother => h.unique hother⟩
  rw [parse_eq_ok, segments_eq_ok_iff]

example : parse "dbo.[Ord]]er]" = .ok ⟨["dbo", "Ord]er"]⟩ := by
  have hlast : segments "[Ord]]er]".toList = .ok ["Ord]er"] :=
    segments_last (by simp [segment, body?])
  have hfirst : segment "dbo.[Ord]]er]".toList = .ok ("dbo", '.' :: "[Ord]]er]".toList) := by
    simp [segment, misfit?, isNameStart, isNameRest]
  rw [parse_eq_ok, segments_more (by decide) hfirst, hlast]
  exact ⟨by decide, rfl⟩

end SqlWright.Identifier
