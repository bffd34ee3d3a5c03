import SqlWright.Proofs.Filter.Split

/-!
# Conditions given as texts

A condition that is given as a text is put in parentheses unless it starts with one, and where that
first parenthesis is closed is not asked. So a text that starts with one group and links it to more
stands bare among the other conditions, and its connectives link them in another way than the calls
did.
-/

namespace SqlWright

open Text Outcome

namespace Conditions

/-- The conditions after some calls that add them as texts. -/
def raw (calls : Conditions) : Conditions :=
  calls.foldl (fun cs c => cs.addRaw c.2 c.1) []

theorem foldl_addRaw (cs calls : Conditions) :
    calls.foldl (fun cs c => cs.addRaw c.2 c.1) cs = cs ++ held calls := by
  induction calls generalizing cs with
  | nil => exact (List.append_nil cs).symm
  | cons c calls ih =>
    rw [List.foldl_cons, ih, addRaw, List.append_assoc]
    rfl

theorem raw_eq (calls : Conditions) : raw calls = held calls :=
  foldl_addRaw [] calls

/-- The text of some conditions has at least as many parts as there are conditions. -/
theorem le_length_split_held {c : Connective × String} {rest : Conditions}
    (h : ∀ d ∈ c :: rest, Balanced d.2) :
    rest.length ≤ (split (text (held (c :: rest)))).2.length := by
  induction rest generalizing c with
  | nil => exact Nat.zero_le _
  | cons d rest ih =>
    obtain ⟨hc, hrest⟩ := List.forall_mem_cons.1 h
    have hmore := ih hrest
    rw [text_held_cons, length_split_link hc.grouped (text_held_balanced hrest), List.length_cons]
    omega

/-- It has no more parts than that only if no condition shows a connective. -/
theorem split_grouped_of_length {c : Connective × String} {rest : Conditions}
    (h : ∀ d ∈ c :: rest, Balanced d.2)
    (hlength : (split (text (held (c :: rest)))).2.length = rest.length) :
    ∀ d ∈ c :: rest, (split (grouped d.2)).2 = [] := by
  induction rest generalizing c with
  | nil =>
    rw [text_held_singleton] at hlength
    exact List.forall_mem_singleton.2 (List.eq_nil_of_length_eq_zero hlength)
  | cons d rest ih =>
    obtain ⟨hc, hrest⟩ := List.forall_mem_cons.1 h
    have hmore := le_length_split_held hrest
    rw [text_held_cons, length_split_link hc.grouped (text_held_balanced hrest),
      List.length_cons] at hlength
    refine List.forall_mem_cons.2 ⟨List.eq_nil_of_length_eq_zero ?_, ih hrest ?_⟩
    · omega
    · omega

theorem split_grouped_of_parts {asked : Conditions} (h : ∀ c ∈ asked, Balanced c.2)
    (hparts : split (text (held asked)) = parts asked) :
    ∀ c ∈ asked, (split (grouped c.2)).2 = [] := by
  cases asked with
  | nil => exact List.forall_mem_nil _
  | cons c rest =>
    refine split_grouped_of_length h ?_
    rw [hparts, parts, List.length_map]

/-! ## Parentheses of a condition's own -/

/-- A balanced text in one pair of parentheses. -/
def Enclosed (t : String) : Prop :=
  ∃ body, Balanced body ∧ t = parenthesized body

/-- A text that is put in parentheses is enclosed by them. -/
theorem grouped_cases {t : String} (h : Balanced t) :
    opensGroup t = true ∧ grouped t = t ∨ Enclosed (grouped t) := by
  by_cases hopens : opensGroup t = true
  · exact .inl ⟨hopens, if_pos hopens⟩
  · exact .inr ⟨t, h, if_neg hopens⟩

/-- Inside its parentheses an enclosed text may hold any connectives. -/
theorem Enclosed.split_snd {t : String} (h : Enclosed t) : (split t).2 = [] := by
  obtain ⟨body, hbody, rfl⟩ := h
  exact split_snd_eq_nil_iff.2 (connective?_parenthesized hbody)

/-- What holds of all enclosed texts holds of all conditions just if it holds of those that were
added with a parenthesis at their start. -/
theorem forall_grouped_iff {P : String → Prop} (hP : ∀ t, Enclosed t → P t) {calls : Conditions}
    (h : ∀ c ∈ calls, Balanced c.2) :
    (∀ c ∈ calls, P (grouped c.2)) ↔ ∀ c ∈ calls, opensGroup c.2 = true → P c.2 := by
  refine forall₂_congr fun c hc => ?_
  constructor
  · intro hp hopens
    rwa [grouped, if_pos hopens] at hp
  · intro hp
    rcases grouped_cases (h c hc) with ⟨hopens, heq⟩ | hown
    · exact heq.symm ▸ hp hopens
    · exact hP _ hown

/-- **Conditions given as texts.** Some balanced texts that are added as conditions are found again
in the text of all of them, each in its parentheses and linked by the connectives of the calls, just
if there is none among them that starts with a parenthesis and shows a connective. All of them stand
in parentheses of their own just if those do that start with one. -/
theorem split_raw_iff (calls : Conditions) (h : ∀ c ∈ calls, Balanced c.2) :
    (split (text (raw calls)) = parts calls ↔
      ∀ c ∈ calls, opensGroup c.2 = true → (split c.2).2 = []) ∧
    ((∀ c ∈ raw calls, Enclosed c.2) ↔
      ∀ c ∈ calls, opensGroup c.2 = true → Enclosed c.2) := by
  rw [raw_eq]
  constructor
  · rw [← forall_grouped_iff (fun _ => Enclosed.split_snd) h]
    exact ⟨split_grouped_of_parts h, split_held h⟩
  · rw [← forall_grouped_iff (fun _ => id) h, held, List.forall_mem_map]

/-- A text with a connective and a semicolon in its quotes, and one that starts with a parenthesis
and shows no connective. -/
theorem split_raw_iff_list :
    let calls : Conditions := [(.and, "Id = 1 OR Name = 'a; (b'"), (.or, "(Id + 1) IN (2, 3)")]
    (∀ c ∈ calls, Balanced c.2) ∧
      text (raw calls) = "(Id = 1 OR Name = 'a; (b') OR (Id + 1) IN (2, 3)" ∧
      split (text (raw calls)) =
        ("(Id = 1 OR Name = 'a; (b')", [(.or, "(Id + 1) IN (2, 3)")]) := by
  intro calls
  have hbalanced : ∀ c ∈ calls, Balanced c.2 := by
    refine List.forall_mem_cons.2 ⟨⟨by decide, by decide, by decide⟩, ?_⟩
    exact List.forall_mem_singleton.2 ⟨by decide, by decide, by decide⟩
  have hnone : ∀ c ∈ calls, opensGroup c.2 = true → (split c.2).2 = [] := by decide +kernel
  have hparts : parts calls =
      ("(Id = 1 OR Name = 'a; (b')", [(.or, "(Id + 1) IN (2, 3)")]) := by decide +kernel
  refine ⟨hbalanced, by decide +kernel, ?_⟩
  rw [← hparts]
  exact (split_raw_iff calls hbalanced).1.2 hnone

/-- A condition that links two groups widens the one before it. -/
theorem split_raw_regroups :
    let calls : Conditions := [(.and, "Active = 1"), (.and, "(Id = 1) OR (Id = 2)")]
    (∀ c ∈ calls, Balanced c.2) ∧
      text (raw calls) = "(Active = 1) AND (Id = 1) OR (Id = 2)" ∧
      split (text (raw calls)) =
        ("(Active = 1)", [(.and, "(Id = 1)"), (.or, "(Id = 2)")]) ∧
      split (text (raw calls)) ≠ parts calls := by
  intro calls
  have hbalanced : ∀ c ∈ calls, Balanced c.2 := by
    refine List.forall_mem_cons.2 ⟨⟨by decide, by decide, by decide⟩, ?_⟩
    exact List.forall_mem_singleton.2 ⟨by decide, by decide, by decide⟩
  exact ⟨hbalanced, by decide +kernel, by decide +kernel, by decide +kernel⟩

end Conditions

end SqlWright
