import Mathlib.Algebra.Ring.Nat
import SqlWright.Proofs.Value.Closed

/-!
# Where a literal leaves its reader

A reader that knows string literals and nothing else starts outside of them and reads the literal of
a value, whatever the value is and however deep its lists go. It ends outside exactly if the value
holds an even number of times of day and times with an offset, because each of them is written as a
lone apostrophe. A text after the literal of a timeless value is read as it is read alone, unless it
starts with an apostrophe itself.
-/

namespace SqlWright

namespace Text

/-! ## A reader of string literals -/

/-- Whether a reader of string literals ends inside one of them, if it starts inside or not. A
doubled apostrophe leaves the literal and enters it again. -/
def endsInside (inside : Bool) : List Char → Bool
  | [] => inside
  | c :: cs => endsInside (if c = '\'' then !inside else inside) cs

theorem endsInside_append (inside : Bool) (cs ds : List Char) :
    endsInside inside (cs ++ ds) = endsInside (endsInside inside cs) ds := by
  induction cs generalizing inside with
  | nil => rfl
  | cons c cs ih => exact ih _

theorem endsInside_not (inside : Bool) (cs : List Char) :
    endsInside (!inside) cs = !endsInside inside cs := by
  induction cs generalizing inside with
  | nil => rfl
  | cons c cs ih =>
    rw [endsInside, endsInside]
    split
    · exact ih (!inside)
    · exact ih inside

/-- Characters without an apostrophe leave the reader where it was. -/
theorem endsInside_of_not_mem {cs : List Char} (h : '\'' ∉ cs) (inside : Bool) :
    endsInside inside cs = inside := by
  induction cs with
  | nil => rfl
  | cons c cs ih =>
    rw [List.mem_cons, not_or] at h
    rw [endsInside, if_neg (Ne.symm h.1)]
    exact ih h.2

/-- So do doubled apostrophes. -/
theorem endsInside_doubled (inside : Bool) (cs : List Char) :
    endsInside inside (doubled '\'' cs) = inside := by
  induction cs with
  | nil => rfl
  | cons c cs ih =>
    by_cases hc : c = '\''
    · rw [doubled, if_pos hc, endsInside, if_pos rfl, endsInside, if_pos rfl, Bool.not_not]
      exact ih
    · rw [doubled, if_neg hc, endsInside, if_neg hc]
      exact ih

/-- A text in which `n` apostrophes have no partner: a reader that starts outside literals ends
inside one exactly if `n` is odd. -/
def Opens (n : Nat) (t : String) : Prop :=
  endsInside false t.toList = decide (n % 2 = 1)

namespace Opens

variable {m n : Nat} {t u : String}

theorem append (ht : Opens m t) (hu : Opens n u) : Opens (m + n) (t ++ u) := by
  unfold Opens at ht hu ⊢
  rw [String.toList_append, endsInside_append, ht]
  by_cases hm : m % 2 = 1
  · have hnot : endsInside true u.toList = !endsInside false u.toList :=
      endsInside_not false u.toList
    rw [decide_eq_true hm, hnot, hu, ← decide_not, decide_eq_decide]
    omega
  · rw [decide_eq_false hm, hu, decide_eq_decide]
    omega

theorem quoted (s : String) : Opens 0 (quoted s) := by
  unfold Opens
  rw [Text.quoted, enclosed, String.toList_ofList, endsInside, if_pos rfl, endsInside_append,
    endsInside_doubled]
  rfl

theorem apostrophe : Opens 1 "'" := rfl

theorem of_not_mem (h : '\'' ∉ t.toList) : Opens 0 t :=
  endsInside_of_not_mem h false

/-- The apostrophes without a partner add up over a list of texts. -/
theorem commas {counts : List Nat} {texts : List String} (h : List.Forall₂ Opens counts texts) :
    Opens counts.sum (String.intercalate "," texts) := by
  induction h with
  | nil =>
    rw [String.intercalate_nil]
    exact of_not_mem List.not_mem_nil
  | @cons n t counts texts ht hrest ih =>
    rw [List.sum_cons]
    cases hrest with
    | nil =>
      rw [String.intercalate_singleton]
      exact ht
    | cons hu hrest =>
      rw [String.intercalate_cons_cons]
      have hcomma : Opens 0 "," := of_not_mem (by decide)
      exact (ht.append hcomma).append ih

end Opens

/-! ## What follows a text -/

/-- A text after which the reader of quotes is in plain code or waits for a second apostrophe. -/
def Settled (t : String) : Prop :=
  Mode.code.after t.toList = .code ∨ Mode.code.after t.toList = .atApostrophe

namespace Settled

variable {t u : String}

theorem isSealed (h : Settled t) : isSealed t = true := by
  rcases h with h | h <;> rw [Text.isSealed, h] <;> rfl

/-- Only an apostrophe right after such a text can go on with it. -/
theorem masked_append (h : Settled t) (hu : u.toList.head? ≠ some '\'') :
    masked (t ++ u) = masked t ++ masked u := by
  rw [masked, String.toList_append, Mode.marks_append, masked, masked]
  refine congrArg (Mode.code.marks t.toList ++ ·) ?_
  rcases h with h | h
  · rw [h]
  · rw [h]
    cases hcs : u.toList with
    | nil => rfl
    | cons c cs =>
      have hc : c ≠ '\'' := by
        rintro rfl
        exact hu (by rw [hcs]; rfl)
      have hstep : Mode.step .atApostrophe c = Mode.step .code c := if_neg hc
      rw [Mode.marks, Mode.marks, hstep]

theorem link (ht : Settled t) (hu : Settled u) : Settled (t ++ "," ++ u) := by
  have hcode : Mode.code.after (t ++ ",").toList = .code := by
    rw [String.toList_append, Mode.after_append]
    rcases ht with ht | ht <;> rw [ht] <;> rfl
  rw [Settled, String.toList_append, Mode.after_append, hcode]
  exact hu

/-- A text of plain characters leaves the reader in plain code. -/
theorem of_plain (h : t.toList.all Mode.isPlain = true) : Settled t := by
  have hstays {cs : List Char} (hcs : cs.all Mode.isPlain = true) :
      Mode.code.after cs = .code := by
    induction cs with
    | nil => rfl
    | cons c cs ih =>
      rw [List.all_cons, Bool.and_eq_true] at hcs
      rw [Mode.after, Mode.step_plain rfl hcs.1]
      exact ih hcs.2
  exact .inl (hstays h)

end Settled

end Text

open Text

/-! ## Literals -/

theorem Inert.all_isPlain {cs : List Char} (h : Inert cs) : cs.all Mode.isPlain = true :=
  List.all_eq_true.2 fun c hc => isPlain_of_isWord (h c hc)

/-- The literals that have no lone apostrophe leave a reader of strings outside. -/
theorem Text.Opens.ofLiterals : OfLiterals (Opens 0) where
  numeral h := .of_not_mem h.numeral.apostrophe_not_mem
  quoted := .quoted
  null := .of_not_mem (by decide)
  commas h := by
    refine separated_induction (.of_not_mem List.not_mem_nil) (fun ht hu => ?_) h
    exact (ht.append (n := 0) (.of_not_mem (by decide))).append hu

theorem Text.Settled.ofLiterals : OfLiterals Settled where
  numeral h := .of_plain h.numeral.inert.all_isPlain
  quoted s := .inr (after_quoted s)
  null := .of_plain (by decide)
  commas h := separated_induction (.inl rfl) .link h

namespace Value

mutual
/-- How many times of day and times with an offset a value holds. -/
def times : Value → Nat
  | .offsetDateTime _ | .time _ => 1
  | .list items => (timesEach items).sum
  | .null | .bool _ | .int _ | .float _ | .decimal _ | .string _ | .guid _ | .dateTime _ | .date _
  | .binary _ | .json _ | .enumerated _ => 0

/-- How many of them each item of a list holds. -/
def timesEach : List Value → List Nat
  | [] => []
  | v :: rest => times v :: timesEach rest
end

mutual
theorem literal_opens (mode : EnumMode) : (v : Value) → Opens v.times (v.literal mode)
  | .offsetDateTime _ | .time _ => .apostrophe
  | .list items => .commas (literals_opens mode items)
  | .null | .bool _ | .int _ | .float _ | .decimal _ | .string _ | .guid _ | .dateTime _ | .date _
  | .binary _ | .json _ | .enumerated _ => Opens.ofLiterals.literal mode _ rfl

theorem literals_opens (mode : EnumMode) :
    (items : List Value) → List.Forall₂ Opens (timesEach items) (literals mode items)
  | [] => .nil
  | v :: rest => .cons (literal_opens mode v) (literals_opens mode rest)
end

mutual
theorem literalAs_opens (column : EnumColumn) :
    (v : Value) → Opens v.times (v.literalAs column)
  | .offsetDateTime _ | .time _ => .apostrophe
  | .list items => .commas (literalsAs_opens column items)
  | .null | .bool _ | .int _ | .float _ | .decimal _ | .string _ | .guid _ | .dateTime _ | .date _
  | .binary _ | .json _ | .enumerated _ => Opens.ofLiterals.literalAs column _ rfl

theorem literalsAs_opens (column : EnumColumn) :
    (items : List Value) → List.Forall₂ Opens (timesEach items) (literalsAs column items)
  | [] => .nil
  | v :: rest => .cons (literalAs_opens column v) (literalsAs_opens column rest)
end

theorem literalFor_opens (column : Option EnumColumn) (mode : EnumMode) (v : Value) :
    Opens v.times (v.literalFor column mode) := by
  cases column with
  | none => exact literal_opens mode v
  | some c => exact literalAs_opens c v

/-- **Exactly the times of day leave a literal open.** A reader of string literals ends outside the
literal of a value, coerced or not and in either mode, exactly if the value holds an even number of
times of day and times with an offset, at whatever depth of its lists. If it holds none, a reader
that knows bracketed names too ends outside of both, and reads each text after the literal that does
not start with an apostrophe as it reads that text alone. -/
theorem literalFor_endsInside_iff (column : Option EnumColumn) (mode : EnumMode) (v : Value) :
    (endsInside false (v.literalFor column mode).toList = false ↔ v.times % 2 = 0) ∧
    (v.timeless = true →
      isSealed (v.literalFor column mode) = true ∧
      ∀ u : String, u.toList.head? ≠ some '\'' →
        masked (v.literalFor column mode ++ u) =
          masked (v.literalFor column mode) ++ masked u) := by
  constructor
  · rw [literalFor_opens column mode v, decide_eq_false_iff_not]
    omega
  · intro h
    have hsettled := Settled.ofLiterals.literalFor column mode h
    exact ⟨hsettled.isSealed, fun u hu => hsettled.masked_append hu⟩

/-- A nested list with apostrophes in a string and in the name of a variant. -/
theorem literalFor_endsInside_iff_nested :
    let kind : EnumType := ⟨"Kind", [("o'clock", 1), ("]'", 2)]⟩
    let v : Value :=
      .list [.string "it's", .list [.int 1, .enumerated ⟨kind, 2⟩, .list []], .null]
    let text := v.literalFor (some ⟨kind, .asString⟩) .asInt
    v.timeless = true ∧ text = "'it''s','o''clock',']''',,NULL" ∧
      endsInside false text.toList = false ∧ isSealed text = true ∧
      masked (text ++ "] = 't0.x'") = masked text ++ masked "] = 't0.x'" := by
  intro kind v text
  have htimeless : v.timeless = true := by decide
  obtain ⟨houtside, hclosed⟩ := literalFor_endsInside_iff (some ⟨kind, .asString⟩) .asInt v
  exact ⟨htimeless, by decide +kernel, houtside.2 (by decide), (hclosed htimeless).1,
    (hclosed htimeless).2 _ (by decide)⟩

/-- The literal of a time of day leaves the reader inside a string, and what follows it in the
statement is swallowed. -/
theorem literal_time_swallows :
    ∃ t : ClockTime, (t.hour, t.minute, t.second, t.nanosecond) = (1, 2, 3, 0) ∧
      endsInside false ((Value.time t).literal .asInt).toList = true ∧
      masked ((Value.time t).literal .asInt ++ ") AND t0.[Id] = 1") = [.literal] :=
  ⟨⟨1, 2, 3, 0, by decide, by decide, by decide, by decide⟩, rfl, by decide +kernel,
    by decide +kernel⟩

end Value

end SqlWright
