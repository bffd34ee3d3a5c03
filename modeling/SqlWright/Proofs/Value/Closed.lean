import SqlWright.Proofs.Text.Scoped
import SqlWright.Value.Literal

/-!
# Literals are closed

The literal of a value can stand anywhere in a statement, whatever the value holds: texts are
quoted, and numbers, dates and bytes are made of characters that mean nothing to a reader of quotes
and aliases. Times of day and times with an offset are left out, because their literal is a lone
apostrophe.
-/

namespace SqlWright

open Text

/-! ## Digits -/

/-- Characters that are no quotes, no parentheses and no semicolons, and that begin no alias. -/
def Inert (cs : List Char) : Prop := ∀ c ∈ cs, isWord c = true

namespace Inert

variable {cs ds : List Char}

instance : Decidable (Inert cs) :=
  decidable_of_iff (cs.all isWord = true) List.all_eq_true

theorem append (h : Inert cs) (h' : Inert ds) : Inert (cs ++ ds) :=
  List.forall_mem_append.2 ⟨h, h'⟩

theorem isScoped {n : Nat} {t : String} (h : Inert t.toList) : Scoped n t :=
  .word (List.all_eq_true.2 h)

theorem doubled_eq (h : Inert cs) : doubled '\'' cs = cs := by
  induction cs with
  | nil => rfl
  | cons c cs ih =>
    have hq : c ≠ '\'' := by
      intro he
      subst he
      exact absurd (h _ List.mem_cons_self) (by decide)
    rw [doubled, if_neg hq, ih fun d hd => h d (List.mem_cons_of_mem c hd)]

/-- Apostrophes around a text without quotes make it a literal. -/
theorem quoted_eq {t : String} (h : Inert t.toList) : "'" ++ t ++ "'" = quoted t := by
  apply String.toList_injective
  rw [quoted, enclosed, doubled_eq h, String.toList_ofList, String.toList_append,
    String.toList_append]
  rfl

end Inert

/-- The characters that are no digits, but of which numbers are made too: signs, the point, the mark
of an exponent and what hexadecimal numbers have. -/
def numeralMarks : List Char :=
  ['-', '+', '.', 'e', 'x', 'A', 'B', 'C', 'D', 'E', 'F', 'a', 'b', 'c', 'd', 'f']

/-- Characters of which numbers are made. -/
def Numeral (cs : List Char) : Prop := ∀ c ∈ cs, c.isDigit = true ∨ c ∈ numeralMarks

namespace Numeral

variable {cs ds : List Char}

instance : Decidable (Numeral cs) :=
  decidable_of_iff (cs.all (fun c => c.isDigit || numeralMarks.contains c) = true) <| by
    simp [Numeral]

theorem append (h : Numeral cs) (h' : Numeral ds) : Numeral (cs ++ ds) :=
  List.forall_mem_append.2 ⟨h, h'⟩

theorem cons {c : Char} (hc : c.isDigit = true ∨ c ∈ numeralMarks) (h : Numeral cs) :
    Numeral (c :: cs) :=
  List.forall_mem_cons.2 ⟨hc, h⟩

theorem take (h : Numeral cs) (n : Nat) : Numeral (cs.take n) :=
  fun c hc => h c (List.mem_of_mem_take hc)

theorem drop (h : Numeral cs) (n : Nat) : Numeral (cs.drop n) :=
  fun c hc => h c (List.mem_of_mem_drop hc)

/-- A digit is none of the characters that mean something to a reader. -/
theorem ne_of_isDigit {c d : Char} (h : c.isDigit = true) (hd : d.isDigit = false) : c ≠ d := by
  rintro rfl
  rw [h] at hd
  cases hd

theorem inert (h : Numeral cs) : Inert cs := by
  intro c hc
  rcases h c hc with hdigit | hmark
  · have hne {d : Char} (hd : d.isDigit = false) : c ≠ d := ne_of_isDigit hdigit hd
    simp [isWord, Closed.isInert, Mode.isPlain, hne]
  · have hall : Inert numeralMarks := by decide
    exact hall c hmark

theorem apostrophe_not_mem (h : Numeral cs) : '\'' ∉ cs := fun hc =>
  absurd (h.inert _ hc) (by decide)

end Numeral

/-! ## Signs -/

/-- Characters of which numbers without a minus sign are made. -/
def Unsigned (cs : List Char) : Prop :=
  ∀ c ∈ cs, (c.isDigit = true ∨ c ∈ numeralMarks) ∧ c ≠ '-'

namespace Unsigned

variable {cs ds : List Char}

instance : Decidable (Unsigned cs) :=
  decidable_of_iff
    (cs.all (fun c => (c.isDigit || numeralMarks.contains c) && c != '-') = true) <| by
    simp [Unsigned]

theorem append (h : Unsigned cs) (h' : Unsigned ds) : Unsigned (cs ++ ds) :=
  List.forall_mem_append.2 ⟨h, h'⟩

theorem take (h : Unsigned cs) (n : Nat) : Unsigned (cs.take n) :=
  fun c hc => h c (List.mem_of_mem_take hc)

theorem drop (h : Unsigned cs) (n : Nat) : Unsigned (cs.drop n) :=
  fun c hc => h c (List.mem_of_mem_drop hc)

theorem numeral (h : Unsigned cs) : Numeral cs :=
  fun c hc => (h c hc).1

theorem minus_not_mem (h : Unsigned cs) : '-' ∉ cs :=
  fun hm => (h _ hm).2 rfl

/-- A point between the first digits and the others. -/
theorem pointed (h : Unsigned cs) (n : Nat) : Unsigned (cs.take n ++ '.' :: cs.drop n) := by
  have hpoint : Unsigned ['.'] := by decide
  exact (h.take n).append (hpoint.append (h.drop n))

end Unsigned

/-- A number that has a minus sign at its front or none. -/
structure Signed (cs : List Char) : Prop where
  numeral : Numeral cs
  minus : '-' ∉ cs.tail

namespace Signed

variable {cs : List Char}

instance : Decidable (Signed cs) :=
  decidable_of_iff (Numeral cs ∧ '-' ∉ cs.tail) ⟨fun h => ⟨h.1, h.2⟩, fun h => ⟨h.1, h.2⟩⟩

theorem positive (h : Unsigned cs) : Signed cs :=
  ⟨h.numeral, fun hm => h.minus_not_mem (List.mem_of_mem_tail hm)⟩

theorem negative (h : Unsigned cs) : Signed ('-' :: cs) :=
  ⟨.cons (by decide) h.numeral, h.minus_not_mem⟩

end Signed

/-! ## Numbers -/

namespace Decimal

theorem unsigned_toDigits (n : Nat) : Unsigned (Nat.toDigits 10 n) := by
  intro c hc
  have hdigit : c.isDigit = true := Nat.isDigit_of_mem_toDigits (by omega) (by omega) hc
  exact ⟨.inl hdigit, Numeral.ne_of_isDigit hdigit (by decide)⟩

theorem numeral_toDigits (n : Nat) : Numeral (Nat.toDigits 10 n) :=
  (unsigned_toDigits n).numeral

theorem unsigned_zeros (n : Nat) : Unsigned (List.replicate n '0') := by
  intro c hc
  rw [List.eq_of_mem_replicate hc]
  decide

theorem unsigned_paddedDigits (width n : Nat) : Unsigned (paddedDigits width n) :=
  (unsigned_zeros _).append (unsigned_toDigits n)

theorem numeral_padded (width n : Nat) : Numeral (padded width n).toList := by
  rw [padded, String.toList_ofList]
  exact (unsigned_paddedDigits width n).numeral

/-- The sign of a decimal number is at its front. -/
theorem Fixed.signed_text (d : Fixed) : Signed d.text.toList := by
  have hdigits := unsigned_paddedDigits (d.scale + 1) d.mantissa.natAbs
  obtain ⟨body, hbody, htext⟩ : ∃ body, Unsigned body ∧
      d.text.toList = (if d.mantissa < 0 then "-" else "").toList ++ body := by
    rw [Fixed.text]
    split
    · exact ⟨_, hdigits, by rw [String.toList_append, String.toList_ofList]⟩
    · exact ⟨_, hdigits.pointed _, by rw [String.toList_append, String.toList_ofList]⟩
  rw [htext]
  split
  · exact .negative hbody
  · exact .positive hbody

theorem Style.unsigned_positional (s : Style) (d : Scientific) : Unsigned (s.positional d) := by
  have hdigits := unsigned_toDigits d.coefficient
  have hpoint : Unsigned (if s.pointZero = true then ['.', '0'] else []) := by
    split <;> decide
  rw [Style.positional]
  split
  · exact (hdigits.append (unsigned_zeros _)).append hpoint
  · split
    · exact hdigits.pointed _
    · exact (Unsigned.append (by decide) (unsigned_zeros _)).append hdigits

/-- The sign of a double in a literal is at its front, since no exponent is written. -/
theorem signed_finite (x : Float) : Signed (literalStyle.finite x).toList := by
  have hdigits (d : Scientific) : Unsigned (literalStyle.digits d) := by
    have hplain : literalStyle.isPlain d.leading = true := rfl
    rw [Style.digits, hplain, Bool.or_true, if_pos rfl]
    exact literalStyle.unsigned_positional d
  rw [Style.finite, String.toList_ofList]
  split
  · exact .negative (hdigits _)
  · exact .positive (hdigits _)

end Decimal

theorem numeral_natural (n : Nat) : Numeral (toString n).toList := by
  show Numeral n.repr.toList
  rw [Nat.toList_repr]
  exact Decimal.numeral_toDigits n

theorem signed_int (n : Int) : Signed (toString n).toList := by
  cases n with
  | ofNat n =>
    show Signed n.repr.toList
    rw [Nat.toList_repr]
    exact .positive (Decimal.unsigned_toDigits n)
  | negSucc n =>
    show Signed ("-" ++ (n + 1).repr).toList
    rw [String.toList_append, Nat.toList_repr]
    exact .negative (Decimal.unsigned_toDigits (n + 1))

theorem numeral_int (n : Int) : Numeral (toString n).toList :=
  (signed_int n).numeral

/-! ## Identifiers, dates and bytes -/

theorem unsigned_hexDigit (d : Fin 16) :
    Unsigned [lowerHexDigit d.val] ∧ Unsigned [upperHexDigit d.val] := by
  revert d
  decide

theorem Guid.numeral_grouped {cs : List Char} (h : Numeral cs) (ns : List Nat) :
    Numeral (grouped ns cs) := by
  fun_induction grouped ns cs with
  | case1 => exact h
  | case2 => exact h
  | case3 n ns cs _ ih => exact (h.take n).append (.cons (by decide) (ih (h.drop n)))

theorem Guid.numeral_text (g : Guid) : Numeral g.text.toList := by
  rw [Guid.text, String.toList_ofList]
  refine numeral_grouped (fun c hc => ?_) groups
  obtain ⟨d, -, rfl⟩ := List.mem_map.1 hc
  exact (unsigned_hexDigit d).1.numeral _ List.mem_cons_self

theorem unsigned_upperHexBytes (bytes : List UInt8) : Unsigned (upperHexBytes bytes) := by
  have hdigit {n : Nat} (h : n < 16) : Unsigned [upperHexDigit n] := (unsigned_hexDigit ⟨n, h⟩).2
  intro c hc
  obtain ⟨b, -, hb⟩ := List.mem_flatMap.1 hc
  have hlt := b.toNat_lt
  rcases List.mem_pair.1 hb with rfl | rfl
  · exact hdigit (by omega) _ List.mem_cons_self
  · exact hdigit (by omega) _ List.mem_cons_self

theorem numeral_yearText (year : Int) : Numeral (yearText year).toList := by
  rw [yearText]
  split
  · rw [String.toList_append]
    exact Numeral.append (by decide) (Decimal.numeral_padded 4 _)
  · split
    · exact Decimal.numeral_padded 4 _
    · rw [String.toList_append]
      exact Numeral.append (by decide) (Decimal.numeral_padded 4 _)

theorem Date.numeral_text (d : Date) : Numeral d.text.toList := by
  simp only [Date.text, String.toList_append]
  have hm := Decimal.numeral_padded 2 d.month
  have hd := Decimal.numeral_padded 2 d.day
  exact ((((numeral_yearText d.year).append (by decide)).append hm).append (by decide)).append hd

theorem ClockTime.inert_toMillisecond (t : ClockTime) : Inert t.toMillisecond.toList := by
  simp only [ClockTime.toMillisecond, ClockTime.toSecond, String.toList_append]
  have hh := (Decimal.numeral_padded 2 t.hour).inert
  have hm := (Decimal.numeral_padded 2 t.minute).inert
  have hs := (Decimal.numeral_padded 2 t.shownSecond).inert
  have hf := (Decimal.numeral_padded 3 (t.fraction / 1000000)).inert
  exact (((((hh.append (by decide)).append hm).append (by decide)).append hs).append
    (by decide)).append hf

theorem DateTime.inert_literalText (t : DateTime) : Inert t.literalText.toList := by
  simp only [DateTime.literalText, String.toList_append]
  exact (t.date.numeral_text.inert.append (by decide)).append t.time.inert_toMillisecond

/-! ## Literals -/

namespace Value

mutual
/-- Whether a value is neither a time of day nor a time with an offset, and holds none. -/
def timeless : Value → Bool
  | .offsetDateTime _ | .time _ => false
  | .list items => timelessAll items
  | .null | .bool _ | .int _ | .float _ | .decimal _ | .string _ | .guid _ | .dateTime _ | .date _
  | .binary _ | .json _ | .enumerated _ => true

/-- Whether all items of a list are timeless. -/
def timelessAll : List Value → Bool
  | [] => true
  | v :: rest => timeless v && timelessAll rest
end

end Value

/-- A property of texts that all literals have: numbers, quoted texts and `NULL` have it, and lists
of such texts. -/
structure OfLiterals (P : String → Prop) : Prop where
  numeral : ∀ {t : String}, Signed t.toList → P t
  quoted : ∀ s, P (quoted s)
  null : P "NULL"
  commas : ∀ {texts : List String}, (∀ t ∈ texts, P t) → P (String.intercalate "," texts)

namespace OfLiterals

variable {P : String → Prop}

theorem between (hP : OfLiterals P) {t : String} (h : Inert t.toList) : P ("'" ++ t ++ "'") := by
  rw [h.quoted_eq]
  exact hP.quoted t

theorem floatLiteral (hP : OfLiterals P) (x : Float) : P (floatLiteral x) := by
  rw [SqlWright.floatLiteral]
  split
  · exact hP.numeral (Decimal.signed_finite x)
  · exact hP.null

theorem enumLiteral (hP : OfLiterals P) (mode : EnumMode) (v : EnumValue) :
    P (v.literal mode) := by
  unfold EnumValue.literal
  split
  · exact hP.quoted _
  · exact hP.numeral (signed_int _)

mutual
theorem literal (hP : OfLiterals P) (mode : EnumMode) :
    (v : Value) → v.timeless = true → P (v.literal mode)
  | .null, _ => hP.null
  | .bool true, _ => hP.numeral (t := "1") (by decide)
  | .bool false, _ => hP.numeral (t := "0") (by decide)
  | .int n, _ => hP.numeral (signed_int n)
  | .float x, _ => hP.floatLiteral x
  | .decimal d, _ => hP.numeral d.signed_text
  | .string s, _ => hP.quoted s
  | .guid g, _ => hP.between g.numeral_text.inert
  | .dateTime t, _ => hP.between t.inert_literalText
  | .date d, _ => hP.between d.numeral_text.inert
  | .binary bytes, _ => by
    refine hP.numeral ?_
    simp only [Value.literal, String.toList_append, String.toList_ofList]
    exact .positive (Unsigned.append (by decide) (unsigned_upperHexBytes bytes))
  | .json j, _ => hP.quoted j.text
  | .enumerated e, _ => hP.enumLiteral mode e
  | .list items, h => hP.commas (hP.literals mode items h)

theorem literals (hP : OfLiterals P) (mode : EnumMode) :
    (items : List Value) → Value.timelessAll items = true → ∀ t ∈ Value.literals mode items, P t
  | [], _ => List.forall_mem_nil _
  | v :: rest, h => by
    rw [Value.timelessAll, Bool.and_eq_true] at h
    exact List.forall_mem_cons.2 ⟨hP.literal mode v h.1, hP.literals mode rest h.2⟩
end

mutual
theorem literalAs (hP : OfLiterals P) (column : EnumColumn) :
    (v : Value) → v.timeless = true → P (v.literalAs column)
  | .int n, _ => hP.enumLiteral column.mode ⟨column.type, n⟩
  | .string s, _ => by
    rw [Value.literalAs]
    split
    · exact hP.enumLiteral _ _
    · exact hP.quoted s
  | .list items, h => hP.commas (hP.literalsAs column items h)
  | .null, h | .bool _, h | .float _, h | .decimal _, h | .guid _, h | .dateTime _, h
  | .offsetDateTime _, h | .date _, h | .time _, h | .binary _, h | .json _, h
  | .enumerated _, h => hP.literal column.mode _ h

theorem literalsAs (hP : OfLiterals P) (column : EnumColumn) :
    (items : List Value) → Value.timelessAll items = true →
      ∀ t ∈ Value.literalsAs column items, P t
  | [], _ => List.forall_mem_nil _
  | v :: rest, h => by
    rw [Value.timelessAll, Bool.and_eq_true] at h
    exact List.forall_mem_cons.2 ⟨hP.literalAs column v h.1, hP.literalsAs column rest h.2⟩
end

theorem literalFor (hP : OfLiterals P) (column : Option EnumColumn) (mode : EnumMode)
    {v : Value} (h : v.timeless = true) : P (v.literalFor column mode) := by
  cases column with
  | none => exact hP.literal mode v h
  | some c => exact hP.literalAs c v h

end OfLiterals

/-- Literals are closed, and they name no alias. -/
theorem Scoped.ofLiterals (n : Nat) : OfLiterals (Scoped n) where
  numeral h := h.numeral.inert.isScoped
  quoted := .quoted
  null := .word (by decide)
  commas := .commas

namespace Value

theorem literal_scoped {n : Nat} (mode : EnumMode) (v : Value) (h : v.timeless = true) :
    Scoped n (v.literal mode) :=
  (Scoped.ofLiterals n).literal mode v h

theorem literalFor_scoped {n : Nat} (column : Option EnumColumn) (mode : EnumMode) {v : Value}
    (h : v.timeless = true) : Scoped n (v.literalFor column mode) :=
  (Scoped.ofLiterals n).literalFor column mode h

theorem literal_closed (mode : EnumMode) (v : Value) (h : v.timeless = true) :
    Closed (v.literal mode) :=
  (literal_scoped (n := 0) mode v h).closed

end Value

end SqlWright
