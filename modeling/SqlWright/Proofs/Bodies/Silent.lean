import SqlWright.Proofs.Expr.Operands
import SqlWright.Proofs.Text.Surface
import SqlWright.Proofs.Value.Reader
import SqlWright.Proofs.Value.Trimmed

/-!
# Silent expressions

Which expressions have no text. A row as a whole has none, an empty list has none, and neither has
what passes on such an operand as it is: a conversion, a call of a method that is not known, a
projection of nothing else, a list of one such item. It speaks in the tree alone, whatever the names
and the enumerations are, and every other expression that compiles has a text with a character that
is no blank. So cutting blanks off makes no text empty, and a test for the empty text finds just
these expressions.
-/

namespace SqlWright

open Text Outcome

namespace Text

/-! ## Texts that speak -/

/-- Whether a text has a character that is no blank. -/
def speaks (t : String) : Bool :=
  t.toList.any fun c => !isBlank c

variable {t u : String}

theorem speaks_append : speaks (t ++ u) = (speaks t || speaks u) := by
  rw [speaks, String.toList_append, List.any_append]
  rfl

theorem speaks_trim (t : String) : speaks (trim t) = speaks t := by
  obtain ⟨front, back, ht, hfront, hback⟩ := toList_eq_trim t
  have hblank {cs : List Char} (h : ∀ c ∈ cs, isBlank c = true) :
      (cs.any fun c => !isBlank c) = false := by
    simpa using h
  conv_rhs => rw [speaks, ht, List.any_append, List.any_append, hblank hfront, hblank hback]
  rw [Bool.false_or, Bool.or_false]
  rfl

theorem speaks_intercalate {separator : String} {ts : List String} (ht : t ∈ ts)
    (h : speaks t = true) : speaks (String.intercalate separator ts) = true := by
  induction ts with
  | nil => cases ht
  | cons first ts ih =>
    cases ts with
    | nil =>
      rw [String.intercalate_singleton]
      exact List.mem_singleton.1 ht ▸ h
    | cons second ts =>
      rw [String.intercalate_cons_cons, speaks_append, speaks_append, Bool.or_eq_true,
        Bool.or_eq_true]
      rcases List.mem_cons.1 ht with rfl | ht
      · exact .inl (.inl h)
      · exact .inr (ih ht)

/-- Two texts are held apart by their separator. -/
theorem speaks_of_separator {separator : String} (h : speaks separator = true) (ts : List String) :
    speaks (String.intercalate separator (t :: u :: ts)) = true := by
  rw [String.intercalate_cons_cons, speaks_append, speaks_append, h, Bool.or_true, Bool.true_or]

/-- The text of what is silent, which is empty, or of what is not. -/
def TextOf (silent : Bool) (t : String) : Prop :=
  if silent then t = "" else speaks t = true

namespace TextOf

variable {silent : Bool}

theorem speaks_eq (h : TextOf silent t) : speaks t = !silent := by
  cases silent with
  | true => exact congrArg speaks h
  | false => exact h

theorem eq_empty_iff (h : TextOf silent t) : t = "" ↔ silent = true := by
  constructor
  · rintro rfl
    have hspeaks := h.speaks_eq
    cases silent with
    | true => rfl
    | false => cases hspeaks
  · rintro rfl
    exact h

theorem trim (h : TextOf silent t) : TextOf silent (trim t) := by
  cases silent with
  | true =>
    obtain rfl : t = "" := h
    exact rfl
  | false => exact (speaks_trim t).trans h

/-- A list of texts that speak is silent if it has no member. -/
theorem list {separator : String} {ts : List String} (h : ∀ t ∈ ts, speaks t = true) :
    TextOf ts.isEmpty (String.intercalate separator ts) := by
  cases ts with
  | nil => rfl
  | cons t ts => exact speaks_intercalate List.mem_cons_self (h t List.mem_cons_self)

end TextOf

end Text

/-! ## Literals -/

theorem Numeral.speaks {t : String} (h : Numeral t.toList) (hne : t.toList ≠ []) :
    speaks t = true := by
  obtain ⟨c, cs, hcs⟩ := List.exists_cons_of_ne_nil hne
  rw [hcs] at h
  rw [Text.speaks, hcs, List.any_cons, h.not_blank c List.mem_cons_self]
  rfl

namespace Text

theorem speaks_parenthesized (t : String) : speaks (parenthesized t) = true := by
  have hopen : speaks "(" = true := by decide
  rw [parenthesized, speaks_append, speaks_append, hopen, Bool.true_or, Bool.true_or]

theorem speaks_quoted (s : String) : speaks (quoted s) = true := by
  simp [quoted, enclosed, speaks, isBlank]

theorem speaks_between (t : String) : speaks ("'" ++ t ++ "'") = true := by
  simp [speaks, isBlank]

end Text

namespace Decimal

theorem Style.finite_ne_nil (s : Style) (x : Float) : (s.finite x).toList ≠ [] := by
  have hpositional (d : Scientific) : s.positional d ≠ [] := by
    unfold Style.positional
    dsimp only
    split
    · simp
    · split <;> simp
  have hdigits (d : Scientific) : s.digits d ≠ [] := by
    unfold Style.digits
    split
    · exact hpositional d
    · simp [Style.exponential]
  rw [Style.finite, String.toList_ofList]
  split
  · exact List.cons_ne_nil _ _
  · exact hdigits _

theorem Fixed.text_ne_nil (d : Fixed) : d.text.toList ≠ [] := by
  rw [Fixed.text]
  split
  · simp [paddedDigits]
  · simp

end Decimal

theorem speaks_floatLiteral (x : Float) : speaks (floatLiteral x) = true := by
  rw [floatLiteral]
  split
  · exact (Decimal.signed_finite x).numeral.speaks (Decimal.Style.finite_ne_nil _ x)
  · decide

theorem EnumValue.speaks_literal (mode : EnumMode) (v : EnumValue) :
    speaks (v.literal mode) = true := by
  unfold EnumValue.literal
  split
  · exact speaks_quoted _
  · exact (numeral_int _).speaks (Literal.toString_ne_nil _)

namespace Value

/-- Whether a value has no literal: an empty list, or a list of one such value. -/
def isSilent : Value → Bool
  | .list [] => true
  | .list [v] => isSilent v
  | _ => false

theorem literal_textOf (mode : EnumMode) : (v : Value) → TextOf v.isSilent (v.literal mode)
  | .null => (by decide : speaks "NULL" = true)
  | .bool true => (by decide : speaks "1" = true)
  | .bool false => (by decide : speaks "0" = true)
  | .int n => (numeral_int n).speaks (Literal.toString_ne_nil n)
  | .float x => speaks_floatLiteral x
  | .decimal d => d.signed_text.numeral.speaks d.text_ne_nil
  | .string s => speaks_quoted s
  | .guid g => speaks_between g.text
  | .dateTime t => speaks_between t.literalText
  | .offsetDateTime _ | .time _ => (by decide : speaks "'" = true)
  | .date d => speaks_between d.text
  | .binary bytes => by
    show speaks ("0x" ++ String.ofList (upperHexBytes bytes)) = true
    rw [speaks_append]
    rfl
  | .json j => speaks_quoted j.text
  | .enumerated e => e.speaks_literal mode
  | .list [] => rfl
  | .list [v] => by
    show TextOf v.isSilent (String.intercalate "," [v.literal mode])
    rw [String.intercalate_singleton]
    exact literal_textOf mode v
  | .list (_ :: _ :: _) => speaks_of_separator (by decide) _

theorem literalAs_textOf (column : EnumColumn) :
    (v : Value) → TextOf v.isSilent (v.literalAs column)
  | .int n => EnumValue.speaks_literal _ _
  | .string s => by
    show speaks (Value.literalAs column (.string s)) = true
    rw [Value.literalAs]
    split
    · exact EnumValue.speaks_literal _ _
    · exact speaks_quoted s
  | .list [] => rfl
  | .list [v] => by
    show TextOf v.isSilent (String.intercalate "," [v.literalAs column])
    rw [String.intercalate_singleton]
    exact literalAs_textOf column v
  | .list (_ :: _ :: _) => speaks_of_separator (by decide) _
  | .null | .bool _ | .float _ | .decimal _ | .guid _ | .dateTime _ | .offsetDateTime _ | .date _
  | .time _ | .binary _ | .json _ | .enumerated _ => literal_textOf column.mode _

theorem literalFor_textOf (column : Option EnumColumn) (mode : EnumMode) (v : Value) :
    TextOf v.isSilent (v.literalFor column mode) := by
  cases column with
  | none => exact v.literal_textOf mode
  | some c => exact v.literalAs_textOf c

end Value

/-! ## Expressions -/

namespace Expr

mutual
/-- Whether an expression has no text if it compiles: a row as a whole, a silent value, and what
stands for silent operands as they are. -/
def isSilent : Expr → Bool
  | .parameter _ => true
  | .member owner name =>
    match captured? (.member owner name) with
    | some (.ok (.value v)) => v.isSilent
    | _ => false
  | .fixed _ _ v | .constant v => v.isSilent
  | .unary .convert operand => isSilent operand
  | .projection members => silentMembers members
  | .call method target args =>
    method != "Contains" && (Aggregate.ofName? method).isNone && silentTarget target &&
      silentAll args
  | .captured _ | .unary _ _ | .binary _ _ _ | .conditional _ _ _ => false

/-- `isSilent` for the target of a call. -/
def silentTarget : Option Expr → Bool
  | none => true
  | some e => isSilent e

/-- `isSilent` for several expressions. -/
def silentAll : List Expr → Bool
  | [] => true
  | e :: rest => isSilent e && silentAll rest

/-- `isSilent` for the members of a projection. -/
def silentMembers : List (String × Expr) → Bool
  | [] => true
  | (_, e) :: rest => isSilent e && silentMembers rest
end

theorem silentMembers_eq (members : List (String × Expr)) :
    silentMembers members = members.all fun m => m.2.isSilent := by
  induction members with
  | nil => rfl
  | cons m rest ih => rw [silentMembers, ih, List.all_cons]

theorem silentAll_eq (es : List Expr) : silentAll es = es.all isSilent := by
  induction es with
  | nil => rfl
  | cons e rest ih => rw [silentAll, ih, List.all_cons]

/-- A call is silent if it is neither a membership test nor an aggregate and all its operands
are. -/
theorem isSilent_call (method : String) (target : Option Expr) (args : List Expr) :
    (call method target args).isSilent =
      (method != "Contains" && (Aggregate.ofName? method).isNone &&
        (target.toList ++ args).all isSilent) := by
  rw [isSilent, silentAll_eq, List.all_append, ← Bool.and_assoc]
  congr 2
  cases target with
  | none => rfl
  | some e => simp [silentTarget]

variable {s : Scope} {named : Bool} {hint : Option EnumColumn}

/-- A column has its alias and a dot. -/
theorem speaks_column {t : MappedType} {member text : String} (h : s.column t member = .ok text) :
    speaks text = true := by
  obtain ⟨name, -, h⟩ := bind_eq_ok.1 h
  obtain ⟨c, -, h⟩ := bind_eq_ok.1 h
  cases h
  rw [speaks_append, speaks_append]
  have hdot : speaks "." = true := by decide
  rw [hdot, Bool.or_true, Bool.true_or]

theorem memberValue_textOf {mode : EnumMode} {owner : Expr} {name text : String}
    (h : memberValue mode hint owner name = .ok text) :
    TextOf (member owner name).isSilent text := by
  unfold memberValue at h
  rw [isSilent.eq_def]
  dsimp only
  cases hc : captured? (.member owner name) with
  | none =>
    rw [hc] at h
    cases owner <;> cases h
  | some field =>
    rw [hc] at h
    cases field with
    | error e => cases h
    | ok field =>
      cases field with
      | value v =>
        cases h
        exact v.literalFor_textOf hint mode
      | record r => cases h

/-- The members of a projection that are not silent all have texts, and the others are left out. -/
theorem memberTexts_speak {members : List (String × Expr)} {texts : List String}
    (h : List.Forall₂ (fun (m : String × Expr) text => TextOf m.2.isSilent text) members texts) :
    (∀ text ∈ memberTexts named (members.map (·.1)) texts, speaks text = true) ∧
      (memberTexts named (members.map (·.1)) texts).isEmpty = silentMembers members := by
  induction h with
  | nil => exact ⟨List.forall_mem_nil _, rfl⟩
  | @cons m text members texts hm _ ih =>
    rw [silentMembers_eq] at ih ⊢
    rw [List.all_cons]
    cases hsilent : m.2.isSilent with
    | true =>
      have hempty : text = "" := hm.eq_empty_iff.2 hsilent
      simpa [memberTexts, hempty] using ih
    | false =>
      have hspeaks : speaks text = true := by rw [hm.speaks_eq, hsilent, Bool.not_false]
      have hne : text ≠ "" := by
        rintro rfl
        cases hspeaks
      have hmember : speaks (memberText named m.1 text) = true := by
        rw [memberText]
        split
        · rw [speaks_append, speaks_append, hspeaks, Bool.true_or, Bool.true_or]
        · exact hspeaks
      have hcons : memberTexts named ((m :: members).map (·.1)) (text :: texts) =
          memberText named m.1 text :: memberTexts named (members.map (·.1)) texts := by
        simp [memberTexts, hne]
      rw [hcons]
      exact ⟨List.forall_mem_cons.2 ⟨hmember, ih.1⟩, rfl⟩

theorem speaks_membershipText (value items : String) :
    speaks (membershipText value items) = true := by
  have hin : speaks " IN (" = true := by decide
  rw [membershipText]
  split
  · decide
  · rw [speaks_append, speaks_append, speaks_append, hin, Bool.or_true, Bool.true_or, Bool.true_or]

theorem speaks_conditionalText (test ifTrue ifFalse : String) :
    speaks (conditionalText test ifTrue ifFalse) = true := by
  have hwhen : speaks "CASE WHEN " = true := by decide
  simp only [conditionalText, speaks_append, hwhen, Bool.true_or]

theorem speaks_count {a : Aggregate} {text : String}
    (h : (if a = .count then .ok "COUNT(*)"
      else .error (.unsupported (.aggregateOperand a.name)) : Outcome String) = .ok text) :
    speaks text = true := by
  split at h
  · cases h
    decide
  · cases h

theorem callText_textOf {method : String} {target : Option Expr} {args : List Expr}
    {texts : List String} {text : String}
    (htexts : List.Forall₂ (fun (o : Expr × Option EnumColumn) text => TextOf o.1.isSilent text)
      (callOperands method target args) texts)
    (h : callText method texts = .ok text) : TextOf (call method target args).isSilent text := by
  rw [isSilent_call]
  unfold callOperands at htexts
  unfold callText at h
  by_cases hmethod : method = "Contains"
  · rw [if_pos hmethod] at h
    have hsilent : (method != "Contains") = false := by simp [hmethod]
    rw [hsilent]
    split at h
    · cases h
      exact speaks_membershipText _ _
    · cases h
  · rw [if_neg hmethod] at h htexts
    have hsilent : (method != "Contains") = true := by simp [hmethod]
    rw [hsilent]
    cases ha : Aggregate.ofName? method with
    | some a =>
      rw [ha] at h
      show speaks text = true
      rcases texts with _ | ⟨operand, _ | ⟨second, more⟩⟩
      · exact speaks_count h
      · cases h
        rw [speaks_append, speaks_parenthesized, Bool.or_true]
      · exact speaks_count h
    | none =>
      rw [ha] at h htexts
      -- an unknown method has one operand and stands for it
      obtain ⟨o, hoperands, ho⟩ : ∃ o : Expr × Option EnumColumn,
          (target.toList ++ args).map (fun e => (e, none)) = [o] ∧ TextOf o.1.isSilent text := by
        rcases texts with _ | ⟨operand, _ | ⟨second, more⟩⟩
        · cases h
        · cases h
          obtain ⟨o, rest, ho, hrest, heq⟩ := List.forall₂_cons_right_iff.1 htexts
          rw [List.forall₂_nil_right_iff.1 hrest] at heq
          exact ⟨o, heq, ho⟩
        · cases h
      obtain ⟨e, hall, rfl⟩ := List.map_eq_singleton_iff.1 hoperands
      rw [hall]
      simpa using ho

/-- The text of an expression is empty if it is silent, and it speaks if it is not. -/
theorem render_textOf (s : Scope) (named : Bool) (hint : Option EnumColumn) (e : Expr)
    {text : String} (h : render s named hint e = .ok text) : TextOf e.isSilent text := by
  induction hint, e using operands_induction generalizing text with
  | node hint e ih =>
    rw [render_eq_assemble] at h
    obtain ⟨texts, htexts, h⟩ := bind_eq_ok.1 h
    have hoperands : List.Forall₂ (fun (o : Expr × Option EnumColumn) text =>
        TextOf o.1.isSilent text) (e.operands hint) texts :=
      forall₂_of_mapM htexts fun o ho text hrender => ih o ho hrender
    cases e with
    | parameter t =>
      cases h
      rfl
    | member owner name =>
      cases owner with
      | parameter t => exact speaks_column h
      | _ => exact @memberValue_textOf hint s.enumMode _ name text h
    | captured object => cases h
    | fixed owner name value =>
      cases h
      exact value.literalFor_textOf hint s.enumMode
    | constant value =>
      cases h
      exact value.literalFor_textOf hint s.enumMode
    | binary op left right =>
      rw [assemble.eq_def] at h
      dsimp only at h
      split at h
      · cases h
        exact speaks_parenthesized _
      · cases h
    | unary op operand =>
      cases hoperands with
      | cons hoperand hnone =>
        cases hnone
        cases h
        cases op with
        | convert => exact hoperand
        | negate => exact speaks_parenthesized _
        | not =>
          have hnot : speaks "NOT " = true := by decide
          exact speaks_append.trans (by rw [hnot, Bool.true_or])
    | conditional test ifTrue ifFalse =>
      cases hoperands with
      | cons _ hrest =>
        cases hrest with
        | cons _ hrest =>
          cases hrest with
          | cons _ hnone =>
            cases hnone
            cases h
            exact speaks_conditionalText _ _ _
    | projection members =>
      cases h
      have hmembers : List.Forall₂ (fun (m : String × Expr) text => TextOf m.2.isSilent text)
          members texts :=
        (List.forall₂_map_left_iff (f := fun m : String × Expr => (m.2, none))).1 hoperands
      obtain ⟨hspeaks, hsilent⟩ := memberTexts_speak hmembers
      rw [isSilent, ← hsilent]
      exact .list hspeaks
    | call method target args => exact callText_textOf hoperands h

/-- **Silent expressions.** Of the expressions that compile, the silent ones and no others have the
empty text, and no text is made of blanks alone. -/
theorem compile_textOf {e : Expr} {text : String} (h : e.compile s named = .ok text) :
    TextOf e.isSilent text := by
  obtain ⟨t, ht, rfl⟩ := map_eq_ok.1 h
  exact (render_textOf s named none e ht).trim

end Expr

end SqlWright
