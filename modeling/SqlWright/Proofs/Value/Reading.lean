import Mathlib.Data.List.Nodup
import SqlWright.Proofs.Value.Reader

/-!
# Literals are read back

A reader that is told the kind of a value recovers the value from its literal, also when more text
follows. The reader is not told the mode in which values of an enumeration are written, since an
apostrophe tells a name from an integer. Dates outside the years 0 to 9999 and leap seconds are left
out, since their texts are not read; dates with a time of day lose what is below a millisecond.
-/

namespace SqlWright

open Literal Text

/-! ## Enumerations -/

/-- What has a name of its own is found by it. -/
theorem find?_of_nodup {α β : Type} [DecidableEq β] {name : α → β} {xs : List α}
    (h : (xs.map name).Nodup) {x : α} (hx : x ∈ xs) :
    xs.find? (fun y => name y == name x) = some x := by
  obtain ⟨y, hy⟩ : ∃ y, xs.find? (fun y => name y == name x) = some y :=
    Option.isSome_iff_exists.1 (List.find?_isSome.2 ⟨x, hx, beq_self_eq_true (name x)⟩)
  have hsame : name y = name x := by simpa using List.find?_some hy
  rw [hy, List.inj_on_of_nodup_map h (List.mem_of_find?_eq_some hy) hx hsame]

theorem EnumType.valueOf?_of_mem {t : EnumType} (h : (t.variants.map (·.1)).Nodup)
    {variant : String × Int} (hv : variant ∈ t.variants) :
    t.valueOf? variant.1 = some variant.2 := by
  rw [EnumType.valueOf?, find?_of_nodup h hv, Option.map_some]

/-- If the names of the variants are distinct, the name of a value tells the value. -/
theorem EnumType.valueOf?_of_nameOf? {t : EnumType} (h : (t.variants.map (·.1)).Nodup) {n : Int}
    {name : String} (hname : t.nameOf? n = some name) : t.valueOf? name = some n := by
  obtain ⟨v, hv, rfl⟩ := Option.map_eq_some_iff.1 hname
  have hn : v.2 = n := by simpa using List.find?_some hv
  rw [EnumType.valueOf?_of_mem h (List.mem_of_find?_eq_some hv), hn]

namespace Literal

/-- A value of an enumeration: the name of a variant if there is an apostrophe, and else an
integer. -/
def variant? (t : EnumType) : Reader EnumValue := fun cs =>
  mapped (EnumValue.mk t)
    (if cs.head? = some '\'' then converted? t.valueOf? else integer?) cs

end Literal

/-- What a reader is told about a value. -/
inductive Kind where
  | bool
  | int
  | string
  | guid
  | date
  | dateTime
  | binary
  | enumerated (type : EnumType)

namespace Kind

/-- The reader of the literals of a kind. -/
def read? : Kind → Reader Value
  | .bool => mapped .bool bit?
  | .int => mapped .int integer?
  | .string => mapped .string string?
  | .guid => mapped .guid (converted? Guid.ofText?)
  | .date => mapped .date (converted? (whole? date?))
  | .dateTime => mapped .dateTime (converted? (whole? dateTime?))
  | .binary => mapped .binary binary?
  | .enumerated t => mapped .enumerated (variant? t)

/-- The characters that go on with a literal of the kind if they follow it. -/
def goesOn : Kind → Char → Bool
  | .bool => fun _ => false
  | .int => Char.isDigit
  | .string | .guid | .date | .dateTime => isApostrophe
  | .binary => isHex
  | .enumerated _ => fun c => isApostrophe c || c.isDigit

end Kind

/-- What a value of a kind is read back as: itself, or cut to milliseconds. -/
inductive Recovered : Kind → Value → Value → Prop where
  | bool (b : Bool) : Recovered .bool (.bool b) (.bool b)
  | int (n : Int) : Recovered .int (.int n) (.int n)
  | string (s : String) : Recovered .string (.string s) (.string s)
  | guid (g : Guid) : Recovered .guid (.guid g) (.guid g)
  | date {d : Date} (hfrom : 0 ≤ d.year) (hto : d.year ≤ 9999) :
      Recovered .date (.date d) (.date d)
  | dateTime {t : DateTime} (hfrom : 0 ≤ t.date.year) (hto : t.date.year ≤ 9999)
      (hleap : t.time.nanosecond < 1000000000) :
      Recovered .dateTime (.dateTime t) (.dateTime t.cut)
  | binary (bytes : List UInt8) : Recovered .binary (.binary bytes) (.binary bytes)
  | enumerated {e : EnumValue} (h : (e.type.variants.map (·.1)).Nodup) :
      Recovered (.enumerated e.type) (.enumerated e) (.enumerated e)

namespace EnumValue

variable (mode : EnumMode) (e : EnumValue)

/-- The literal of a value is the name of its variant, or else its integer. -/
theorem literal_cases :
    (∃ name, mode = .asString ∧ e.name? = some name ∧ e.literal mode = quoted name) ∨
    (¬ (mode = .asString ∧ e.name?.isSome = true) ∧ e.literal mode = toString e.value) := by
  unfold literal
  split
  · rename_i name hname
    exact .inl ⟨name, rfl, hname, rfl⟩
  · rename_i hnone
    refine .inr ⟨?_, rfl⟩
    rintro ⟨rfl, hsome⟩
    obtain ⟨name, hname⟩ := Option.isSome_iff_exists.1 hsome
    exact hnone name rfl hname

/-- The literal starts with an apostrophe exactly if it is a name. -/
theorem head?_literal_iff :
    (e.literal mode).toList.head? = some '\'' ↔ mode = .asString ∧ e.name?.isSome = true := by
  rcases literal_cases mode e with ⟨name, rfl, hname, hliteral⟩ | ⟨hnot, hliteral⟩
  · rw [hliteral, hname, quoted, enclosed, String.toList_ofList]
    exact iff_of_true rfl ⟨rfl, rfl⟩
  · rw [hliteral]
    refine iff_of_false (fun hhead => ?_) hnot
    exact (numeral_int e.value).apostrophe_not_mem (List.mem_of_head? hhead)

theorem variant?_literal (h : (e.type.variants.map (·.1)).Nodup) {rest : List Char}
    (hrest : Stops (Kind.enumerated e.type).goesOn rest) :
    variant? e.type ((e.literal mode).toList ++ rest) = some (e, rest) := by
  have hapostrophe : Stops isApostrophe rest := fun c hc => (Bool.or_eq_false_iff.1 (hrest c hc)).1
  have hdigit : Stops Char.isDigit rest := fun c hc => (Bool.or_eq_false_iff.1 (hrest c hc)).2
  rcases literal_cases mode e with ⟨name, rfl, hname, hliteral⟩ | ⟨hnot, hliteral⟩
  · have hread := converted?_quoted (EnumType.valueOf?_of_nameOf? h hname) hapostrophe
    have hhead : ((quoted name).toList ++ rest).head? = some '\'' := by
      rw [quoted, enclosed, String.toList_ofList]
      rfl
    rw [hliteral, variant?, if_pos hhead]
    exact mapped_of_read hread
  · have hread := integer?_toString e.value hdigit
    have hhead : ((toString e.value).toList ++ rest).head? ≠ some '\'' := by
      rw [List.head?_append_of_ne_nil _ (toString_ne_nil e.value)]
      exact fun h => (numeral_int e.value).apostrophe_not_mem (List.mem_of_head? h)
    rw [hliteral, variant?, if_neg hhead]
    exact mapped_of_read hread

end EnumValue

namespace Kind

/-- **Literals read back.** Told the kind of a value, the reader recovers the value from its literal
in either mode, and gives back what follows the literal. Dates and times of day come back cut to
milliseconds. A value of an enumeration comes back by its name exactly if it is named and names are
written, and by its integer otherwise. -/
theorem read?_literal {k : Kind} {v w : Value} (h : Recovered k v w) (mode : EnumMode)
    {rest : List Char} (hrest : Stops k.goesOn rest) :
    k.read? ((v.literal mode).toList ++ rest) = some (w, rest) ∧
    ∀ e, v = .enumerated e →
      ((v.literal mode).toList.head? = some '\'' ↔ mode = .asString ∧ e.name?.isSome = true) := by
  constructor
  · cases h with
    | bool b =>
      have hread : bit? ((Value.literal mode (.bool b)).toList ++ rest) = some (b, rest) := by
        cases b <;> rw [Value.literal] <;> rfl
      exact mapped_of_read hread
    | int n => exact mapped_of_read (integer?_toString n hrest)
    | string s => exact mapped_of_read (string?_quoted s hrest)
    | guid g =>
      rw [Value.literal, g.numeral_text.inert.quoted_eq]
      exact mapped_of_read (converted?_quoted g.ofText?_text hrest)
    | @date d hfrom hto =>
      have hread := whole?_of_read (date?_text d hfrom hto)
      rw [Value.literal, d.numeral_text.inert.quoted_eq]
      exact mapped_of_read (converted?_quoted hread hrest)
    | @dateTime t hfrom hto hleap =>
      have hread := whole?_of_read (dateTime?_literalText t hfrom hto hleap)
      rw [Value.literal, t.inert_literalText.quoted_eq]
      exact mapped_of_read (converted?_quoted hread hrest)
    | binary bytes =>
      simp only [Value.literal, String.toList_append, String.toList_ofList, List.append_assoc]
      exact mapped_of_read (binary?_upperHexBytes bytes hrest)
    | @enumerated e hnames => exact mapped_of_read (e.variant?_literal mode hnames hrest)
  · rintro e rfl
    exact e.head?_literal_iff mode

/-- A string that ends with an apostrophe, a leap day just before midnight, and two values of an
enumeration in which one variant is named like the integer of the other. -/
theorem read?_literal_followed :
    let more := ") AND t0.[Id] = '7'".toList
    let kind : EnumType := ⟨"Kind", [("o'clock", 1), ("1", 2)]⟩
    let leapDay : DateTime := ⟨⟨2024, 2, 29, by decide, by decide⟩,
      ⟨23, 59, 59, 997654321, by decide, by decide, by decide, by decide⟩⟩
    string.read? ((Value.literal .asInt (.string "it's '")).toList ++ more) =
        some (.string "it's '", more) ∧
      dateTime.read? ((Value.literal .asInt (.dateTime leapDay)).toList ++ more) =
        some (.dateTime leapDay.cut, more) ∧
      leapDay.cut.time.nanosecond = 997000000 ∧
      (Value.literal .asString (.enumerated ⟨kind, 2⟩)) = "'1'" ∧
      (enumerated kind).read? ((Value.literal .asString (.enumerated ⟨kind, 2⟩)).toList ++ more) =
        some (.enumerated ⟨kind, 2⟩, more) ∧
      (Value.literal .asInt (.enumerated ⟨kind, 1⟩)) = "1" ∧
      (enumerated kind).read? ((Value.literal .asInt (.enumerated ⟨kind, 1⟩)).toList ++ more) =
        some (.enumerated ⟨kind, 1⟩, more) := by
  intro more kind leapDay
  have hmore {p : Char → Bool} (hp : p ')' = false) : Stops p more := fun c hc => by
    cases hc
    exact hp
  have hnames : (kind.variants.map (·.1)).Nodup := by decide
  have hkind (n : Int) : Recovered (enumerated kind) (.enumerated ⟨kind, n⟩)
      (.enumerated ⟨kind, n⟩) := .enumerated (e := ⟨kind, n⟩) hnames
  exact ⟨(read?_literal (.string "it's '") .asInt (hmore rfl)).1,
    (read?_literal (.dateTime (by decide) (by decide) (by decide)) .asInt (hmore rfl)).1, by decide,
    by decide +kernel, (read?_literal (hkind 2) .asString (hmore rfl)).1,
    by decide +kernel, (read?_literal (hkind 1) .asInt (hmore rfl)).1⟩

end Kind

end SqlWright
