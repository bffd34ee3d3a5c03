import Mathlib.Algebra.Ring.Nat
import SqlWright.Decimal.Reader
import SqlWright.Proofs.Value.Closed

/-!
# Readers of literals

How a server takes one literal from the start of a text, and what it leaves of the text: numbers,
bytes, strings, and what is converted from strings. Each reader comes with the texts it reads. A
reader of numbers or bytes goes on as long as it can, and a string goes on after a doubled
apostrophe, so what follows a literal must not start with a character that goes on with it. Floating
point numbers, decimals and JSON are not read.
-/

namespace SqlWright.Literal

open Decimal Text

/-- A reader takes a value from the start of a text and gives what follows it. -/
abbrev Reader (α : Type) := List Char → Option (α × List Char)

/-- Reads a value and gives another one made of it. -/
def mapped {α β : Type} (f : α → β) (read? : Reader α) : Reader β := fun cs =>
  (read? cs).map fun (a, rest) => (f a, rest)

theorem mapped_of_read {α β : Type} {f : α → β} {read? : Reader α} {cs rest : List Char} {a : α}
    (h : read? cs = some (a, rest)) : mapped f read? cs = some (f a, rest) := by
  rw [mapped, h]
  rfl

/-- A text does not start with one of the characters that go on with what stands before it. -/
def Stops (goesOn : Char → Bool) (rest : List Char) : Prop :=
  ∀ c ∈ rest.head?, goesOn c = false

section Runs

variable {goesOn : Char → Bool} {cs rest : List Char}

theorem takeWhile_run (hcs : ∀ c ∈ cs, goesOn c = true) (hrest : Stops goesOn rest) :
    (cs ++ rest).takeWhile goesOn = cs := by
  rw [List.takeWhile_append_of_pos hcs]
  cases rest with
  | nil => exact List.append_nil cs
  | cons c rest =>
    have hc : ¬ goesOn c = true := by simp [hrest c rfl]
    rw [List.takeWhile_cons_of_neg hc, List.append_nil]

theorem dropWhile_run (hcs : ∀ c ∈ cs, goesOn c = true) (hrest : Stops goesOn rest) :
    (cs ++ rest).dropWhile goesOn = rest := by
  rw [List.dropWhile_append_of_pos hcs]
  cases rest with
  | nil => rfl
  | cons c rest =>
    have hc : ¬ goesOn c = true := by simp [hrest c rfl]
    exact List.dropWhile_cons_of_neg hc

end Runs

/-! ## Numbers -/

/-- All digits at the start of a text. -/
def natural? : Reader Nat := fun cs =>
  (wholeDigits? (cs.takeWhile Char.isDigit)).map fun n => (n, cs.dropWhile Char.isDigit)

/-- A whole number, with a hyphen before it if it is negative. -/
def integer? : Reader Int
  | '-' :: cs => mapped (fun n : Nat => -(n : Int)) natural? cs
  | cs => mapped Int.ofNat natural? cs

/-- A single bit. -/
def bit? : Reader Bool
  | '0' :: rest => some (false, rest)
  | '1' :: rest => some (true, rest)
  | _ => none

/-- The number of exactly `width` digits. -/
def digits? (width : Nat) : Reader Nat := fun cs =>
  if width ≤ cs.length then
    (wholeDigits? (cs.take width)).map fun n => (n, cs.drop width)
  else none

theorem wholeDigits?_of_digits {cs : List Char} (hne : cs ≠ [])
    (h : ∀ c ∈ cs, c.isDigit = true) : wholeDigits? cs = some (digitsValue cs) := by
  rw [wholeDigits?, if_pos]
  simpa [hne] using h

theorem isDigit_toDigits (n : Nat) : ∀ c ∈ Nat.toDigits 10 n, c.isDigit = true := fun _ hc =>
  Nat.isDigit_of_mem_toDigits (by omega) (by omega) hc

theorem natural?_toDigits (n : Nat) {rest : List Char} (h : Stops Char.isDigit rest) :
    natural? (Nat.toDigits 10 n ++ rest) = some (n, rest) := by
  have hread : wholeDigits? (Nat.toDigits 10 n) = some n := by
    rw [wholeDigits?_of_digits Nat.toDigits_ne_nil (isDigit_toDigits n), digitsValue,
      Nat.ofDigitChars_ten_toDigits]
  rw [natural?, takeWhile_run (isDigit_toDigits n) h, dropWhile_run (isDigit_toDigits n) h, hread]
  rfl

theorem integer?_of_digit {c : Char} (hc : c.isDigit = true) (cs : List Char) :
    integer? (c :: cs) = mapped Int.ofNat natural? (c :: cs) := by
  rw [integer?]
  rintro _ h
  cases h
  cases hc

theorem integer?_toString (n : Int) {rest : List Char} (h : Stops Char.isDigit rest) :
    integer? ((toString n).toList ++ rest) = some (n, rest) := by
  cases n with
  | ofNat n =>
    show integer? (n.repr.toList ++ rest) = _
    have hread := natural?_toDigits n h
    rw [Nat.toList_repr]
    cases hcs : Nat.toDigits 10 n with
    | nil => exact absurd hcs Nat.toDigits_ne_nil
    | cons c cs =>
      have hc : c.isDigit = true := isDigit_toDigits n c (by rw [hcs]; exact List.mem_cons_self)
      rw [hcs] at hread
      rw [List.cons_append, integer?_of_digit hc]
      exact mapped_of_read hread
  | negSucc n =>
    show integer? (("-" ++ (n + 1).repr).toList ++ rest) = _
    rw [String.toList_append, Nat.toList_repr]
    exact mapped_of_read (f := fun n : Nat => -(n : Int)) (natural?_toDigits (n + 1) h)

theorem toString_ne_nil (n : Int) : (toString n).toList ≠ [] := by
  cases n with
  | ofNat n =>
    show n.repr.toList ≠ []
    rw [Nat.toList_repr]
    exact Nat.toDigits_ne_nil
  | negSucc n =>
    show ("-" ++ (n + 1).repr).toList ≠ []
    rw [String.toList_append]
    exact List.cons_ne_nil '-' _

theorem length_paddedDigits {width n : Nat} (hwidth : 0 < width) (h : n < 10 ^ width) :
    (paddedDigits width n).length = width := by
  have hle := (Nat.length_toDigits_le_iff (by decide : 1 < 10) hwidth).2 h
  rw [paddedDigits, List.length_append, List.length_replicate]
  omega

theorem digitsValue_paddedDigits (width n : Nat) : digitsValue (paddedDigits width n) = n := by
  rw [digitsValue, paddedDigits, Nat.ofDigitChars_append, Nat.ofDigitChars_replicate_zero,
    Nat.mul_zero, Nat.ofDigitChars_ten_toDigits]

theorem isDigit_paddedDigits (width n : Nat) : ∀ c ∈ paddedDigits width n, c.isDigit = true := by
  intro c hc
  rcases List.mem_append.1 hc with hzero | hdigit
  · rw [List.eq_of_mem_replicate hzero]
    rfl
  · exact isDigit_toDigits n c hdigit

theorem digits?_padded {width n : Nat} (hwidth : 0 < width) (h : n < 10 ^ width)
    (rest : List Char) :
    digits? width ((padded width n).toList ++ rest) = some (n, rest) := by
  have hlength := length_paddedDigits hwidth h
  have hne : paddedDigits width n ≠ [] := List.ne_nil_of_length_pos (by omega)
  rw [padded, String.toList_ofList, digits?, if_pos (by rw [List.length_append]; omega),
    List.take_left' hlength, List.drop_left' hlength,
    wholeDigits?_of_digits hne (isDigit_paddedDigits width n), digitsValue_paddedDigits]
  rfl

/-! ## Bytes -/

/-- Whether a character is a hexadecimal digit. -/
def isHex (c : Char) : Bool :=
  (hexValue? c).isSome

/-- The bytes of all hexadecimal digits after `0x`. -/
def binary? : Reader (List UInt8)
  | '0' :: 'x' :: cs =>
    (bytesOfHex? (cs.takeWhile isHex)).map fun bytes => (bytes, cs.dropWhile isHex)
  | _ => none

theorem hexValue?_upperHexDigit (d : Fin 16) : hexValue? (upperHexDigit d.val) = some d.val := by
  revert d
  decide

theorem bytesOfHex?_upperHexBytes (bytes : List UInt8) :
    bytesOfHex? (upperHexBytes bytes) = some bytes := by
  induction bytes with
  | nil => rfl
  | cons b bytes ih =>
    have hlt := b.toNat_lt
    have hhigh := hexValue?_upperHexDigit ⟨b.toNat / 16, by omega⟩
    have hlow := hexValue?_upperHexDigit ⟨b.toNat % 16, by omega⟩
    have hbyte : UInt8.ofNat (16 * (b.toNat / 16) + b.toNat % 16) = b := by
      rw [Nat.div_add_mod, UInt8.ofNat_toNat]
    show bytesOfHex? (upperHexDigit (b.toNat / 16) :: upperHexDigit (b.toNat % 16) ::
      upperHexBytes bytes) = _
    rw [bytesOfHex?, hhigh, hlow, ih]
    exact congrArg (fun first => some (first :: bytes)) hbyte

theorem isHex_upperHexBytes (bytes : List UInt8) : ∀ c ∈ upperHexBytes bytes, isHex c = true := by
  have hdigit {n : Nat} (h : n < 16) : isHex (upperHexDigit n) = true := by
    rw [isHex, hexValue?_upperHexDigit ⟨n, h⟩]
    rfl
  intro c hc
  obtain ⟨b, -, hb⟩ := List.mem_flatMap.1 hc
  have hlt := b.toNat_lt
  rcases List.mem_pair.1 hb with rfl | rfl
  · exact hdigit (by omega)
  · exact hdigit (by omega)

theorem binary?_upperHexBytes (bytes : List UInt8) {rest : List Char} (h : Stops isHex rest) :
    binary? ('0' :: 'x' :: (upperHexBytes bytes ++ rest)) = some (bytes, rest) := by
  rw [binary?, takeWhile_run (isHex_upperHexBytes bytes) h,
    dropWhile_run (isHex_upperHexBytes bytes) h, bytesOfHex?_upperHexBytes]
  rfl

/-! ## Strings -/

/-- Whether a character after the closing apostrophe goes on with a string. -/
def isApostrophe (c : Char) : Bool :=
  c == '\''

/-- What a string literal holds, from the character after its opening apostrophe on. -/
def body? : Reader (List Char)
  | [] => none
  | '\'' :: '\'' :: cs => (body? cs).map fun (held, rest) => ('\'' :: held, rest)
  | '\'' :: cs => some ([], cs)
  | c :: cs => (body? cs).map fun (held, rest) => (c :: held, rest)

/-- A string literal. -/
def string? : Reader String
  | '\'' :: cs => mapped String.ofList body? cs
  | _ => none

/-- A value that is converted from all of what a string literal holds. -/
def converted? {α : Type} (convert : String → Option α) : Reader α := fun cs => do
  let (held, rest) ← string? cs
  let a ← convert held
  return (a, rest)

theorem body?_doubled (cs : List Char) {rest : List Char} (h : Stops isApostrophe rest) :
    body? (doubled '\'' cs ++ '\'' :: rest) = some (cs, rest) := by
  induction cs with
  | nil =>
    show body? ('\'' :: rest) = some ([], rest)
    cases rest with
    | nil => rfl
    | cons c rest =>
      have hc : c ≠ '\'' := by
        have hstop := h c rfl
        simpa [isApostrophe] using hstop
      rw [body?]
      exact fun _ heq => hc (List.cons.inj heq).1
  | cons c cs ih =>
    by_cases hc : c = '\''
    · rw [doubled, if_pos hc, List.cons_append, List.cons_append, body?, ih, hc]
      rfl
    · rw [doubled, if_neg hc, List.cons_append, body?, ih]
      · rfl
      · exact fun _ heq => absurd heq hc
      · exact hc

theorem string?_quoted (s : String) {rest : List Char} (h : Stops isApostrophe rest) :
    string? ((quoted s).toList ++ rest) = some (s, rest) := by
  have hread := mapped_of_read (f := String.ofList) (body?_doubled s.toList h)
  rw [String.ofList_toList] at hread
  rw [quoted, enclosed, String.toList_ofList, List.cons_append, string?, List.append_assoc]
  exact hread

theorem converted?_quoted {α : Type} {convert : String → Option α} {s : String} {a : α}
    (hs : convert s = some a) {rest : List Char} (h : Stops isApostrophe rest) :
    converted? convert ((quoted s).toList ++ rest) = some (a, rest) := by
  simp [converted?, string?_quoted s h, hs]

/-! ## Dates and times of day -/

/-- What follows one expected character. -/
def after? (expected : Char) : List Char → Option (List Char)
  | c :: cs => if c = expected then some cs else none
  | [] => none

/-- A date in digits: four for the year, two for the month and the day. -/
def date? : Reader Date := fun cs => do
  let (year, cs) ← digits? 4 cs
  let cs ← after? '-' cs
  let (month, cs) ← digits? 2 cs
  let cs ← after? '-' cs
  let (day, cs) ← digits? 2 cs
  let d ← Date.ofFields? year month day
  return (d, cs)

/-- A time of day with three decimals. -/
def clock? : Reader ClockTime := fun cs => do
  let (hour, cs) ← digits? 2 cs
  let cs ← after? ':' cs
  let (minute, cs) ← digits? 2 cs
  let cs ← after? ':' cs
  let (second, cs) ← digits? 2 cs
  let cs ← after? '.' cs
  let (milliseconds, cs) ← digits? 3 cs
  let t ← ClockTime.ofFields? hour minute second (milliseconds * 1000000)
  return (t, cs)

/-- A date and a time of day with a blank between them. -/
def dateTime? : Reader DateTime := fun cs => do
  let (date, cs) ← date? cs
  let cs ← after? ' ' cs
  let (time, cs) ← clock? cs
  return (⟨date, time⟩, cs)

/-- Reads a whole string. -/
def whole? {α : Type} (read? : Reader α) (s : String) : Option α :=
  match read? s.toList with
  | some (a, []) => some a
  | _ => none

theorem after?_cons (c : Char) (cs : List Char) : after? c (c :: cs) = some cs :=
  if_pos rfl

theorem whole?_of_read {α : Type} {read? : Reader α} {s : String} {a : α}
    (h : ∀ rest, read? (s.toList ++ rest) = some (a, rest)) : whole? read? s = some a := by
  have hread := h []
  rw [List.append_nil] at hread
  rw [whole?, hread]

/-- No month has more than 31 days, and only the twelve months have any. -/
theorem daysInMonth_bounds (year : Int) (month : Nat) :
    daysInMonth year month ≤ 31 ∧ (1 ≤ daysInMonth year month → month < 13) := by
  unfold daysInMonth
  split <;> first | omega | (split <;> omega)

theorem ofFields?_date (d : Date) : Date.ofFields? d.year d.month d.day = some d :=
  dif_pos ⟨d.one_le_day, d.day_le⟩

theorem date?_text (d : Date) (hfrom : 0 ≤ d.year) (hto : d.year ≤ 9999) (rest : List Char) :
    date? (d.text.toList ++ rest) = some (d, rest) := by
  have hyear : (d.year.natAbs : Int) = d.year := Int.natAbs_of_nonneg hfrom
  have hone := d.one_le_day
  have hday := d.day_le
  obtain ⟨hdays, hmonth⟩ := daysInMonth_bounds d.year d.month
  have hhyphen : "-".toList = ['-'] := rfl
  rw [Date.text, yearText, if_neg (by omega), if_pos hto]
  simp only [String.toList_append, List.append_assoc, hhyphen, List.cons_append,
    List.nil_append]
  simp only [date?, digits?_padded (by decide : 0 < 4) (by omega : d.year.natAbs < 10 ^ 4),
    digits?_padded (by decide : 0 < 2) (by omega : d.month < 10 ^ 2),
    digits?_padded (by decide : 0 < 2) (by omega : d.day < 10 ^ 2), after?_cons,
    Option.bind_eq_bind, Option.bind_some, hyear, ofFields?_date]
  rfl

end SqlWright.Literal

namespace SqlWright

open Literal

/-- The time cut to whole milliseconds. -/
def ClockTime.cut (t : ClockTime) : ClockTime :=
  { t with
    nanosecond := t.nanosecond / 1000000 * 1000000
    nanosecond_lt := by
      have h := t.nanosecond_lt
      omega }

/-- The date and time cut to whole milliseconds. -/
def DateTime.cut (t : DateTime) : DateTime :=
  { t with time := t.time.cut }

namespace Literal

theorem clock?_toMillisecond (t : ClockTime) (hleap : t.nanosecond < 1000000000)
    (rest : List Char) : clock? (t.toMillisecond.toList ++ rest) = some (t.cut, rest) := by
  have hhour := t.hour_lt
  have hminute := t.minute_lt
  have hsecond := t.second_lt
  have hshown : t.shownSecond = t.second := by
    rw [ClockTime.shownSecond, Nat.div_eq_of_lt hleap, Nat.add_zero]
  have hfraction : t.fraction = t.nanosecond := Nat.mod_eq_of_lt hleap
  have hcut : ClockTime.ofFields? t.hour t.minute t.second (t.nanosecond / 1000000 * 1000000) =
      some t.cut :=
    dif_pos ⟨hhour, hminute, hsecond, t.cut.nanosecond_lt⟩
  have hcolon : ":".toList = [':'] := rfl
  have hpoint : ".".toList = ['.'] := rfl
  rw [ClockTime.toMillisecond, ClockTime.toSecond, hshown, hfraction]
  simp only [String.toList_append, List.append_assoc, hcolon, hpoint,
    List.cons_append, List.nil_append]
  simp only [clock?, digits?_padded (by decide : 0 < 2) (by omega : t.hour < 10 ^ 2),
    digits?_padded (by decide : 0 < 2) (by omega : t.minute < 10 ^ 2),
    digits?_padded (by decide : 0 < 2) (by omega : t.second < 10 ^ 2),
    digits?_padded (by decide : 0 < 3) (by omega : t.nanosecond / 1000000 < 10 ^ 3), after?_cons,
    Option.bind_eq_bind, Option.bind_some, hcut]
  rfl

theorem dateTime?_literalText (t : DateTime) (hfrom : 0 ≤ t.date.year) (hto : t.date.year ≤ 9999)
    (hleap : t.time.nanosecond < 1000000000) (rest : List Char) :
    dateTime? (t.literalText.toList ++ rest) = some (t.cut, rest) := by
  have hblank : " ".toList = [' '] := rfl
  rw [DateTime.literalText]
  simp only [String.toList_append, List.append_assoc, hblank, List.cons_append,
    List.nil_append]
  simp only [dateTime?, date?_text t.date hfrom hto, after?_cons,
    clock?_toMillisecond t.time hleap, Option.bind_eq_bind, Option.bind_some]
  rfl

end Literal

/-! ## Identifiers -/

namespace Guid

theorem digit?_lowerHexDigit (d : Fin 16) : digit? (Text.lowerHexDigit d.val) = some d := by
  revert d
  decide

theorem mapM_digit? (ds : List (Fin 16)) :
    (ds.map fun d => Text.lowerHexDigit d.val).mapM digit? = some ds := by
  induction ds with
  | nil => rfl
  | cons d ds ih => simp [List.mapM_cons, digit?_lowerHexDigit, ih]

/-- Groups that take up all digits are read back. -/
theorem ungrouped?_grouped {ns : List Nat} (hne : ns ≠ []) {ds : List (Fin 16)}
    (h : ds.length = ns.sum) :
    ungrouped? ns (grouped ns (ds.map fun d => Text.lowerHexDigit d.val)) = some ds := by
  induction ns generalizing ds with
  | nil => exact absurd rfl hne
  | cons n ns ih =>
    cases ns with
    | nil =>
      rw [grouped, ungrouped?, List.length_map, if_pos (by simpa using h), mapM_digit?]
    | cons m ns =>
      rw [List.sum_cons] at h
      have hfirst : ((ds.map fun d => Text.lowerHexDigit d.val).take n).length = n := by
        rw [List.length_take, List.length_map]
        omega
      have hlength : (ds.drop n).length = (m :: ns).sum := by
        rw [List.length_drop]
        omega
      have hrest := ih (List.cons_ne_nil m ns) hlength
      rw [grouped, ungrouped?, List.take_left' hfirst, List.drop_left' hfirst, ← List.map_take,
        mapM_digit?, ← List.map_drop]
      simp only [Option.bind_eq_bind, Option.bind_some, hrest]
      exact congrArg some (List.take_append_drop n ds)
      all_goals exact List.cons_ne_nil m ns

theorem ofText?_text (g : Guid) : ofText? g.text = some g := by
  rw [ofText?, text, String.toList_ofList,
    ungrouped?_grouped (by decide) (g.length_digits.trans (by decide))]
  exact dif_pos g.length_digits

end Guid

end SqlWright
