import SqlWright.Decimal.Binary

/-!
# Reading decimal numbers

A decimal text is read to a coefficient and a power of ten, or to one of the names of the special
values; the nearest double or single is then taken exactly. Underscores, blanks and hexadecimal
forms are refused.
-/

namespace SqlWright.Decimal

/-- What a decimal text denotes before it is rounded. -/
inductive Reading where
  | number (negative : Bool) (coefficient : Nat) (power : Int)
  | infinite (negative : Bool)
  | notANumber
deriving DecidableEq, Repr

/-- The value of a list of digits. -/
def digitsValue (digits : List Char) : Nat :=
  Nat.ofDigitChars 10 digits 0

/-- A text that consists of digits and of at least one. -/
def wholeDigits? (cs : List Char) : Option Nat :=
  if !cs.isEmpty && cs.all Char.isDigit then some (digitsValue cs) else none

/-- A whole number with an optional sign. -/
def signed? : List Char → Option Int
  | '-' :: cs => (wholeDigits? cs).map fun n => -(n : Int)
  | '+' :: cs => (wholeDigits? cs).map fun n => (n : Int)
  | cs => (wholeDigits? cs).map fun n => (n : Int)

/-- The power of ten named after the digits: nothing, or `e` and a signed number. -/
def exponent? : List Char → Option Int
  | [] => some 0
  | c :: cs => if c = 'e' ∨ c = 'E' then signed? cs else none

/-- A number without a sign. A point may stand before, inside or after the digits. -/
def unsigned? (negative : Bool) (cs : List Char) : Option Reading := do
  let whole := cs.takeWhile Char.isDigit
  let rest := cs.dropWhile Char.isDigit
  let (decimals, tail) :=
    match rest with
    | '.' :: after => (after.takeWhile Char.isDigit, after.dropWhile Char.isDigit)
    | _ => ([], rest)
  if whole.isEmpty && decimals.isEmpty then none
  let power ← exponent? tail
  return .number negative (digitsValue (whole ++ decimals)) (power - decimals.length)

/-- A decimal text without its sign; the names of the special values are read in either case. -/
def magnitude? (negative : Bool) (cs : List Char) : Option Reading :=
  let lower := cs.map Char.toLower
  if lower = "inf".toList || lower = "infinity".toList then some (.infinite negative)
  else if lower = "nan".toList then some .notANumber
  else unsigned? negative cs

/-- Reads a decimal text with an optional sign. -/
def read? (s : String) : Option Reading :=
  match s.toList with
  | '-' :: cs => magnitude? true cs
  | '+' :: cs => magnitude? false cs
  | cs => magnitude? false cs

/-- A coefficient and a power of ten as a quotient. Numbers far outside the range of a double are
cut down first: their rounding is the same and the quotient stays small. -/
def boundedQuotient (coefficient : Nat) (power : Int) : Nat × Nat :=
  let size := (Nat.toDigits 10 coefficient).length + power
  if coefficient = 0 then (0, 1)
  else if 400 < size then tenfold 1 400
  else if size < -400 then tenfold 1 (-400)
  else tenfold coefficient power

/-- A reading rounded by `round`, which gives the number nearest to a quotient. -/
def Reading.toFloat (round : Bool → Nat → Nat → Float) : Reading → Float
  | .number negative coefficient power =>
    let (num, den) := boundedQuotient coefficient power
    round negative num den
  | .infinite negative => toDouble negative none
  | .notANumber => Float.ofBits 0x7FF8000000000000

/-- The double nearest to a decimal text. -/
def double? (s : String) : Option Float :=
  (read? s).map (Reading.toFloat nearestDouble)

/-- The single nearest to a decimal text, widened to a double. -/
def single? (s : String) : Option Float :=
  (read? s).map (Reading.toFloat nearestSingle)

end SqlWright.Decimal
