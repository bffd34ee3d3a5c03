import SqlWright.Decimal.Shortest

/-!
# Layout of shortest decimals

How the digits of a double are set out: positionally or with an exponent. The decisions of one
output format are one `Style`; the styles themselves stand where those formats are written.
-/

namespace SqlWright.Decimal

/-- The decisions of an output format for finite doubles. -/
structure Style where
  /-- Which way a tie between two shortest decimals goes. -/
  tie : Tie
  /-- The smallest exponent of the leading digit that is written positionally; `none` is no limit. -/
  plainFrom : Option Int
  /-- The largest exponent of the leading digit that is written positionally; `none` is no limit. -/
  plainUpTo : Option Int
  /-- Whether a whole number written positionally ends in `.0`. -/
  pointZero : Bool
  /-- Whether a positive exponent carries a plus sign. -/
  exponentPlus : Bool

/-- The exponent of the leading digit. -/
def Scientific.leading (d : Scientific) : Int :=
  (Nat.toDigits 10 d.coefficient).length + d.power - 1

/-- Whether a number with this exponent of the leading digit is written positionally. -/
def Style.isPlain (s : Style) (leading : Int) : Bool :=
  (s.plainFrom.all fun low => low ≤ leading) && (s.plainUpTo.all fun high => leading ≤ high)

/-- The digits with a decimal point where it belongs. -/
def Style.positional (s : Style) (d : Scientific) : List Char :=
  let digits := Nat.toDigits 10 d.coefficient
  let point := (digits.length : Int) + d.power
  if 0 ≤ d.power then
    digits ++ List.replicate d.power.toNat '0' ++ (if s.pointZero then ['.', '0'] else [])
  else if 0 < point then
    digits.take point.toNat ++ '.' :: digits.drop point.toNat
  else
    ['0', '.'] ++ List.replicate (-point).toNat '0' ++ digits

/-- The leading digit, the others after a point, and the exponent. -/
def Style.exponential (s : Style) (d : Scientific) : List Char :=
  let digits := Nat.toDigits 10 d.coefficient
  let tail := digits.drop 1
  let e := d.leading
  let sign := if e < 0 then ['-'] else if s.exponentPlus then ['+'] else []
  digits.take 1 ++ (if tail.isEmpty then [] else '.' :: tail) ++ 'e' :: sign ++
    Nat.toDigits 10 e.natAbs

/-- The digits of a magnitude in this style. Zero is written positionally. -/
def Style.digits (s : Style) (d : Scientific) : List Char :=
  if d.coefficient = 0 || s.isPlain d.leading then s.positional d else s.exponential d

/-- A finite double in this style; a set sign bit gives a minus sign, also for zero. -/
def Style.finite (s : Style) (x : Float) : String :=
  let digits := s.digits (shortest s.tie x)
  String.ofList (if signBit x then '-' :: digits else digits)

end SqlWright.Decimal
