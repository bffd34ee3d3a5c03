/-!
# Decimal digits

Whole numbers with a least width, and numbers with a fixed count of decimals. Shortest digits of
binary fractions are treated in a module of their own.
-/

namespace SqlWright.Decimal

/-- The digits of `n`, filled up with zeros at the front to at least `width` digits. -/
def paddedDigits (width n : Nat) : List Char :=
  let digits := Nat.toDigits 10 n
  List.replicate (width - digits.length) '0' ++ digits

/-- `paddedDigits` as a string. -/
def padded (width n : Nat) : String :=
  String.ofList (paddedDigits width n)

/-- A decimal number `mantissa / 10 ^ scale` that remembers its scale, so that `1.5` and `1.50`
are two values. -/
structure Fixed where
  mantissa : Int
  scale : Nat
deriving DecidableEq, Repr

/-- The number with exactly `scale` decimals. -/
def Fixed.text (d : Fixed) : String :=
  let digits := paddedDigits (d.scale + 1) d.mantissa.natAbs
  let whole := digits.take (digits.length - d.scale)
  let decimals := digits.drop (digits.length - d.scale)
  let sign := if d.mantissa < 0 then "-" else ""
  if d.scale = 0 then sign ++ String.ofList digits
  else sign ++ String.ofList (whole ++ '.' :: decimals)

end SqlWright.Decimal
