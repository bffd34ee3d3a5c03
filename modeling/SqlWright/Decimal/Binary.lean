/-!
# Binary fractions

The numbers `mantissa · 2 ^ exponent` of the two interchange formats with 53 and 24 significant
bits, the rounding of a quotient to the nearest of them, and the bits of the wider format. All
arithmetic is exact; an overflow is a value of its own and no infinity is produced silently.
-/

namespace SqlWright.Decimal

/-- A non-negative number `mantissa · 2 ^ exponent`. -/
structure Binary where
  mantissa : Nat
  exponent : Int
deriving DecidableEq, Repr

/-- A binary format: its significant bits and the exponents of its smallest and largest unit. -/
structure Format where
  precision : Nat
  least : Int
  greatest : Int

/-- The format with 53 significant bits. -/
def Format.double : Format := ⟨53, -1074, 971⟩

/-- The format with 24 significant bits. -/
def Format.single : Format := ⟨24, -149, 104⟩

/-- The whole number nearest to `num / den`; a half goes to the even neighbour. -/
def roundHalfEven (num den : Nat) : Nat :=
  let below := num / den
  let rest := 2 * (num % den)
  if rest < den ∨ (rest = den ∧ below % 2 = 0) then below else below + 1

/-- `num / den` measured in units of `2 ^ e`, as a quotient. -/
def inUnits (num den : Nat) (e : Int) : Nat × Nat :=
  (num * Nat.pow 2 (-e).toNat, den * Nat.pow 2 e.toNat)

/-- The exponent of the unit in which a positive `num / den` is rounded. -/
def Format.unitOf (f : Format) (num den : Nat) : Int :=
  let guess : Int := (Nat.log2 num : Int) - (Nat.log2 den : Int) - (f.precision : Int)
  let (n, d) := inUnits num den guess
  max f.least (if n / d < Nat.pow 2 f.precision then guess else guess + 1)

/-- The number of the format nearest to `num / den`, or `none` beyond the largest one. -/
def Format.nearest? (f : Format) (num den : Nat) : Option Binary :=
  if num = 0 then some ⟨0, f.least⟩
  else
    let e := f.unitOf num den
    let (n, d) := inUnits num den e
    let m := roundHalfEven n d
    if f.greatest < e ∨ (f.greatest = e ∧ Nat.pow 2 f.precision ≤ m) then none else some ⟨m, e⟩

/-- `coefficient · 10 ^ power` as a quotient of whole numbers. -/
def tenfold (coefficient : Nat) (power : Int) : Nat × Nat :=
  (coefficient * Nat.pow 10 power.toNat, Nat.pow 10 (-power).toNat)

/-- The double of a magnitude and a sign; `none` stands for an infinite magnitude. -/
def toDouble (negative : Bool) (magnitude : Option Binary) : Float :=
  let bits :=
    match magnitude with
    | none => 2047 * Nat.pow 2 52
    | some b => (b.exponent - Format.double.least).toNat * Nat.pow 2 52 + b.mantissa
  Float.ofBits (UInt64.ofNat (if negative then Nat.pow 2 63 + bits else bits))

/-- The double nearest to a quotient. -/
def nearestDouble (negative : Bool) (num den : Nat) : Float :=
  toDouble negative (Format.double.nearest? num den)

/-- The number of 24 significant bits nearest to a quotient, widened to a double. -/
def nearestSingle (negative : Bool) (num den : Nat) : Float :=
  match Format.single.nearest? num den with
  | none => toDouble negative none
  | some b =>
    nearestDouble negative (b.mantissa * Nat.pow 2 b.exponent.toNat) (Nat.pow 2 (-b.exponent).toNat)

/-- Whether the sign bit of a double is set. -/
def signBit (x : Float) : Bool :=
  Nat.pow 2 63 ≤ x.toBits.toNat

/-- The biased exponent field of a double. -/
def exponentField (x : Float) : Nat :=
  x.toBits.toNat / Nat.pow 2 52 % Nat.pow 2 11

/-- The fraction field of a double. -/
def fractionField (x : Float) : Nat :=
  x.toBits.toNat % Nat.pow 2 52

/-- Whether a double is neither infinite nor a NaN. -/
def isFinite (x : Float) : Bool :=
  exponentField x != 2047

/-- Whether a double is a NaN. -/
def isNaN (x : Float) : Bool :=
  exponentField x == 2047 && fractionField x != 0

/-- The magnitude of a finite double. -/
def magnitude (x : Float) : Binary :=
  if exponentField x = 0 then ⟨fractionField x, Format.double.least⟩
  else ⟨Nat.pow 2 52 + fractionField x, (exponentField x : Int) - 1075⟩

end SqlWright.Decimal
