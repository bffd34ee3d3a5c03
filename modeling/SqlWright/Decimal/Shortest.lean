import SqlWright.Decimal.Binary

/-!
# Shortest decimals

A double is written with the fewest digits that are read back to it; of the decimals with that many
digits the one nearest to the double is taken. The search runs over the decimal grids from coarse to
fine and compares whole numbers only. That seventeen digits always suffice is not used: the search
may go down to the grid on which the double itself lies.
-/

namespace SqlWright.Decimal

/-- Which way a double goes that lies halfway between two decimals of the same length. -/
inductive Tie where
  | away
  | toEven
deriving DecidableEq, Repr

/-- A decimal number `coefficient · 10 ^ power`. -/
structure Scientific where
  coefficient : Nat
  power : Int
deriving DecidableEq, Repr

/-- The numbers that are rounded to one double: a centre and two ends, counted in steps of
`2 ^ exponent`, and whether the ends belong to them. -/
structure Basin where
  centre : Nat
  lower : Nat
  upper : Nat
  closed : Bool
  exponent : Int

/-- The basin of a positive finite double. Below a power of two the neighbour is half as far away
as above it; the ends belong to the basin when the mantissa is even. -/
def basin (x : Float) : Basin :=
  let b := magnitude x
  let narrow := fractionField x == 0 && 1 < exponentField x
  { centre := 4 * b.mantissa
    lower := if narrow then 4 * b.mantissa - 1 else 4 * b.mantissa - 2
    upper := 4 * b.mantissa + 2
    closed := b.mantissa % 2 == 0
    exponent := b.exponent - 2 }

namespace Basin

/-- The factor that brings a multiple of `10 ^ power` to the common scale. -/
def tens (b : Basin) (power : Int) : Nat :=
  Nat.pow 10 power.toNat * Nat.pow 2 (-b.exponent).toNat

/-- The factor that brings a count of steps to the common scale. -/
def twos (b : Basin) (power : Int) : Nat :=
  Nat.pow 2 b.exponent.toNat * Nat.pow 10 (-power).toNat

/-- Whether `c · 10 ^ power` is rounded to the double of the basin. -/
def contains (b : Basin) (c : Nat) (power : Int) : Bool :=
  let x := c * b.tens power
  let low := b.lower * b.twos power
  let high := b.upper * b.twos power
  if b.closed then low ≤ x && x ≤ high else low < x && x < high

/-- Of the multiples `c` and `c + 1` of `10 ^ power` around the centre, the one that is taken when
both lie in the basin. -/
def nearer (b : Basin) (tie : Tie) (c : Nat) (power : Int) : Nat :=
  match compare (2 * b.centre * b.twos power) ((2 * c + 1) * b.tens power) with
  | .lt => c
  | .gt => c + 1
  | .eq =>
    match tie with
    | .away => c + 1
    | .toEven => if c % 2 = 0 then c else c + 1

/-- The multiple of `10 ^ power` chosen for the basin, if one lies in it. -/
def onGrid? (b : Basin) (tie : Tie) (power : Int) : Option Nat :=
  let c := b.centre * b.twos power / b.tens power
  match b.contains c power, b.contains (c + 1) power with
  | true, true => some (b.nearer tie c power)
  | true, false => some c
  | false, true => some (c + 1)
  | false, false => none

/-- The centre itself as a decimal. -/
def exact (b : Basin) : Scientific :=
  ⟨b.centre * Nat.pow 2 b.exponent.toNat * Nat.pow 5 (-b.exponent).toNat, min b.exponent 0⟩

/-- The first hit on the grids `power`, `power - 1`, and so on for `count` grids. -/
def search (b : Basin) (tie : Tie) : Nat → Int → Scientific
  | 0, _ => b.exact
  | count + 1, power =>
    match b.onGrid? tie power with
    | some c => ⟨c, power⟩
    | none => b.search tie count (power - 1)

/-- A power of ten above every number of the basin. -/
def ceiling (b : Basin) : Int :=
  ((Nat.log2 b.upper : Int) + 1 + b.exponent) * 30103 / 100000 + 1

/-- The shortest decimal of the basin. -/
def shortest (b : Basin) (tie : Tie) : Scientific :=
  b.search tie (b.ceiling - min b.exponent 0 + 1).toNat b.ceiling

end Basin

/-- The shortest decimal of the magnitude of a finite double. -/
def shortest (tie : Tie) (x : Float) : Scientific :=
  if (magnitude x).mantissa = 0 then ⟨0, 0⟩ else (basin x).shortest tie

end SqlWright.Decimal
