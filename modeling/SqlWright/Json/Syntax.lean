import SqlWright.Json.Value
import SqlWright.Decimal.Binary
import SqlWright.Text.Hex

/-!
# Reading JSON

A text is first read to a syntax tree, which keeps numbers and escapes as they were written and the
members of objects in their order. A syntax tree is then turned into a value; that step refuses
unpaired surrogates, numbers beyond the range of a double and deep nesting. A reader that skips a
part of a document therefore checks only its syntax. Positions and texts of syntax errors are not
kept.
-/

namespace SqlWright.Json

open Decimal

/-- A piece of a string: a character, or a code unit written as four hexadecimal digits. -/
inductive Piece where
  | char (c : Char)
  | unit (code : Nat)

/-- A number as it was written. -/
structure Numeral where
  negative : Bool
  whole : List Char
  decimals : List Char
  /-- The sign and the digits of the exponent. -/
  exponent : Option (Bool × List Char)
  /-- Whether a point was written. -/
  pointed : Bool

/-- The syntax tree of a document. -/
inductive Node where
  | null
  | bool (b : Bool)
  | number (n : Numeral)
  | string (pieces : List Piece)
  | array (items : List Node)
  | object (members : List (List Piece × Node))

/-! ## Text to syntax tree -/

/-- The blanks that may stand between the parts of a document. -/
def isSpace (c : Char) : Bool :=
  c == ' ' || c == '\n' || c == '\t' || c == '\r'

/-- A text without the blanks at its front. -/
def skipSpace (cs : List Char) : List Char :=
  cs.dropWhile isSpace

/-- The piece after a backslash other than a code unit. -/
def simpleEscape? : Char → Option Char
  | '"' => some '"'
  | '\\' => some '\\'
  | '/' => some '/'
  | 'b' => some (Char.ofNat 8)
  | 'f' => some (Char.ofNat 12)
  | 'n' => some '\n'
  | 'r' => some '\r'
  | 't' => some '\t'
  | _ => none

/-- A code unit of four hexadecimal digits. -/
def codeUnit? (a b c d : Char) : Option Nat := do
  let a ← Text.hexValue? a
  let b ← Text.hexValue? b
  let c ← Text.hexValue? c
  let d ← Text.hexValue? d
  return ((a * 16 + b) * 16 + c) * 16 + d

/-- The pieces of a string up to its closing quote, and what follows the quote. -/
def pieces? : List Char → Option (List Piece × List Char)
  | [] => none
  | '"' :: rest => some ([], rest)
  | '\\' :: 'u' :: a :: b :: c :: d :: rest => do
    let code ← codeUnit? a b c d
    let (ps, tail) ← pieces? rest
    return (.unit code :: ps, tail)
  | '\\' :: e :: rest => do
    let ch ← simpleEscape? e
    let (ps, tail) ← pieces? rest
    return (.char ch :: ps, tail)
  | ch :: rest => do
    if ch.toNat < 0x20 then none
    let (ps, tail) ← pieces? rest
    return (.char ch :: ps, tail)

/-- The digits at the front of a text and what follows them. -/
def spanDigits (cs : List Char) : List Char × List Char :=
  (cs.takeWhile Char.isDigit, cs.dropWhile Char.isDigit)

/-- The exponent at the front of a text, if there is one. -/
def exponentPart? (cs : List Char) : Option (Option (Bool × List Char) × List Char) :=
  match cs with
  | c :: rest =>
    if c = 'e' ∨ c = 'E' then
      let (negative, rest) :=
        match rest with
        | '+' :: more => (false, more)
        | '-' :: more => (true, more)
        | _ => (false, rest)
      let (digits, tail) := spanDigits rest
      if digits.isEmpty then none else some (some (negative, digits), tail)
    else some (none, cs)
  | [] => some (none, cs)

/-- The decimals at the front of a text: nothing, or a point and at least one digit. -/
def decimalPart? (cs : List Char) : Option (Bool × List Char × List Char) :=
  match cs with
  | '.' :: rest =>
    let (digits, tail) := spanDigits rest
    if digits.isEmpty then none else some (true, digits, tail)
  | _ => some (false, [], cs)

/-- A number without its minus sign. A leading zero stands alone. -/
def numeral? (negative : Bool) (cs : List Char) : Option (Numeral × List Char) := do
  let (whole, rest) := spanDigits cs
  match whole with
  | [] => none
  | '0' :: _ :: _ => none
  | _ =>
    let (pointed, decimals, rest) ← decimalPart? rest
    let (exponent, rest) ← exponentPart? rest
    return (⟨negative, whole, decimals, exponent, pointed⟩, rest)

mutual
/-- The value at the front of a text. The count bounds the number of nested steps; twice the length
of the text suffices, since no two steps in a row read nothing. -/
def node? : Nat → List Char → Option (Node × List Char)
  | 0, _ => none
  | fuel + 1, cs =>
    match skipSpace cs with
    | 'n' :: 'u' :: 'l' :: 'l' :: rest => some (.null, rest)
    | 't' :: 'r' :: 'u' :: 'e' :: rest => some (.bool true, rest)
    | 'f' :: 'a' :: 'l' :: 's' :: 'e' :: rest => some (.bool false, rest)
    | '"' :: rest => (pieces? rest).map fun (ps, tail) => (.string ps, tail)
    | '[' :: rest =>
      match skipSpace rest with
      | ']' :: tail => some (.array [], tail)
      | rest => (items? fuel rest).map fun (ns, tail) => (.array ns, tail)
    | '\x7b' :: rest =>
      match skipSpace rest with
      | '\x7d' :: tail => some (.object [], tail)
      | rest => (members? fuel rest).map fun (ms, tail) => (.object ms, tail)
    | '-' :: rest => (numeral? true rest).map fun (n, tail) => (.number n, tail)
    | rest => (numeral? false rest).map fun (n, tail) => (.number n, tail)

/-- One or more items of an array and its closing bracket. -/
def items? : Nat → List Char → Option (List Node × List Char)
  | 0, _ => none
  | fuel + 1, cs => do
    let (n, rest) ← node? fuel cs
    match skipSpace rest with
    | ']' :: tail => return ([n], tail)
    | ',' :: rest =>
      let (ns, tail) ← items? fuel rest
      return (n :: ns, tail)
    | _ => none

/-- One or more members of an object and its closing brace. -/
def members? : Nat → List Char → Option (List (List Piece × Node) × List Char)
  | 0, _ => none
  | fuel + 1, cs => do
    match skipSpace cs with
    | '"' :: rest =>
      let (name, rest) ← pieces? rest
      match skipSpace rest with
      | ':' :: rest =>
        let (n, rest) ← node? fuel rest
        match skipSpace rest with
        | '\x7d' :: tail => return ([(name, n)], tail)
        | ',' :: rest =>
          let (ms, tail) ← members? fuel rest
          return ((name, n) :: ms, tail)
        | _ => none
      | _ => none
    | _ => none
end

/-- The syntax tree of a whole document; only blanks may follow it. -/
def Node.ofText? (s : String) : Option Node :=
  match node? (2 * s.length + 1) s.toList with
  | some (n, rest) => if (skipSpace rest).isEmpty then some n else none
  | none => none

/-! ## Syntax tree to value -/

/-- The characters of a string. Two code units that form a surrogate pair are one character; any
other surrogate is refused. -/
def characters? : List Piece → Option (List Char)
  | [] => some []
  | .char c :: rest => (characters? rest).map (c :: ·)
  | .unit high :: rest =>
    if 0xD800 ≤ high ∧ high ≤ 0xDBFF then
      match rest with
      | .unit low :: rest =>
        if 0xDC00 ≤ low ∧ low ≤ 0xDFFF then
          (characters? rest).map
            (Char.ofNat (0x10000 + (high - 0xD800) * 0x400 + (low - 0xDC00)) :: ·)
        else none
      | _ => none
    else if 0xDC00 ≤ high ∧ high ≤ 0xDFFF then none
    else (characters? rest).map (Char.ofNat high :: ·)

/-- The text of a string node. -/
def textOf? (ps : List Piece) : Option String :=
  (characters? ps).map String.ofList

/-- The largest whole number of a significand. -/
def maxSignificand : Nat := Nat.pow 2 64 - 1

/-- A number read so far: its significand and the power of ten that belongs to it. -/
structure Scaled where
  significand : Nat
  power : Int

/-- Reads the digits before the point. The first digit that no longer fits and all after it only
raise the power. -/
def takeWhole (n : Scaled) : List Char → Scaled
  | [] => n
  | c :: cs =>
    let next := n.significand * 10 + (c.toNat - 48)
    if next ≤ maxSignificand then takeWhole { n with significand := next } cs
    else { n with power := n.power + (cs.length + 1 : Nat) }

/-- Reads the digits after the point, as long as they fit; the others are dropped. -/
def takeDecimals (n : Scaled) : List Char → Scaled
  | [] => n
  | c :: cs =>
    let next := n.significand * 10 + (c.toNat - 48)
    if next ≤ maxSignificand then takeDecimals ⟨next, n.power - 1⟩ cs else n

/-- A double times a power of ten, as one multiplication or division by the nearest double of that
power. Very small powers take several divisions; a result beyond the largest double is refused. -/
def scaleFloat? : Nat → Float → Int → Option Float
  | 0, x, _ => some x
  | steps + 1, x, power =>
    if power.natAbs ≤ 308 then
      let ten := nearestDouble false (Nat.pow 10 power.natAbs) 1
      let y := if 0 ≤ power then x * ten else x / ten
      if isFinite y then some y else none
    else if x == 0 then some x
    else if 0 ≤ power then none
    else scaleFloat? steps (x / nearestDouble false (Nat.pow 10 308) 1) (power + 308)

/-- The largest exponent that is read digit by digit. -/
def maxExponent : Nat := Nat.pow 2 31 - 1

/-- A double with a minus sign if asked for. -/
def withSign (negative : Bool) (x : Float) : Float :=
  if negative then -x else x

/-- The double of a significand and a power. -/
def floatOf? (negative : Bool) (n : Scaled) : Option Json :=
  (scaleFloat? 8 (nearestDouble false n.significand 1) n.power).map fun x =>
    .float (withSign negative x)

/-- A fraction, or a whole number with an exponent. -/
def fraction? (n : Numeral) (scaled : Scaled) : Option Json :=
  match n.exponent with
  | none => floatOf? n.negative scaled
  | some (negativeExponent, digits) =>
    let e := Nat.ofDigitChars 10 digits 0
    if maxExponent < e then
      if scaled.significand ≠ 0 ∧ !negativeExponent then none
      else some (.float (withSign n.negative 0))
    else
      floatOf? n.negative
        { scaled with
          power := if negativeExponent then scaled.power - (e : Nat) else scaled.power + (e : Nat) }

/-- The value of a number: a whole number if it is written as one and fits into 64 bits with or
without a sign, else a double. -/
def Numeral.value? (n : Numeral) : Option Json :=
  let scaled := takeDecimals (takeWhole ⟨0, 0⟩ n.whole) n.decimals
  if n.pointed || n.exponent.isSome || scaled.power ≠ 0 then fraction? n scaled
  else if !n.negative then some (.int scaled.significand)
  else if scaled.significand = 0 ∨ Nat.pow 2 63 < scaled.significand then
    some (.float (withSign true (nearestDouble false scaled.significand 1)))
  else some (.int (-(scaled.significand : Int)))

mutual
/-- The value of a syntax tree whose containers are nested at most `depth` deep. -/
def Node.value? (depth : Nat) : Node → Option Json
  | .null => some .null
  | .bool b => some (.bool b)
  | .number n => n.value?
  | .string ps => (textOf? ps).map .string
  | .array items =>
    match depth with
    | 0 => none
    | d + 1 => (itemValues? d items).map .array
  | .object members =>
    match depth with
    | 0 => none
    | d + 1 => (memberValues? d [] members).map .object

/-- The values of the items of an array. -/
def itemValues? (depth : Nat) : List Node → Option (List Json)
  | [] => some []
  | n :: rest => do
    let j ← n.value? depth
    let js ← itemValues? depth rest
    return j :: js

/-- The members of an object added to those read before; of two with one name the later stays. -/
def memberValues? (depth : Nat) (done : List (String × Json)) :
    List (List Piece × Node) → Option (List (String × Json))
  | [] => some done
  | (name, n) :: rest => do
    let key ← textOf? name
    let j ← n.value? depth
    memberValues? depth (put key j done) rest
end

/-- The deepest nesting of containers that is read. -/
def maxDepth : Nat := 127

/-- Reads a whole document. -/
def ofText? (s : String) : Option Json :=
  (Node.ofText? s).bind (Node.value? maxDepth)

end SqlWright.Json
