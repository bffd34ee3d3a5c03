/-!
# White space

The twenty-five characters that carry the Unicode property `White_Space`, and the two cuts built
on it. Only this property is read; letters, digits and case are not treated here.
-/

namespace SqlWright.Text

/-- The characters with the Unicode property `White_Space`. -/
def isBlank (c : Char) : Bool :=
  let n := c.toNat
  (9 ≤ n && n ≤ 13) || n == 0x20 || n == 0x85 || n == 0xA0 || n == 0x1680 ||
    (0x2000 ≤ n && n ≤ 0x200A) || n == 0x2028 || n == 0x2029 || n == 0x202F || n == 0x205F ||
    n == 0x3000

/-- A text without the blanks at its front. -/
def trimFront (cs : List Char) : List Char :=
  cs.dropWhile isBlank

/-- A text without the blanks at its back. -/
def trimBack (cs : List Char) : List Char :=
  (trimFront cs.reverse).reverse

/-- A text without the blanks at either end; blanks inside it stay. -/
def trim (s : String) : String :=
  String.ofList (trimBack (trimFront s.toList))

end SqlWright.Text
