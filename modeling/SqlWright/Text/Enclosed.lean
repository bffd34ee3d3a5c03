/-!
# Enclosed text

A text between an opening and a closing mark, in which every closing mark is written twice. String
literals use the same apostrophe on both sides, names use a pair of square brackets. The reader of
such texts is not defined here.
-/

namespace SqlWright.Text

/-- Writes `mark` twice and every other character once. -/
def doubled (mark : Char) : List Char → List Char
  | [] => []
  | c :: cs => if c = mark then mark :: mark :: doubled mark cs else c :: doubled mark cs

/-- A text between `opening` and `closing`, with every `closing` inside it doubled. -/
def enclosed (opening closing : Char) (s : String) : String :=
  String.ofList (opening :: (doubled closing s.toList ++ [closing]))

/-- The literal of a character string: apostrophes around it and doubled inside it. -/
def quoted (s : String) : String :=
  enclosed '\'' '\'' s

/-- The written form of a single name: square brackets around it, closing brackets doubled. -/
def bracketed (name : String) : String :=
  enclosed '[' ']' name

/-- Whether a text starts with an opening parenthesis. -/
def opensGroup (s : String) : Bool :=
  s.toList.head? == some '('

/-- A text in one pair of parentheses. -/
def parenthesized (s : String) : String :=
  "(" ++ s ++ ")"

/-- A text in parentheses unless it starts with one already. Only the first character decides, so
a text such as `(a) + (b)` stays as it is. -/
def grouped (s : String) : String :=
  if opensGroup s then s else parenthesized s

end SqlWright.Text
