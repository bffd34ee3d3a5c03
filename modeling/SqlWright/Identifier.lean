import SqlWright.Error
import SqlWright.Text.Enclosed

/-!
# Identifiers

Names of tables and schemas: parts with dots between them, each part either a regular name or any
text in square brackets. Written forms always bracket every part. An identifier made directly from
its parts is not checked.
-/

namespace SqlWright

/-- A name of one or more parts. -/
structure Identifier where
  parts : List String
deriving DecidableEq, Repr

namespace Identifier

/-- The characters that may start a regular name. -/
def isNameStart (c : Char) : Bool :=
  c == '_' || c == '@' || c == '#' || c.isAlpha

/-- The characters that may follow in a regular name. -/
def isNameRest (c : Char) : Bool :=
  c == '_' || c == '@' || c == '#' || c == '$' || c.isAlphanum

/-- The body of a bracketed part, with doubled closing brackets undone, and what follows its
closing bracket. -/
def body? : List Char → Option (List Char × List Char)
  | [] => none
  | ']' :: ']' :: rest => (body? rest).map fun (name, tail) => (']' :: name, tail)
  | ']' :: rest => some ([], rest)
  | c :: rest => (body? rest).map fun (name, tail) => (c :: name, tail)

theorem body?_length {cs name tail : List Char} (h : body? cs = some (name, tail)) :
    tail.length < cs.length := by
  fun_induction body? cs generalizing name tail with
  | case1 => simp at h
  | case2 rest ih =>
    obtain ⟨⟨n, t⟩, hb, he⟩ := Option.map_eq_some_iff.1 h
    have := ih hb
    simp only [Prod.mk.injEq] at he
    simp only [List.length_cons, ← he.2]
    omega
  | case3 rest =>
    simp only [Option.some.injEq, Prod.mk.injEq] at h
    simp [← h.2]
  | case4 c rest _ _ ih =>
    obtain ⟨⟨n, t⟩, hb, he⟩ := Option.map_eq_some_iff.1 h
    have := ih hb
    simp only [Prod.mk.injEq] at he
    simp only [List.length_cons, ← he.2]
    omega

/-- The first character of a regular name that does not fit at its place. -/
def misfit? : List Char → Option Char
  | [] => none
  | c :: rest => if isNameStart c then rest.find? fun d => !isNameRest d else some c

/-- The part at the front of a text and what follows it. A regular name ends before the next dot. -/
def segment (cs : List Char) : Except IdentifierFault (String × List Char) :=
  match cs with
  | '[' :: inside =>
    match body? inside with
    | none => .error .unclosedBracket
    | some ([], _) => .error .emptyBrackets
    | some (name, rest) => .ok (String.ofList name, rest)
  | _ =>
    let name := cs.takeWhile (· != '.')
    match misfit? name with
    | some c => .error (.invalidCharacter c)
    | none =>
      if name.isEmpty then .error .emptySegment
      else .ok (String.ofList name, cs.dropWhile (· != '.'))

theorem segment_length {cs rest : List Char} {name : String} (h : segment cs = .ok (name, rest)) :
    rest.length ≤ cs.length := by
  unfold segment at h
  split at h
  · rename_i inside
    split at h <;> simp only [Except.ok.injEq, Prod.mk.injEq, reduceCtorEq] at h
    rename_i hb
    have := body?_length hb
    simp only [List.length_cons, ← h.2]
    omega
  · simp only at h
    split at h
    · simp at h
    · split at h
      · simp at h
      · simp only [Except.ok.injEq, Prod.mk.injEq] at h
        rw [← h.2]
        exact (List.dropWhile_sublist _).length_le

/-- The parts of a text, read from left to right. -/
def segments (cs : List Char) : Except IdentifierFault (List String) :=
  match h : segment cs with
  | .error fault => .error fault
  | .ok (name, []) => .ok [name]
  | .ok (_, ['.']) => .error .trailingDot
  | .ok (name, '.' :: more) =>
    have : more.length < cs.length := by
      have := segment_length h
      simp only [List.length_cons] at this
      omega
    (segments more).map (name :: ·)
  | .ok (_, c :: _) => .error (.missingDot c)
termination_by cs.length

/-- Reads an identifier. The text must not be empty and must not contain the NUL character. -/
def parse (s : String) : Outcome Identifier :=
  if s.toList.isEmpty then .error (.misuse (.identifier .empty))
  else if s.toList.any (·.toNat == 0) then .error (.misuse (.identifier .nul))
  else
    match segments s.toList with
    | .ok parts => .ok ⟨parts⟩
    | .error fault => .error (.misuse (.identifier fault))

/-- The written form: every part in brackets, dots between the parts. -/
def text (i : Identifier) : String :=
  String.intercalate "." (i.parts.map Text.bracketed)

end Identifier

/-- A table that is named by a text, which has to be read, or by an identifier. -/
inductive TableName where
  | written (text : String)
  | given (identifier : Identifier)
deriving DecidableEq, Repr

/-- The identifier of a table name. -/
def TableName.identifier : TableName → Outcome Identifier
  | .written text => Identifier.parse text
  | .given i => .ok i

/-- The written form of a table name. -/
def TableName.text (n : TableName) : Outcome String :=
  n.identifier.map Identifier.text

end SqlWright
