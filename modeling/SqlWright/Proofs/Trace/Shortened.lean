import SqlWright.Event

/-!
# Texts that are cut

A text that is reported up to a number of bytes is cut between two characters, and as late as the
number allows: no later place between two characters is within it.
-/

namespace SqlWright

/-! ## Characters that fit -/

theorem utf8ByteSize_cons (c : Char) (cs : List Char) :
    (String.ofList (c :: cs)).utf8ByteSize =
      c.utf8Size + (String.ofList cs).utf8ByteSize := by
  rw [String.ofList_cons, String.utf8ByteSize_append, String.utf8ByteSize_singleton]

theorem fitting_prefix (limit : Nat) (cs : List Char) : fitting limit cs <+: cs := by
  induction cs generalizing limit with
  | nil => exact List.prefix_rfl
  | cons c cs ih =>
    rw [fitting]
    split
    · exact (List.prefix_cons_inj c).2 (ih _)
    · exact List.nil_prefix

theorem fitting_size (limit : Nat) (cs : List Char) :
    (String.ofList (fitting limit cs)).utf8ByteSize ≤ limit := by
  induction cs generalizing limit with
  | nil => exact Nat.zero_le limit
  | cons c cs ih =>
    rw [fitting]
    split
    · next hc =>
      have hrest := ih (limit - c.utf8Size)
      rw [utf8ByteSize_cons]
      omega
    · exact Nat.zero_le limit

/-- Every beginning that has no more bytes than the limit is kept. -/
theorem prefix_fitting {limit : Nat} {start cs : List Char} (hp : start <+: cs)
    (h : (String.ofList start).utf8ByteSize ≤ limit) : start <+: fitting limit cs := by
  induction cs generalizing limit start with
  | nil => exact hp
  | cons c cs ih =>
    cases start with
    | nil => exact List.nil_prefix
    | cons d start =>
      obtain ⟨rfl, hstart⟩ := List.cons_prefix_cons.1 hp
      rw [utf8ByteSize_cons] at h
      have hd : d.utf8Size ≤ limit := by omega
      rw [fitting, if_pos hd]
      exact (List.prefix_cons_inj d).2 (ih hstart (by omega))

/-! ## Texts -/

/-- The longest beginning of a text that ends between two characters of the text and has at most a
number of bytes. -/
structure LongestPrefix (limit : Nat) (text kept : String) : Prop where
  starts : ∃ rest, text = kept ++ rest
  fits : kept.utf8ByteSize ≤ limit
  longest : ∀ p : String.Pos.Raw, p.IsValid text → p.byteIdx ≤ limit →
    p.byteIdx ≤ kept.utf8ByteSize

theorem fitting_longestPrefix (limit : Nat) (text : String) :
    LongestPrefix limit text (String.ofList (fitting limit text.toList)) := by
  constructor
  · obtain ⟨rest, hrest⟩ := fitting_prefix limit text.toList
    refine ⟨String.ofList rest, ?_⟩
    rw [← String.ofList_append, hrest, String.ofList_toList]
  · exact fitting_size limit text.toList
  · intro p hp hlimit
    obtain ⟨start, rest, rfl, rfl⟩ := String.Pos.Raw.isValid_iff_exists_append.1 hp
    have hstart : start.toList <+: fitting limit (start ++ rest).toList := by
      refine prefix_fitting ?_ (by rw [String.ofList_toList]; exact hlimit)
      rw [String.toList_append]
      exact List.prefix_append _ _
    obtain ⟨more, hmore⟩ := hstart
    rw [← hmore, String.ofList_append, String.ofList_toList, String.utf8ByteSize_append]
    exact Nat.le_add_right _ _

/-- What is shown of a text: all of it unless it has more bytes than the limit, and then the longest
beginning that has no more, followed by dots. -/
inductive IsShown : Option Nat → String → String → Prop where
  | unlimited (text : String) : IsShown none text text
  | whole {limit : Nat} {text : String} (h : text.utf8ByteSize ≤ limit) :
    IsShown (some limit) text text
  | cut {limit : Nat} {text kept : String} (h : limit < text.utf8ByteSize)
    (hk : LongestPrefix limit text kept) : IsShown (some limit) text (kept ++ "...")

theorem shortened_isShown (limit : Option Nat) (text : String) :
    IsShown limit text (shortened limit text) := by
  cases limit with
  | none => exact .unlimited text
  | some limit =>
    rw [shortened]
    split
    · next h => exact .whole h
    · next h => exact .cut (Nat.lt_of_not_le h) (fitting_longestPrefix limit text)

/-- A limit of two bytes in the middle of a character of three. -/
example : shortened (some 2) "a€b" = "a..." := by decide

end SqlWright
