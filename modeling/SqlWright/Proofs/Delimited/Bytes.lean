import SqlWright.Delimited.Source

/-!
# Texts as bytes

A text that comes as bytes is the source that its characters are. The bytes are cut into lines
before they are decoded; this does no harm, because in UTF-8 no character but the line feed has the
byte of the line feed in it.
-/

namespace SqlWright.Delimited.Source

/-- The bytes of some characters. -/
def utf8 (cs : List Char) : List UInt8 :=
  cs.flatMap String.utf8EncodeChar

theorem utf8_append (cs ds : List Char) : utf8 (cs ++ ds) = utf8 cs ++ utf8 ds :=
  List.flatMap_append

theorem utf8_toList (s : String) : utf8 s.toList = s.toByteArray.data.toList := by
  rw [← String.utf8Encode_toList]
  exact (List.toList_data_toByteArray).symm

theorem lineFeed_not_mem {c : Char} (h : c ≠ '\n') : 10 ∉ String.utf8EncodeChar c := by
  have hv : c.val.toNat ≠ 10 := by
    intro hv
    exact h (Char.ext (UInt32.toNat_inj.1 hv))
  have hbyte {n : Nat} (hn : n % 256 ≠ 10) : (10 : UInt8) ≠ UInt8.ofNat n := by
    intro he
    have := congrArg UInt8.toNat he
    rw [UInt8.toNat_ofNat'] at this
    exact hn this.symm
  unfold String.utf8EncodeChar
  dsimp only
  split
  · rw [List.mem_singleton]
    exact hbyte (by omega)
  · split
    · simp only [List.mem_cons, List.not_mem_nil, or_false, not_or]
      exact ⟨hbyte (by omega), hbyte (by omega)⟩
    · split
      · simp only [List.mem_cons, List.not_mem_nil, or_false, not_or]
        exact ⟨hbyte (by omega), hbyte (by omega), hbyte (by omega)⟩
      · simp only [List.mem_cons, List.not_mem_nil, or_false, not_or]
        exact ⟨hbyte (by omega), hbyte (by omega), hbyte (by omega), hbyte (by omega)⟩

/-- Bytes without a line feed go on with the current line. -/
theorem cutLines_append {bytes : List UInt8} (h : 10 ∉ bytes) (current rest : List UInt8) :
    cutLines current (bytes ++ rest) = cutLines (bytes.reverse ++ current) rest := by
  induction bytes generalizing current with
  | nil => rfl
  | cons b bytes ih =>
    rw [List.mem_cons, not_or] at h
    rw [List.cons_append, cutLines, if_neg (Ne.symm h.1), ih h.2, List.reverse_cons,
      List.append_assoc, List.singleton_append]

/-- A line that is the encoding of a text is decoded to that text. -/
theorem ofLine_utf8 (cs : List Char) : ofLine (utf8 cs) = ofChars cs := by
  have hbytes : (utf8 cs).toByteArray = cs.utf8Encode := rfl
  have hdecoded : String.fromUTF8? (utf8 cs).toByteArray = some (String.ofList cs) := by
    have hvalid : (utf8 cs).toByteArray.IsValidUTF8 := .intro cs hbytes
    rw [String.fromUTF8?, dif_pos hvalid]
    refine congrArg some (String.toByteArray_inj.1 ?_)
    rw [String.toByteArray_ofList]
    exact hbytes
  rw [ofLine, hdecoded]
  show ofText (String.ofList cs) = _
  rw [ofText, String.toList_ofList]

/-- Cutting goes on after the characters `line` of an unfinished line. -/
theorem cutLines_utf8 (line cs : List Char) :
    (cutLines (utf8 line).reverse (utf8 cs)).flatMap ofLine = ofChars (line ++ cs) := by
  induction cs generalizing line with
  | nil =>
    rw [List.append_nil]
    cases line with
    | nil => rfl
    | cons c line =>
      have hne : (utf8 (c :: line)).reverse.isEmpty = false := by
        rw [List.isEmpty_reverse, List.isEmpty_eq_false_iff]
        exact fun h => String.utf8EncodeChar_ne_nil (List.append_eq_nil_iff.1 h).1
      show (cutLines (utf8 (c :: line)).reverse []).flatMap ofLine = _
      rw [cutLines, hne, if_neg Bool.false_ne_true, List.reverse_reverse, List.flatMap_singleton,
        ofLine_utf8]
  | cons c cs ih =>
    have hcons : utf8 (c :: cs) = String.utf8EncodeChar c ++ utf8 cs := rfl
    have hsnoc : utf8 (line ++ [c]) = utf8 line ++ String.utf8EncodeChar c := by
      rw [utf8_append]
      exact congrArg (utf8 line ++ ·) (List.append_nil _)
    have hmore := ih (line ++ [c])
    rw [List.append_assoc, List.singleton_append, hsnoc, List.reverse_append] at hmore
    by_cases hc : c = '\n'
    · subst hc
      have hfeed : String.utf8EncodeChar '\n' = [10] := rfl
      have hnew := ih []
      rw [List.nil_append] at hnew
      have hline : ofLine (10 :: (utf8 line).reverse).reverse = ofChars (line ++ ['\n']) := by
        rw [List.reverse_cons, List.reverse_reverse, ← hfeed, ← hsnoc, ofLine_utf8]
      rw [hcons, hfeed, List.singleton_append, cutLines, if_pos rfl, List.flatMap_cons, hline]
      show ofChars (line ++ ['\n']) ++ (cutLines (utf8 []).reverse (utf8 cs)).flatMap ofLine = _
      rw [hnew, ofChars, ofChars, ← List.map_append, List.append_assoc, List.singleton_append]
      rfl
    · rw [hcons, cutLines_append (lineFeed_not_mem hc), hmore]

/-- A text is read alike from its characters and from its bytes. -/
theorem ofBytes_eq_ofText (s : String) : ofBytes s.toByteArray.data.toList = ofText s := by
  rw [← utf8_toList, ofBytes]
  exact cutLines_utf8 [] s.toList

end SqlWright.Delimited.Source
