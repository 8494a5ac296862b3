import Straightline.Proofs.Grammar

/-!
# Texts in bytes

A text is stored as bytes, one to four for a character, and places in it are counted in bytes. A
pattern is searched among the bytes (`Text.find?`), and a text is cut at an offset (`Text.upTo?`).
There is no cut inside a character or beyond the end.

What a search finds is always a place for a cut. The first byte of a character is no byte in the
middle of another one, so a pattern that stands among the bytes stands among the characters too
(`Text.exists_of_find?`). A line can therefore be cut at its first comment sign, and what is left of
it is the line up to its comment (`Line.upTo?_commentOffset?`).
-/

namespace Straightline

namespace Text

/-- The bytes that a text is stored as. -/
def bytes (s : String) : List UInt8 := s.toByteArray.data.toList

/-- The least offset in bytes at which a pattern stands in a text, by a search through the offsets
from the start to the end (`find?_eq_some_iff`). -/
def find? (pattern s : String) : Option Nat :=
  (List.range ((bytes s).length + 1)).find? fun k => (bytes pattern).isPrefixOf ((bytes s).drop k)

/-- A text up to an offset in bytes, if the offset lies between two characters or at an end. At
other offsets there is no cut (`isSome_upTo?_iff`). -/
def upTo? (s : String) (offset : Nat) : Option String :=
  (s.pos? ⟨offset⟩).map fun place => (s.sliceTo place).copy

/-! ## Bytes and characters -/

@[simp]
theorem bytes_append (s t : String) : bytes (s ++ t) = bytes s ++ bytes t := by
  simp [bytes]

@[simp]
theorem length_bytes (s : String) : (bytes s).length = s.utf8ByteSize := by
  simp [bytes]

private theorem toByteArray_bytes (s : String) : (bytes s).toByteArray = s.toByteArray := by
  apply ByteArray.ext
  simp [bytes]

/-- A text that starts with the bytes of another one starts with its characters. -/
private theorem exists_of_prefix_bytes {front s : String} (h : bytes front <+: bytes s) :
    ∃ back, s = front ++ back := by
  obtain ⟨rest, h⟩ := h
  have encoded : front.toList.utf8Encode ++ rest.toByteArray = s.toList.utf8Encode := by
    simp only [String.utf8Encode_toList, ← toByteArray_bytes, ← List.toByteArray_append, h]
  obtain ⟨back, same⟩ := List.isPrefix_of_utf8Encode_append_eq_utf8Encode _ encoded
  refine ⟨String.ofList back, ?_⟩
  apply String.toList_injective
  simp [same]

private theorem getElem?_bytes {s : String} {k : Nat} {b : UInt8} :
    (bytes s)[k]? = some b ↔ ∃ inside : ⟨k⟩ < s.rawEndPos, s.getUTF8Byte ⟨k⟩ inside = b := by
  rw [List.getElem?_eq_some_iff]
  constructor
  · rintro ⟨inside, byte⟩
    exact ⟨by rwa [length_bytes] at inside, byte⟩
  · rintro ⟨inside, byte⟩
    exact ⟨by rwa [length_bytes], byte⟩

/-- Where a text stands among the bytes of another one, that one has a boundary between characters.
The first byte of the pattern is the first byte of a character, and no byte inside a character
is. -/
private theorem isValid_of_prefix_drop {pattern s : String} (nonempty : pattern ≠ "") {k : Nat}
    (h : bytes pattern <+: (bytes s).drop k) : String.Pos.Raw.IsValid s ⟨k⟩ := by
  have positive : 0 < pattern.utf8ByteSize := by
    apply Nat.pos_of_ne_zero
    simpa using nonempty
  obtain ⟨rest, h⟩ := h
  have byte : (bytes s)[k]? = (bytes pattern)[0]? := by
    rw [← Nat.add_zero k, ← List.getElem?_drop, ← h]
    exact List.getElem?_append_left (by rwa [length_bytes])
  have first : (bytes pattern)[0]? = some (pattern.getUTF8Byte 0 positive) :=
    getElem?_bytes.mpr ⟨positive, rfl⟩
  obtain ⟨inside, same⟩ := getElem?_bytes.mp (byte.trans first)
  -- The byte there is the first one of the pattern, and so the first one of a character.
  apply String.Pos.Raw.isValid_iff_isUTF8FirstByte.mpr
  refine .inr ⟨inside, ?_⟩
  rw [same]
  exact pattern.isUTF8FirstByte_getUTF8Byte_zero

/-! ## Cuts -/

/-- `upTo?` cuts a text exactly at the boundaries between its characters and at its ends. -/
theorem isSome_upTo?_iff {s : String} {k : Nat} :
    (upTo? s k).isSome ↔ String.Pos.Raw.IsValid s ⟨k⟩ := by
  simp [upTo?, String.pos?, String.Slice.pos?]

private theorem upTo?_append (front back : String) :
    upTo? (front ++ back) front.utf8ByteSize = some front := by
  have valid : String.Pos.Raw.IsValid (front ++ back) ⟨front.utf8ByteSize⟩ :=
    String.Pos.Raw.isValid_rawEndPos.append_right back
  let place := (front ++ back).pos ⟨front.utf8ByteSize⟩ valid
  have found : (front ++ back).pos? ⟨front.utf8ByteSize⟩ = some place := by
    rw [String.pos?, String.Slice.pos?,
      dif_pos (String.Pos.Raw.isValidForSlice_eq_true_iff.mpr valid.toSlice)]
    rfl
  have split : place.Splits front back := ⟨rfl, rfl⟩
  rw [upTo?, found, Option.map_some, place.splits.eq_left split]

/-! ## Searches -/

/-- `find?` gives the first offset at which the bytes of the pattern stand. -/
theorem find?_eq_some_iff {pattern s : String} {k : Nat} :
    find? pattern s = some k ↔
      bytes pattern <+: (bytes s).drop k ∧ k ≤ s.utf8ByteSize ∧
        ∀ j < k, ¬ bytes pattern <+: (bytes s).drop j := by
  unfold find?
  simp only [List.find?_range_eq_some, List.mem_range, length_bytes, Nat.lt_add_one_iff,
    List.isPrefixOf_iff_prefix, Bool.not_eq_true', ← Bool.not_eq_true]

/-- `find?` gives nothing only where the bytes of the pattern stand nowhere. -/
theorem find?_eq_none_iff {pattern s : String} :
    find? pattern s = none ↔
      ∀ j ≤ s.utf8ByteSize, ¬ bytes pattern <+: (bytes s).drop j := by
  unfold find?
  simp only [List.find?_range_eq_none, length_bytes, Nat.lt_add_one_iff,
    List.isPrefixOf_iff_prefix, Bool.not_eq_true', ← Bool.not_eq_true]

private theorem prefix_drop_bytes (front pattern back : String) :
    bytes pattern <+: (bytes (front ++ pattern ++ back)).drop front.utf8ByteSize := by
  rw [← length_bytes front]
  simp [List.append_assoc]

/-- What `find?` finds among the bytes stands there as characters, and nowhere before. -/
theorem exists_of_find? {pattern s : String} (nonempty : pattern ≠ "") {k : Nat}
    (found : find? pattern s = some k) :
    ∃ front back, s = front ++ pattern ++ back ∧ k = front.utf8ByteSize ∧
      ∀ front' back', s = front' ++ pattern ++ back' → k ≤ front'.utf8ByteSize := by
  obtain ⟨here, _, first⟩ := find?_eq_some_iff.mp found
  have valid := isValid_of_prefix_drop nonempty here
  obtain ⟨front, rest, rfl, place⟩ := String.Pos.Raw.isValid_iff_exists_append.mp valid
  obtain rfl : k = front.utf8ByteSize := congrArg String.Pos.Raw.byteIdx place
  have behind : bytes pattern <+: bytes rest := by
    rw [← length_bytes front] at here
    simpa using here
  obtain ⟨back, rfl⟩ := exists_of_prefix_bytes behind
  refine ⟨front, back, by rw [String.append_assoc], rfl, ?_⟩
  intro front' back' other
  apply Nat.le_of_not_lt
  intro earlier
  apply first _ earlier
  rw [other]
  exact prefix_drop_bytes front' pattern back'

/-- What `find?` does not find among the bytes does not stand among the characters. -/
private theorem ne_of_find? {pattern s : String} (absent : find? pattern s = none)
    (front back : String) :
    s ≠ front ++ pattern ++ back := by
  rintro rfl
  apply find?_eq_none_iff.mp absent front.utf8ByteSize
  · simp only [String.utf8ByteSize_append]
    omega
  · exact prefix_drop_bytes front pattern back

end Text

/-! ## Comments -/

namespace Line

/-- Where the comment of a line starts, counted in bytes: at the first comment sign, if there is
one. -/
def commentOffset? (line : String) : Option Nat := Text.find? ";;" line

/-- A line can be cut where `commentOffset?` finds a comment sign, and what is in front of the cut
is `beforeComment` of the line: the sign that is found is the first one. -/
theorem upTo?_commentOffset? {line : String} {offset : Nat}
    (found : commentOffset? line = some offset) :
    Text.upTo? line offset = some (String.ofList (beforeComment line.toList)) := by
  obtain ⟨code, comment, rfl, rfl, first⟩ := Text.exists_of_find? (by simp) found
  have sole : ¬ commentSign <:+: code.toList ++ [';'] := by
    rintro ⟨front, back, other⟩
    have parts : code ++ ";" = String.ofList front ++ ";;" ++ String.ofList back := by
      apply String.toList_injective
      simpa [commentSign] using other.symm
    -- This sign starts before the one that was found.
    have earlier := first (String.ofList front) (String.ofList back ++ ";" ++ comment) (by
      rw [← String.append_assoc, ← String.append_assoc, ← parts]
      simp [String.append_assoc])
    have sizes := congrArg String.utf8ByteSize parts
    simp only [String.utf8ByteSize_append] at sizes
    have one : ";".utf8ByteSize = 1 := rfl
    have two : ";;".utf8ByteSize = 2 := rfl
    omega
  have cut : beforeComment (code ++ ";;" ++ comment).toList = code.toList := by
    have parted : Cut (code.toList ++ commentSign ++ comment.toList) code.toList := .comment sole
    apply beforeComment_eq_iff.mpr
    simpa [commentSign] using parted
  rw [cut, String.ofList_toList, String.append_assoc, Text.upTo?_append]

/-- Where `commentOffset?` finds no sign, nothing is cut off. -/
theorem beforeComment_of_commentOffset? {line : String} (absent : commentOffset? line = none) :
    beforeComment line.toList = line.toList := by
  apply beforeComment_of_absent
  rintro ⟨front, back, whole⟩
  apply Text.ne_of_find? absent (String.ofList front) (String.ofList back)
  apply String.toList_injective
  simpa [commentSign] using whole.symm

end Line

end Straightline
