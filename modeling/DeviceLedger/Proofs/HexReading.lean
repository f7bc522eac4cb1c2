import DeviceLedger.Proofs.HexText
import Mathlib.Data.List.Induction

/-! What hexadecimal texts are read as. A text is looked at byte by byte, so the reasons for
refusing one come in a fixed order: the number of its bytes is odd, one of them is no digit, or
they are digits but too few or too many. What is left are the digits of one value, which is
written back in small letters. -/

namespace DeviceLedger

namespace Utf8

theorem toList_toUTF8 (text : String) : text.toUTF8.data.toList = encode text := by
  rw [String.toUTF8_eq_toByteArray, ← toByteArray_encode, List.data_toByteArray]

theorem utf8ByteSize_eq (text : String) : text.utf8ByteSize = (encode text).length := by
  rw [← toList_toUTF8, Array.length_toList]
  rfl

end Utf8

namespace Hex

/-- The byte is the code of a hexadecimal digit of either case. -/
def IsDigit (byte : UInt8) : Prop := (Char.ofNat byte.toNat).isHexDigit

/-- The first byte that is no digit, and where it stands. -/
structure FirstFault (bytes : Bytes) (position : Nat) (byte : UInt8) : Prop where
  found : bytes[position]? = some byte
  notDigit : ¬IsDigit byte
  digitsBefore : ∀ earlier ∈ bytes.take position, IsDigit earlier

theorem isHexDigit_iff {c : Char} : c.isHexDigit ↔
    0x30 ≤ c.toNat ∧ c.toNat ≤ 0x39 ∨ 0x61 ≤ c.toNat ∧ c.toNat ≤ 0x66 ∨
      0x41 ≤ c.toNat ∧ c.toNat ≤ 0x46 := by
  simp [Char.isHexDigit, Char.isDigit, UInt32.le_iff_toNat_le, or_assoc]

theorem toNat_char (byte : UInt8) : (Char.ofNat byte.toNat).toNat = byte.toNat := by
  have hByte := byte.toNat_lt
  have hValid : byte.toNat.isValidChar := .inl (by omega)
  rw [Char.ofNat, dif_pos hValid]
  rfl

theorem isDigit_iff {byte : UInt8} : IsDigit byte ↔
    0x30 ≤ byte.toNat ∧ byte.toNat ≤ 0x39 ∨ 0x61 ≤ byte.toNat ∧ byte.toNat ≤ 0x66 ∨
      0x41 ≤ byte.toNat ∧ byte.toNat ≤ 0x46 := by
  rw [IsDigit, isHexDigit_iff, toNat_char]

/-- A digit of either case stands for a number, whose own digit is the small one. -/
theorem exists_digitValue {byte : UInt8} (hDigit : IsDigit byte) :
    ∃ number, number < 16 ∧ digitValue? byte = some number ∧
      digit number = (Char.ofNat byte.toNat).toLower := by
  rw [isDigit_iff] at hDigit
  obtain ⟨code, hCode⟩ : ∃ code, byte.toNat = code := ⟨_, rfl⟩
  obtain rfl : byte = UInt8.ofNat code := by rw [← hCode, UInt8.ofNat_toNat]
  rw [hCode] at hDigit ⊢
  rcases hDigit with ⟨hLow, hHigh⟩ | ⟨hLow, hHigh⟩ | ⟨hLow, hHigh⟩ <;>
    interval_cases code <;> exact ⟨_, by decide, rfl, rfl⟩

theorem digitValue?_eq_none {byte : UInt8} (hByte : ¬IsDigit byte) : digitValue? byte = none := by
  rw [isDigit_iff] at hByte
  have hFirst : ¬(0x30 ≤ byte ∧ byte ≤ 0x39) := fun hRange => hByte (.inl hRange)
  have hSmall : ¬(0x61 ≤ byte ∧ byte ≤ 0x66) := fun hRange => hByte (.inr (.inl hRange))
  have hCapital : ¬(0x41 ≤ byte ∧ byte ≤ 0x46) := fun hRange => hByte (.inr (.inr hRange))
  rw [digitValue?, if_neg hFirst, if_neg hSmall, if_neg hCapital]

/-- Pairs of digits are read to their end. The bytes found have the same digits in small
letters. -/
theorem decodePairs_of_digits {bytes : Bytes} (hDigits : ∀ byte ∈ bytes, IsDigit byte)
    (hEven : bytes.length % 2 = 0) (found : Bytes) (position : Nat) :
    ∃ result, decodePairs found position bytes = .ok (found.reverse ++ result) ∧
      bytes.length = 2 * result.length ∧
      result.flatMap encodeByte = bytes.map fun byte => (Char.ofNat byte.toNat).toLower := by
  -- two bytes at a time, as they are read; what was found before stays in front
  induction bytes using List.twoStepInduction generalizing found position with
  | nil => exact ⟨[], by simp [decodePairs], rfl, rfl⟩
  | singleton byte => cases hEven
  | cons_cons high low rest ih _ =>
      obtain ⟨upper, hUpper, hHigh, hHighText⟩ := exists_digitValue (hDigits high (by simp))
      obtain ⟨lower, hLower, hLow, hLowText⟩ := exists_digitValue (hDigits low (by simp))
      have hRest : rest.length % 2 = 0 := by
        rw [List.length_cons, List.length_cons] at hEven
        omega
      obtain ⟨result, hResult, hLength, hText⟩ :=
        ih (fun byte hMem => hDigits byte (by simp [hMem])) hRest
          (UInt8.ofNat (upper * 16 + lower) :: found) (position + 2)
      have hByte : (UInt8.ofNat (upper * 16 + lower)).toNat = upper * 16 + lower :=
        UInt8.toNat_ofNat_of_lt' (show upper * 16 + lower < 256 by omega)
      have hDiv : (upper * 16 + lower) / 16 = upper := by omega
      have hMod : (upper * 16 + lower) % 16 = lower := by omega
      refine ⟨UInt8.ofNat (upper * 16 + lower) :: result, ?_, ?_, ?_⟩
      · simp only [decodePairs, hHigh, hLow, hResult]
        rw [List.reverse_cons, List.append_assoc, List.singleton_append]
      · rw [List.length_cons, List.length_cons, List.length_cons, hLength]
        omega
      · rw [List.flatMap_cons, hText, encodeByte, hByte, hDiv, hMod, hHighText, hLowText]
        rfl

/-- The first byte that is no digit is reported, whether it is the first or the second of its
pair. -/
theorem decodePairs_of_fault {front back : Bytes} {byte : UInt8}
    (hFront : ∀ earlier ∈ front, IsDigit earlier) (hByte : ¬IsDigit byte)
    (hEven : (front ++ byte :: back).length % 2 = 0) (found : Bytes) (position : Nat) :
    decodePairs found position (front ++ byte :: back) =
      .error (.notDigit byte (position + front.length)) := by
  have hNone := digitValue?_eq_none hByte
  induction front using List.twoStepInduction generalizing found position with
  | nil =>
      cases back with
      | nil => cases hEven
      | cons low rest => simp [decodePairs, hNone]
  | singleton high =>
      obtain ⟨upper, -, hHigh, -⟩ := exists_digitValue (hFront high (by simp))
      simp [decodePairs, hHigh, hNone]
  | cons_cons high low rest ih _ =>
      obtain ⟨upper, -, hHigh, -⟩ := exists_digitValue (hFront high (by simp))
      obtain ⟨lower, -, hLow, -⟩ := exists_digitValue (hFront low (by simp))
      have hRest : (rest ++ byte :: back).length % 2 = 0 := by
        rw [List.cons_append, List.cons_append, List.length_cons, List.length_cons] at hEven
        omega
      have hFault := ih (fun byte hMem => hFront byte (by simp [hMem])) hRest
        (UInt8.ofNat (upper * 16 + lower) :: found) (position + 2)
      have hPosition : position + 2 + rest.length = position + (high :: low :: rest).length := by
        rw [List.length_cons, List.length_cons]
        omega
      simp only [List.cons_append, decodePairs, hHigh, hLow, hFault, hPosition]

/-- Bytes are all digits, or there is a first one that is none. -/
theorem digits_or_fault (bytes : Bytes) :
    (∀ byte ∈ bytes, IsDigit byte) ∨ ∃ position byte, FirstFault bytes position byte := by
  induction bytes with
  | nil => exact .inl (by simp)
  | cons first rest ih =>
      by_cases hFirst : IsDigit first
      · rcases ih with hDigits | ⟨position, byte, hFound, hByte, hBefore⟩
        · exact .inl (List.forall_mem_cons.mpr ⟨hFirst, hDigits⟩)
        · exact .inr ⟨position + 1, byte, hFound, hByte,
            List.forall_mem_cons.mpr ⟨hFirst, hBefore⟩⟩
      · exact .inr ⟨0, first, rfl, hFirst, by simp⟩

theorem FirstFault.split {bytes : Bytes} {position : Nat} {byte : UInt8}
    (hFault : FirstFault bytes position byte) :
    (bytes.take position).length = position ∧
      bytes = bytes.take position ++ byte :: bytes.drop (position + 1) := by
  obtain ⟨hInside, hByte⟩ := List.getElem?_eq_some_iff.mp hFault.found
  refine ⟨List.length_take_of_le hInside.le, ?_⟩
  rw [← hByte, ← List.drop_eq_getElem_cons hInside, List.take_append_drop]

/-- A character is a digit if all its bytes are; there is then one of them. -/
theorem isHexDigit_of_bytes {c : Char} (hBytes : ∀ byte ∈ Utf8.encodeChar c, IsDigit byte) :
    c.isHexDigit := by
  obtain ⟨byte, tail, hEncode, -⟩ := Utf8.exists_encodeChar c
  have hMem : byte ∈ Utf8.encodeChar c := by simp [hEncode]
  have hDigit := isDigit_iff.mp (hBytes byte hMem)
  rwa [isHexDigit_iff, ← Utf8.toNat_eq_of_mem_encodeChar hMem (by omega)]

/-- Digits take one byte each, so positions in bytes and in characters are the same. -/
theorem utf8_of_digits {text : String} (hDigits : ∀ c ∈ text.toList, c.isHexDigit) :
    Utf8.encode text = text.toList.map fun c => UInt8.ofNat c.toNat := by
  have hOne : ∀ c ∈ text.toList, Utf8.encodeChar c = [UInt8.ofNat c.toNat] := by
    intro c hMem
    have hCode := isHexDigit_iff.mp (hDigits c hMem)
    exact if_pos (show c.toNat < 0x80 by omega)
  rw [Utf8.encode, List.flatMap_def, List.map_congr_left hOne, ← List.flatMap_def,
    ← List.map_eq_flatMap]

theorem utf8ByteSize_of_digits {text : String} (hDigits : ∀ c ∈ text.toList, c.isHexDigit) :
    text.utf8ByteSize = text.length := by
  rw [Utf8.utf8ByteSize_eq, utf8_of_digits hDigits, List.length_map, String.length_toList]

theorem forall_isDigit_iff {text : String} :
    (∀ byte ∈ Utf8.encode text, IsDigit byte) ↔ ∀ c ∈ text.toList, c.isHexDigit := by
  constructor
  · intro hDigits c hMem
    exact isHexDigit_of_bytes fun byte hByte => hDigits byte (List.mem_flatMap.mpr ⟨c, hMem, hByte⟩)
  · intro hDigits byte hMem
    rw [utf8_of_digits hDigits] at hMem
    obtain ⟨c, hChar, rfl⟩ := List.mem_map.mp hMem
    have hCode := isHexDigit_iff.mp (hDigits c hChar)
    rwa [isDigit_iff, UInt8.toNat_ofNat_of_lt' (show c.toNat < 256 by omega)]

/-- An even number of digits is decoded to bytes with the same digits in small letters. -/
theorem decode_of_digits {text : String} (hDigits : ∀ c ∈ text.toList, c.isHexDigit)
    (hEven : text.length % 2 = 0) :
    ∃ bytes, decode text = .ok bytes ∧ text.length = 2 * bytes.length ∧
      encode bytes = text.toLower := by
  have hLength : (Utf8.encode text).length = text.length := by
    rw [← Utf8.utf8ByteSize_eq, utf8ByteSize_of_digits hDigits]
  obtain ⟨bytes, hPairs, hHalf, hText⟩ := decodePairs_of_digits (forall_isDigit_iff.mpr hDigits)
    (by rw [hLength, hEven]) [] 0
  refine ⟨bytes, ?_, by rw [← hLength, hHalf], ?_⟩
  · have hNotOdd : ¬(Utf8.encode text).length % 2 = 1 := by omega
    simp only [decode, if_neg hNotOdd]
    exact hPairs
  · have hLower : text.toLower.toList = text.toList.map Char.toLower := String.toList_map
    rw [encode, hText, utf8_of_digits hDigits, List.map_map, ← String.toList_inj,
      String.toList_ofList, hLower]
    refine List.map_congr_left fun c hMem => ?_
    have hCode := isHexDigit_iff.mp (hDigits c hMem)
    rw [Function.comp_apply, UInt8.toNat_ofNat_of_lt' (show c.toNat < 256 by omega),
      Char.ofNat_toNat]

theorem decode_of_odd {text : String} (hOdd : (Utf8.encode text).length % 2 = 1) :
    decode text = .error .oddLength :=
  if_pos hOdd

theorem decode_of_fault {text : String} {position : Nat} {byte : UInt8}
    (hEven : (Utf8.encode text).length % 2 = 0)
    (hFault : FirstFault (Utf8.encode text) position byte) :
    decode text = .error (.notDigit byte position) := by
  obtain ⟨hPosition, hBytes⟩ := hFault.split
  have hNotOdd : ¬(Utf8.encode text).length % 2 = 1 := by omega
  have hPairs := decodePairs_of_fault hFault.digitsBefore hFault.notDigit
    (by rw [← hBytes, hEven]) [] 0
  rw [← hBytes, hPosition, Nat.zero_add] at hPairs
  simp only [decode, if_neg hNotOdd]
  exact hPairs

end Hex

namespace Fixed

variable {width : Nat}

/-- Different values have different texts. -/
theorem toHex_injective : Function.Injective fun fixed : Fixed width => fixed.toHex := by
  intro first second hText
  have hRead : ofHex width first.toHex = ofHex width second.toHex := congrArg _ hText
  rw [ofHex_toHex, ofHex_toHex] at hRead
  exact Except.ok.inj hRead

/-- What a text is read as. Its bytes are counted first; then the first of them that is no digit
counts, and only then whether they are as many as a value needs. -/
inductive ReadsAs (text : String) : Except WidthError (Fixed width) → Prop where
  | oddLength (hOdd : text.utf8ByteSize % 2 = 1) : ReadsAs text (.error (.hex .oddLength))
  | notDigit {position : Nat} {byte : UInt8} (hEven : text.utf8ByteSize % 2 = 0)
      (hFault : Hex.FirstFault text.toUTF8.data.toList position byte) :
      ReadsAs text (.error (.hex (.notDigit byte position)))
  | length (hEven : text.utf8ByteSize % 2 = 0)
      (hDigits : ∀ byte ∈ text.toUTF8.data.toList, Hex.IsDigit byte)
      (hLength : text.utf8ByteSize / 2 ≠ width) :
      ReadsAs text (.error (.length width (text.utf8ByteSize / 2)))
  | value {fixed : Fixed width} (hDigits : ∀ c ∈ text.toList, c.isHexDigit)
      (hLength : text.length = 2 * width) (hText : fixed.toHex = text.toLower) :
      ReadsAs text (.ok fixed)

/-- An even number of digits is the text of a value, or it is too short or too long. -/
theorem ofHex_of_digits (width : Nat) {text : String} (hDigits : ∀ c ∈ text.toList, c.isHexDigit)
    (hEven : text.length % 2 = 0) :
    ∃ bytes, text.length = 2 * bytes.length ∧ Hex.encode bytes = text.toLower ∧
      ofHex width text = ofBytes width bytes := by
  obtain ⟨bytes, hBytes, hLength, hText⟩ := Hex.decode_of_digits hDigits hEven
  exact ⟨bytes, hLength, hText, by simp only [ofHex, hBytes]⟩

/-- A text is read as nothing else than what its bytes say. -/
theorem ReadsAs.ofHex_eq {text : String} {result : Except WidthError (Fixed width)}
    (hReads : ReadsAs text result) : ofHex width text = result := by
  cases hReads with
  | oddLength hOdd =>
      rw [Utf8.utf8ByteSize_eq] at hOdd
      rw [ofHex, Hex.decode_of_odd hOdd]
  | notDigit hEven hFault =>
      rw [Utf8.utf8ByteSize_eq] at hEven
      rw [Utf8.toList_toUTF8] at hFault
      rw [ofHex, Hex.decode_of_fault hEven hFault]
  | length hEven hDigits hLength =>
      rw [Utf8.toList_toUTF8, Hex.forall_isDigit_iff] at hDigits
      rw [Hex.utf8ByteSize_of_digits hDigits] at hEven hLength ⊢
      obtain ⟨bytes, hHalf, -, hResult⟩ := ofHex_of_digits width hDigits hEven
      have hBytes : text.length / 2 = bytes.length := by omega
      rw [hBytes] at hLength ⊢
      rw [hResult, ofBytes, dif_neg hLength]
  | @value fixed hDigits hLength hText =>
      obtain ⟨bytes, hHalf, hSame, hResult⟩ := ofHex_of_digits width hDigits (by omega)
      have hBytes : bytes.length = width := by omega
      rw [hResult, ofBytes, dif_pos hBytes, Except.ok.injEq]
      exact toHex_injective (hSame.trans hText.symm)

theorem exists_readsAs (width : Nat) (text : String) :
    ∃ result : Except WidthError (Fixed width), ReadsAs text result := by
  rcases Nat.mod_two_eq_zero_or_one text.utf8ByteSize with hEven | hOdd
  · rcases Hex.digits_or_fault text.toUTF8.data.toList with hDigits | ⟨position, byte, hFault⟩
    · by_cases hLength : text.utf8ByteSize / 2 = width
      · -- digits take one byte each, so there are as many characters as bytes
        rw [Utf8.toList_toUTF8, Hex.forall_isDigit_iff] at hDigits
        rw [Hex.utf8ByteSize_of_digits hDigits] at hEven hLength
        obtain ⟨bytes, hHalf, hText, -⟩ := ofHex_of_digits width hDigits hEven
        exact ⟨.ok ⟨bytes, by omega⟩, .value hDigits (by omega) hText⟩
      · exact ⟨_, .length hEven hDigits hLength⟩
    · exact ⟨_, .notDigit hEven hFault⟩
  · exact ⟨_, .oddLength hOdd⟩

theorem ofHex_eq_iff {text : String} {result : Except WidthError (Fixed width)} :
    ofHex width text = result ↔ ReadsAs text result := by
  constructor
  · rintro rfl
    obtain ⟨result, hReads⟩ := exists_readsAs width text
    rwa [hReads.ofHex_eq]
  · exact ReadsAs.ofHex_eq

end Fixed

/-- The texts of identifiers, which have 32 bytes, and of addresses, which have 33. Whatever a
text is, it is read as what its bytes say, and as nothing else. A value is read exactly from the
texts of two hexadecimal digits of either case for each of its bytes, and among these is its own
text. If the number of UTF-8 bytes is odd, only that is reported; otherwise the first byte that is
no digit, with its offset in bytes; otherwise half the number of bytes. -/
theorem hex_texts_read_exactly (width : Nat) :
    (∀ (text : String) (result : Except WidthError (Fixed width)),
      Fixed.ofHex width text = result ↔ Fixed.ReadsAs text result) ∧
    (∀ text : String, (∃ fixed, Fixed.ofHex width text = .ok fixed) ↔
      text.length = 2 * width ∧ ∀ c ∈ text.toList, c.isHexDigit) ∧
    (∀ fixed : Fixed width, Fixed.ofHex width fixed.toHex = .ok fixed) ∧
    Hex.Fault.oddLength.message = "Odd number of digits" ∧
    ∀ byte position, (Hex.Fault.notDigit byte position).message =
      "Invalid character " ++ Hex.quoteByte byte ++ " at position " ++ toString position := by
  refine ⟨fun text result => Fixed.ofHex_eq_iff, ?_, Fixed.ofHex_toHex, rfl, fun _ _ => rfl⟩
  intro text
  constructor
  · rintro ⟨fixed, hFixed⟩
    cases Fixed.ofHex_eq_iff.mp hFixed with
    | value hDigits hLength hText => exact ⟨hLength, hDigits⟩
  · rintro ⟨hLength, hDigits⟩
    obtain ⟨bytes, hHalf, -, hResult⟩ := Fixed.ofHex_of_digits width hDigits (by omega)
    exact ⟨⟨bytes, by omega⟩, by rw [hResult, Fixed.ofBytes, dif_pos]⟩

/-- A letter of two bytes behind a digit and in front of another one: the bytes are even in number,
and the first byte of the letter is at fault. -/
example : Fixed.ofHex 2 "1é2" = .error (.hex (.notDigit 0xC3 1)) := by
  rfl

end DeviceLedger
