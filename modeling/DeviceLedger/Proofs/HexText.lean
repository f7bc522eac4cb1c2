import DeviceLedger.Identifier
import DeviceLedger.Text.Blank
import DeviceLedger.Proofs.Utf8Text

/-! Hexadecimal text is read back. Its characters are the sixteen digits, so that there is
no white space in it and nothing that a path would take for something else. -/

namespace DeviceLedger

namespace Hex

/-- A digit is one byte, which is read as its number. -/
theorem exists_byte_of_digit {number : Nat} (hNumber : number < 16) :
    ∃ byte, Utf8.encodeChar (digit number) = [byte] ∧ digitValue? byte = some number := by
  interval_cases number <;> exact ⟨_, rfl, rfl⟩

theorem exists_bytes_of_encodeByte (byte : UInt8) :
    ∃ high low, (encodeByte byte).flatMap Utf8.encodeChar = [high, low] ∧
      digitValue? high = some (byte.toNat / 16) ∧ digitValue? low = some (byte.toNat % 16) := by
  have hByte := byte.toNat_lt
  obtain ⟨high, hHigh, hUpper⟩ := exists_byte_of_digit (show byte.toNat / 16 < 16 by omega)
  obtain ⟨low, hLow, hLower⟩ := exists_byte_of_digit (show byte.toNat % 16 < 16 by omega)
  refine ⟨high, low, ?_, hUpper, hLower⟩
  simp [encodeByte, hHigh, hLow]

/-- A byte is put together from its two digits. -/
theorem ofNat_digits (byte : UInt8) :
    UInt8.ofNat (byte.toNat / 16 * 16 + byte.toNat % 16) = byte := by
  rw [Nat.div_add_mod', UInt8.ofNat_toNat]

theorem utf8_encode (bytes : Bytes) :
    Utf8.encode (encode bytes) =
      bytes.flatMap fun byte => (encodeByte byte).flatMap Utf8.encodeChar := by
  rw [Utf8.encode, encode, String.toList_ofList, List.flatMap_assoc]

theorem length_utf8_encode (bytes : Bytes) :
    (Utf8.encode (encode bytes)).length = 2 * bytes.length := by
  rw [utf8_encode]
  induction bytes with
  | nil => rfl
  | cons byte bytes ih =>
      obtain ⟨high, low, hDigits, -, -⟩ := exists_bytes_of_encodeByte byte
      rw [List.flatMap_cons, List.length_append, ih, hDigits, List.length_cons, List.length_cons,
        List.length_cons, List.length_nil]
      omega

theorem decodePairs_encode (found : Bytes) (position : Nat) (bytes : Bytes) :
    decodePairs found position
        (bytes.flatMap fun byte => (encodeByte byte).flatMap Utf8.encodeChar) =
      .ok (found.reverse ++ bytes) := by
  induction bytes generalizing found position with
  | nil => simp [decodePairs]
  | cons byte bytes ih =>
      obtain ⟨high, low, hDigits, hHigh, hLow⟩ := exists_bytes_of_encodeByte byte
      rw [List.flatMap_cons, hDigits, List.cons_append, List.cons_append, List.nil_append,
        decodePairs, hHigh, hLow]
      simp only [ofNat_digits]
      simp [ih]

/-- Bytes are read back from their hexadecimal text. -/
theorem decode_encode (bytes : Bytes) : decode (encode bytes) = .ok bytes := by
  have hEven : ¬(Utf8.encode (encode bytes)).length % 2 = 1 := by
    rw [length_utf8_encode]
    omega
  simp only [decode, if_neg hEven]
  rw [utf8_encode, decodePairs_encode]
  rfl

/-- The characters of a hexadecimal text are digits. -/
theorem exists_digit_of_mem_encode {c : Char} {bytes : Bytes} (hMem : c ∈ (encode bytes).toList) :
    ∃ number, number < 16 ∧ digit number = c := by
  rw [encode, String.toList_ofList, List.mem_flatMap] at hMem
  obtain ⟨byte, -, hDigit⟩ := hMem
  have hByte := byte.toNat_lt
  simp only [encodeByte, List.mem_cons, List.not_mem_nil, or_false] at hDigit
  rcases hDigit with rfl | rfl
  · exact ⟨byte.toNat / 16, by omega, rfl⟩
  · exact ⟨byte.toNat % 16, by omega, rfl⟩

theorem not_isBlank_digit {number : Nat} (hNumber : number < 16) :
    Blank.isBlank (digit number) = false := by
  interval_cases number <;> rfl

end Hex

namespace Blank

/-- A text without white space is trimmed to itself. -/
theorem trim_of_no_blank {text : String} (hBlank : ∀ c ∈ text.toList, isBlank c = false) :
    trim text = text := by
  have hDrop (characters : List Char) (hBlank : ∀ c ∈ characters, isBlank c = false) :
      characters.dropWhile isBlank = characters := by
    cases characters with
    | nil => rfl
    | cons c characters => simp [hBlank c List.mem_cons_self]
  rw [trim, hDrop _ hBlank, hDrop _ fun c hMem => hBlank c (List.mem_reverse.mp hMem),
    List.reverse_reverse, String.ofList_toList]

theorem trim_hex (bytes : Bytes) : trim (Hex.encode bytes) = Hex.encode bytes := by
  apply trim_of_no_blank
  intro c hMem
  obtain ⟨number, hNumber, rfl⟩ := Hex.exists_digit_of_mem_encode hMem
  exact Hex.not_isBlank_digit hNumber

end Blank

/-- A value of a fixed width is read back from its text. -/
theorem Fixed.ofHex_toHex {width : Nat} (fixed : Fixed width) :
    ofHex width fixed.toHex = .ok fixed := by
  rw [ofHex, toHex, Hex.decode_encode]
  exact ofBytes_bytes fixed

theorem Fixed.ofHex_trim_toHex {width : Nat} (fixed : Fixed width) :
    ofHex width (Blank.trim fixed.toHex) = .ok fixed := by
  rw [toHex, Blank.trim_hex]
  exact ofHex_toHex fixed

end DeviceLedger
