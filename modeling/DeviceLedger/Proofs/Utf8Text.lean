import DeviceLedger.Text.Utf8
import Mathlib.Tactic.IntervalCases

/-! Texts are read back from their UTF-8 bytes. The bytes of one character are one piece,
and nothing of what follows them belongs to it. -/

namespace DeviceLedger.Utf8

/-- A continuation byte within its bounds gives six more bits. -/
theorem continuation_ofNat {count : Nat} {low high : UInt8} {code digit : Nat} {rest : Bytes}
    (hDigit : digit < 64) (hLow : low.toNat ≤ 0x80 + digit) (hHigh : 0x80 + digit ≤ high.toNat) :
    continuation (count + 1) low high code (UInt8.ofNat (0x80 + digit) :: rest) =
      continuation count 0x80 0xBF (code * 64 + digit) rest := by
  have hByte : (UInt8.ofNat (0x80 + digit)).toNat = 0x80 + digit :=
    UInt8.toNat_ofNat_of_lt' (show 0x80 + digit < 256 by omega)
  have hBounds : low ≤ UInt8.ofNat (0x80 + digit) ∧ UInt8.ofNat (0x80 + digit) ≤ high := by
    rw [UInt8.le_iff_toNat_le, UInt8.le_iff_toNat_le, hByte]
    exact ⟨hLow, hHigh⟩
  rw [continuation, if_pos hBounds, hByte, Nat.add_sub_cancel_left]

theorem lead?_two {top : Nat} (hLow : 2 ≤ top) (hHigh : top < 32) :
    lead? (UInt8.ofNat (0xC0 + top)) = some ⟨1, 0x80, 0xBF, top⟩ := by
  interval_cases top <;> rfl

/-- A narrower bound on the second byte keeps out overlong forms and surrogates. -/
theorem lead?_three {top : Nat} (hHigh : top < 16) :
    lead? (UInt8.ofNat (0xE0 + top)) =
      some ⟨2, if top = 0 then 0xA0 else 0x80, if top = 13 then 0x9F else 0xBF, top⟩ := by
  interval_cases top <;> rfl

/-- A narrower bound on the second byte keeps out overlong forms and codes that are too high. -/
theorem lead?_four {top : Nat} (hHigh : top < 5) :
    lead? (UInt8.ofNat (0xF0 + top)) =
      some ⟨3, if top = 0 then 0x90 else 0x80, if top = 4 then 0x8F else 0xBF, top⟩ := by
  interval_cases top <;> rfl

/-- A lead byte begins a character of several bytes. -/
theorem piece_of_lead {byte low high : UInt8} {follow bits : Nat}
    (hLead : lead? byte = some ⟨follow, low, high, bits⟩) (rest : Bytes) :
    piece byte rest = ((continuation follow low high bits rest).1.map Char.ofNat,
      (continuation follow low high bits rest).2) := by
  have hHigh : ¬byte < 0x80 := by
    intro hLow
    rw [lead?] at hLead
    grind
  rw [piece, if_neg hHigh, hLead]

/-- The codes of characters: below the surrogates or between them and the end. -/
theorem toNat_cases (c : Char) : c.toNat < 0xD800 ∨ 0xDFFF < c.toNat ∧ c.toNat < 0x110000 :=
  c.valid

/-- A whole code makes a character. -/
theorem continuation_zero {c : Char} {code : Nat} (hCode : code = c.toNat) (low high : UInt8)
    (rest : Bytes) :
    ((continuation 0 low high code rest).1.map Char.ofNat, (continuation 0 low high code rest).2) =
      (some c, rest) := by
  rw [continuation, hCode, Option.map_some, Char.ofNat_toNat]

/-- The bytes of a character are its piece. -/
theorem exists_encodeChar (c : Char) :
    ∃ byte tail, encodeChar c = byte :: tail ∧
      ∀ rest, piece byte (tail ++ rest) = (some c, rest) := by
  have hCases := toNat_cases c
  rw [encodeChar]
  -- one case for each number of bytes; the bounds of the second byte depend on the first
  split_ifs with hOne hTwo hThree
  · refine ⟨_, [], rfl, fun rest => ?_⟩
    have hByte : (UInt8.ofNat c.toNat).toNat = c.toNat :=
      UInt8.toNat_ofNat_of_lt' (show c.toNat < 256 by omega)
    have hLow : UInt8.ofNat c.toNat < 0x80 := by
      rw [UInt8.lt_iff_toNat_lt, hByte]
      exact hOne
    rw [piece, if_pos hLow, hByte, Char.ofNat_toNat, List.nil_append]
  · refine ⟨_, _, rfl, fun rest => ?_⟩
    rw [piece_of_lead (lead?_two (by omega) (by omega)), List.cons_append,
      continuation_ofNat (by omega) (by simp) (by simp; omega)]
    exact continuation_zero (by omega) _ _ _
  · refine ⟨_, _, rfl, fun rest => ?_⟩
    rw [piece_of_lead (lead?_three (by omega)), List.cons_append, List.cons_append,
      continuation_ofNat (by omega) (by split <;> simp; omega) (by split <;> simp <;> omega),
      continuation_ofNat (by omega) (by simp) (by simp; omega)]
    exact continuation_zero (by omega) _ _ _
  · refine ⟨_, _, rfl, fun rest => ?_⟩
    rw [piece_of_lead (lead?_four (by omega)), List.cons_append, List.cons_append,
      List.cons_append,
      continuation_ofNat (by omega) (by split <;> simp; omega) (by split <;> simp <;> omega),
      continuation_ofNat (by omega) (by simp) (by simp; omega),
      continuation_ofNat (by omega) (by simp) (by simp; omega)]
    exact continuation_zero (by omega) _ _ _

theorem piecesAfter_encodeChar (found : List (Option Char)) (c : Char) (rest : Bytes) :
    piecesAfter found (encodeChar c ++ rest) = piecesAfter (some c :: found) rest := by
  obtain ⟨byte, tail, hBytes, hPiece⟩ := exists_encodeChar c
  rw [hBytes, List.cons_append, piecesAfter, hPiece]

theorem piecesAfter_flatMap (found : List (Option Char)) (characters : List Char) :
    piecesAfter found (characters.flatMap encodeChar) = found.reverse ++ characters.map some := by
  induction characters generalizing found with
  | nil => simp [piecesAfter]
  | cons c characters ih =>
      rw [List.flatMap_cons, piecesAfter_encodeChar, ih]
      simp

/-- The pieces of a text are its characters. -/
theorem pieces_encode (text : String) : pieces (encode text) = text.toList.map some :=
  piecesAfter_flatMap [] text.toList

theorem strict?_encode (text : String) : strict? (encode text) = some text := by
  have hAll (characters : List Char) : (characters.map some).mapM id = some characters := by
    induction characters with
    | nil => rfl
    | cons c characters ih => simp [ih]
  rw [strict?, pieces_encode, hAll, Option.map_some, String.ofList_toList]

theorem lossy_encode (text : String) : lossy (encode text) = text := by
  rw [lossy, pieces_encode, List.map_map]
  exact (congrArg String.ofList (List.map_id text.toList)).trans String.ofList_toList

/-- The bytes of a character are those of the library's encoding. -/
theorem encodeChar_eq (c : Char) : encodeChar c = String.utf8EncodeChar c := by
  have hCases := toNat_cases c
  have hValue : c.val.toNat = c.toNat := rfl
  rw [encodeChar, String.utf8EncodeChar, hValue]
  split_ifs with hOne hTwo hThree <;> try omega
  · rfl
  · rw [Nat.add_comm 0xC0, Nat.add_comm 0x80, Nat.mod_eq_of_lt (by omega : c.toNat / 64 < 32)]
  · rw [Nat.add_comm 0xE0, Nat.add_comm 0x80, Nat.add_comm 0x80,
      Nat.mod_eq_of_lt (by omega : c.toNat / 4096 < 16)]
  · rw [Nat.add_comm 0xF0, Nat.add_comm 0x80, Nat.add_comm 0x80, Nat.add_comm 0x80,
      Nat.mod_eq_of_lt (by omega : c.toNat / 262144 < 8)]

/-- The bytes of a text are those in which it is held. -/
theorem toByteArray_encode (text : String) : (encode text).toByteArray = text.toByteArray := by
  rw [← String.utf8Encode_toList, List.utf8Encode, encode, funext encodeChar_eq]

/-- Bytes are well-formed exactly if they are those of a text. -/
theorem isValidUTF8_iff_exists_encode {bytes : Bytes} :
    bytes.toByteArray.IsValidUTF8 ↔ ∃ text, encode text = bytes := by
  constructor
  · rintro ⟨characters, hBytes⟩
    refine ⟨String.ofList characters, List.toByteArray_inj.mp ?_⟩
    rw [toByteArray_encode, String.toByteArray_ofList, hBytes]
  · rintro ⟨text, rfl⟩
    exact ⟨text.toList, (toByteArray_encode text).trans String.utf8Encode_toList.symm⟩

/-- Of well-formed bytes, and of no others, the text has these bytes again. -/
theorem encode_lossy_eq_self_iff {bytes : Bytes} :
    encode (lossy bytes) = bytes ↔ bytes.toByteArray.IsValidUTF8 := by
  rw [isValidUTF8_iff_exists_encode]
  constructor
  · intro hSame
    exact ⟨lossy bytes, hSame⟩
  · rintro ⟨text, rfl⟩
    rw [lossy_encode]

/-- A byte below 128 is a character by itself. -/
theorem toNat_eq_of_mem_encodeChar {c : Char} {byte : UInt8} (hMem : byte ∈ encodeChar c)
    (hAscii : byte.toNat < 0x80) : byte.toNat = c.toNat := by
  have hCases := toNat_cases c
  have hHigh {code : Nat} (hLow : 0x80 ≤ code) (hByte : code < 256) :
      ¬(UInt8.ofNat code).toNat < 0x80 := by
    rw [UInt8.toNat_ofNat_of_lt' hByte]
    omega
  rw [encodeChar] at hMem
  split_ifs at hMem <;> simp only [List.mem_cons, List.not_mem_nil, or_false] at hMem
  · rw [hMem]
    exact UInt8.toNat_ofNat_of_lt' (show c.toNat < 256 by omega)
  · rcases hMem with rfl | rfl <;> exact absurd hAscii (hHigh (by omega) (by omega))
  · rcases hMem with rfl | rfl | rfl <;> exact absurd hAscii (hHigh (by omega) (by omega))
  · rcases hMem with rfl | rfl | rfl | rfl <;> exact absurd hAscii (hHigh (by omega) (by omega))

/-- The bytes of a text hold a byte below 128 only if the text holds its character. -/
theorem not_mem_encode {c : Char} (hAscii : c.toNat < 0x80) {text : String}
    (hText : c ∉ text.toList) : UInt8.ofNat c.toNat ∉ encode text := by
  intro hMem
  obtain ⟨other, hOther, hByte⟩ := List.mem_flatMap.mp hMem
  have hCode : (UInt8.ofNat c.toNat).toNat = c.toNat :=
    UInt8.toNat_ofNat_of_lt' (show c.toNat < 256 by omega)
  have hSame : c.toNat = other.toNat :=
    hCode.symm.trans (toNat_eq_of_mem_encodeChar hByte (by omega))
  apply hText
  rwa [Char.toNat_inj.mp hSame]

end DeviceLedger.Utf8
