import DeviceLedger.Bytes

/-!
UTF-8. A byte string splits into pieces: whole characters, and between them maximal ill-formed
parts, each of which is a lead byte with those of its continuation bytes that may follow it, or one
byte that begins no character. `lossy` shows every ill-formed part as one U+FFFD and `strict?`
refuses them.
-/

namespace DeviceLedger.Utf8

def encodeChar (c : Char) : Bytes :=
  let code := c.toNat
  if code < 0x80 then
    [UInt8.ofNat code]
  else if code < 0x800 then
    [UInt8.ofNat (0xC0 + code / 64), UInt8.ofNat (0x80 + code % 64)]
  else if code < 0x10000 then
    [UInt8.ofNat (0xE0 + code / 4096), UInt8.ofNat (0x80 + code / 64 % 64),
      UInt8.ofNat (0x80 + code % 64)]
  else
    [UInt8.ofNat (0xF0 + code / 262144), UInt8.ofNat (0x80 + code / 4096 % 64),
      UInt8.ofNat (0x80 + code / 64 % 64), UInt8.ofNat (0x80 + code % 64)]

def encode (text : String) : Bytes :=
  text.toList.flatMap encodeChar

/-- What a lead byte of several bytes promises: how many bytes follow, between which bounds the
first of them lies, and the high bits that it gives to the character. -/
structure Lead where
  follow : Nat
  low : UInt8
  high : UInt8
  bits : Nat

/-- The lead bytes of characters of two to four bytes. The bounds on the second byte keep out
overlong forms, surrogates and codes above U+10FFFF. -/
def lead? (byte : UInt8) : Option Lead :=
  if 0xC2 ≤ byte ∧ byte ≤ 0xDF then some ⟨1, 0x80, 0xBF, byte.toNat - 0xC0⟩
  else if byte = 0xE0 then some ⟨2, 0xA0, 0xBF, 0⟩
  else if byte = 0xED then some ⟨2, 0x80, 0x9F, 0xD⟩
  else if 0xE1 ≤ byte ∧ byte ≤ 0xEF then some ⟨2, 0x80, 0xBF, byte.toNat - 0xE0⟩
  else if byte = 0xF0 then some ⟨3, 0x90, 0xBF, 0⟩
  else if byte = 0xF4 then some ⟨3, 0x80, 0x8F, 4⟩
  else if 0xF1 ≤ byte ∧ byte ≤ 0xF3 then some ⟨3, 0x80, 0xBF, byte.toNat - 0xF0⟩
  else none

/-- The continuation bytes of a character: the whole code if all of them are there, and what is
left after them. A byte outside its bounds stays in what is left. -/
def continuation : Nat → UInt8 → UInt8 → Nat → Bytes → Option Nat × Bytes
  | 0, _, _, code, rest => (some code, rest)
  | _ + 1, _, _, _, [] => (none, [])
  | count + 1, low, high, code, byte :: rest =>
    if low ≤ byte ∧ byte ≤ high then
      continuation count 0x80 0xBF (code * 64 + (byte.toNat - 0x80)) rest
    else
      (none, byte :: rest)

/-- The first piece of a nonempty byte string, a character or `none` for an ill-formed part, and
the bytes after it. -/
def piece (byte : UInt8) (rest : Bytes) : Option Char × Bytes :=
  if byte < 0x80 then (some (Char.ofNat byte.toNat), rest)
  else
    match lead? byte with
    | none => (none, rest)
    | some lead =>
      let (code, left) := continuation lead.follow lead.low lead.high lead.bits rest
      (code.map Char.ofNat, left)

theorem length_continuation_le (count : Nat) (low high : UInt8) (code : Nat) (bytes : Bytes) :
    (continuation count low high code bytes).2.length ≤ bytes.length := by
  induction count generalizing low high code bytes with
  | zero => simp [continuation]
  | succ count ih =>
    cases bytes with
    | nil => simp [continuation]
    | cons byte rest =>
      simp only [continuation]
      split
      · exact Nat.le_trans (ih ..) (by simp)
      · simp

theorem length_piece_le (byte : UInt8) (rest : Bytes) :
    (piece byte rest).2.length ≤ rest.length := by
  unfold piece
  split
  · simp
  · split
    · simp
    · exact length_continuation_le ..

/-- The pieces of a byte string behind those already found, the latest of which comes first. -/
def piecesAfter (found : List (Option Char)) : Bytes → List (Option Char)
  | [] => found.reverse
  | byte :: rest => piecesAfter ((piece byte rest).1 :: found) (piece byte rest).2
termination_by bytes => bytes.length
decreasing_by
  have hLe := length_piece_le byte rest
  simp only [List.length_cons]
  omega

/-- The characters of a byte string in order, `none` for each maximal ill-formed part. -/
def pieces (bytes : Bytes) : List (Option Char) :=
  piecesAfter [] bytes

/-- The character that stands for an ill-formed part. -/
def replacement : Char := '\ufffd'

/-- The text of a byte string, with one U+FFFD for each maximal ill-formed part. -/
def lossy (bytes : Bytes) : String :=
  String.ofList ((pieces bytes).map fun found => found.getD replacement)

/-- The text of a well-formed byte string. -/
def strict? (bytes : Bytes) : Option String :=
  ((pieces bytes).mapM id).map String.ofList

end DeviceLedger.Utf8
