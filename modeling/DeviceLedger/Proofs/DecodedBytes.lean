import DeviceLedger.Proofs.CursorReads

/-! What the decoders accept, and what they keep of it. A value that is accepted is spelled
by its record, up to one flag byte of which several spellings mean the same. -/

namespace DeviceLedger

/-- A change of the byte behind the first bytes. -/
theorem Bytes.modify_append_cons (before : Bytes) (byte : UInt8) (rest : Bytes)
    (change : UInt8 → UInt8) :
    (before ++ byte :: rest).modify before.length change = before ++ change byte :: rest := by
  induction before with
  | nil => simp
  | cons first before ih => simp [ih]

/-- A byte of which several spellings mean the same: where it stands in a value of a given
length, and how it is spelled when it is written. -/
structure FlagByte where
  position : Nat → Nat
  written : UInt8 → UInt8

/-- The value with its flag, if its layout has one, spelled as it is written. -/
def FlagByte.respell : Option FlagByte → Bytes → Bytes
  | none, value => value
  | some flag, value => value.modify (flag.position value.length) flag.written

@[simp] theorem FlagByte.length_respell (flag : Option FlagByte) (value : Bytes) :
    (respell flag value).length = value.length := by
  cases flag with
  | none => rfl
  | some flag => exact List.length_modify _ _ _

theorem FlagByte.getElem?_respell {flag : Option FlagByte} {value : Bytes} {index : Nat}
    (hIndex : ∀ byte, flag = some byte → byte.position value.length ≠ index) :
    (respell flag value)[index]? = value[index]? := by
  cases flag with
  | none => rfl
  | some byte => simp [respell, hIndex byte rfl]

/-- A decoder accepts exactly the values of a layout and keeps everything of them but the
spelling of a flag. -/
structure KeepsAllBut {ε α : Type} (flag : Option FlagByte) (decode : Bytes → Except ε α)
    (encode : α → Except ε Bytes) (Accepted : Bytes → Prop) : Prop where
  accepts_iff : ∀ value, (∃ record, decode value = .ok record) ↔ Accepted value
  encode_decoded : ∀ value record, decode value = .ok record →
    encode record = .ok (FlagByte.respell flag value)
  decode_again : ∀ value, (decode value >>= encode >>= decode) = decode value
  agree : ∀ value other record, decode value = .ok record → decode other = .ok record →
    value.length = other.length ∧
      ∀ index, (∀ byte, flag = some byte → byte.position value.length ≠ index) →
        value[index]? = other[index]?

/-- It suffices that a decoded record is written as the value with its flag respelled, and
that the respelled value means the same. -/
theorem KeepsAllBut.of_respell {ε α : Type} {flag : Option FlagByte}
    {decode : Bytes → Except ε α} {encode : α → Except ε Bytes} {Accepted : Bytes → Prop}
    (hAccepted : ∀ value, (∃ record, decode value = .ok record) ↔ Accepted value)
    (hRespell : ∀ value record, decode value = .ok record →
      encode record = .ok (FlagByte.respell flag value) ∧
        decode (FlagByte.respell flag value) = .ok record) :
    KeepsAllBut flag decode encode Accepted := by
  refine ⟨hAccepted, fun value record hDecode => (hRespell value record hDecode).1, ?_, ?_⟩
  · intro value
    cases hDecode : decode value with
    | error error => rfl
    | ok record =>
        obtain ⟨hEncode, hAgain⟩ := hRespell value record hDecode
        calc (Except.ok record >>= encode >>= decode) = encode record >>= decode := rfl
          _ = decode (FlagByte.respell flag value) := by rw [hEncode]; rfl
          _ = .ok record := hAgain
  · intro value other record hValue hOther
    have hSame : FlagByte.respell flag value = FlagByte.respell flag other := by
      have hBoth := (hRespell value record hValue).1.symm.trans (hRespell other record hOther).1
      exact Except.ok.inj hBoth
    have hLength : value.length = other.length := by
      have hLengths := congrArg List.length hSame
      simpa using hLengths
    refine ⟨hLength, ?_⟩
    intro index hIndex
    calc value[index]? = (FlagByte.respell flag value)[index]? :=
          (FlagByte.getElem?_respell hIndex).symm
      _ = (FlagByte.respell flag other)[index]? := by rw [hSame]
      _ = other[index]? := FlagByte.getElem?_respell (hLength ▸ hIndex)

/-- Without a flag a decoded record is written as the value. -/
theorem KeepsAllBut.of_eq {ε α : Type} {decode : Bytes → Except ε α}
    {encode : α → Except ε Bytes} {Accepted : Bytes → Prop}
    (hAccepted : ∀ value, (∃ record, decode value = .ok record) ↔ Accepted value)
    (hEncode : ∀ value record, decode value = .ok record → encode record = .ok value) :
    KeepsAllBut none decode encode Accepted :=
  .of_respell hAccepted fun value record hDecode => ⟨hEncode value record hDecode, hDecode⟩

/-- A bare amount is spelled in one way only. -/
theorem decodeAmount_eq_ok_iff {entity : String} {value : Bytes} {amount : UInt64} :
    decodeAmount entity value = .ok amount ↔ value = encodeAmount amount := by
  constructor
  · exact Cursor.findsOnly_u64.of_run
  · rintro rfl
    exact decodeAmount_encodeAmount entity amount

theorem decodeAmount_accepts_iff (entity : String) (value : Bytes) :
    (∃ amount, decodeAmount entity value = .ok amount) ↔ value.length = 8 := by
  constructor
  · rintro ⟨amount, hDecode⟩
    rw [decodeAmount_eq_ok_iff.mp hDecode, length_encodeAmount]
  · exact Cursor.accepts_u64.run_ok entity

namespace Units

/-- Words that follow each other are the bytes in which they were found. -/
theorem flatMap_ofFn_words (count : Nat) {bytes : Bytes} (hLength : bytes.length = 8 * count) :
    (List.ofFn fun index : Fin count =>
      Bytes.toUInt64 ((bytes.drop (8 * index.val)).take 8)).flatMap Bytes.ofUInt64 = bytes := by
  induction count generalizing bytes with
  | zero =>
      have hNil : bytes = [] := List.length_eq_zero_iff.mp (by omega)
      rw [hNil]
      rfl
  | succ count ih =>
      have hFirst : (bytes.take 8).length = 8 := by
        rw [List.length_take]
        omega
      have hRest : (bytes.drop 8).length = 8 * count := by
        rw [List.length_drop]
        omega
      have hShift : ∀ index : Fin count,
          bytes.drop (8 * (index.val + 1)) = (bytes.drop 8).drop (8 * index.val) := by
        intro index
        rw [List.drop_drop]
        congr 1
        omega
      rw [List.ofFn_succ, List.flatMap_cons]
      simp only [Fin.val_zero, Nat.mul_zero, List.drop_zero, Fin.val_succ, hShift]
      rw [Bytes.ofUInt64_toUInt64 hFirst, ih hRest, List.take_append_drop]

/-- Forty bytes are the bytes of the five numbers found in them. -/
theorem toBytes_atStart {bytes : Bytes} (hLength : bytes.length = 40) :
    (atStart bytes).toBytes = bytes := by
  rw [toBytes, atStart, Vector.toList_ofFn]
  exact flatMap_ofFn_words 5 hLength

theorem ofBytes_eq_ok_iff {bytes : Bytes} {units : Units} :
    ofBytes bytes = .ok units ↔ bytes = units.toBytes := by
  constructor
  · intro hUnits
    rw [ofBytes] at hUnits
    split at hUnits
    · rename_i hLength
      cases hUnits
      exact (toBytes_atStart hLength).symm
    · cases hUnits
  · rintro rfl
    exact units.ofBytes_toBytes

theorem accepts_iff (bytes : Bytes) : (∃ units, ofBytes bytes = .ok units) ↔ bytes.length = 40 := by
  constructor
  · rintro ⟨units, hUnits⟩
    rw [ofBytes_eq_ok_iff.mp hUnits, length_toBytes]
  · intro hLength
    exact ⟨atStart bytes, if_pos hLength⟩

end Units

namespace TransactionRecord

/-- The outcome, for which any byte but 0 is success, is written as 1 or 0. -/
def outcomeFlag : FlagByte := ⟨fun _ => 8, fun byte => if byte = 0 then 0 else 1⟩

theorem respell_spelled (record : TransactionRecord) (outcome : UInt8) :
    FlagByte.respell (some outcomeFlag) (record.spelled outcome) =
      record.spelled (outcomeFlag.written outcome) := by
  have hPosition : 8 = (Bytes.ofUInt64 record.timestamp.toUInt64).length := by simp
  rw [FlagByte.respell, outcomeFlag, hPosition, spelled, List.singleton_append,
    Bytes.modify_append_cons]
  rfl

/-- Any byte but 0 spells success. -/
theorem decode_eq_ok_iff {value : Bytes} {record : TransactionRecord} :
    decode value = .ok record ↔
      ∃ outcome, record.success = (outcome != 0) ∧ value = record.spelled outcome := by
  constructor
  · intro hDecode
    -- the reads of the decoder in their order, and what each of them found
    obtain ⟨timestamp, _, _, rfl, rfl, outcome, _, _, rfl, rfl, units, _, _, rfl, ⟨rfl, hUnits⟩,
      fee, rfl, rfl⟩ := (Cursor.findsOnly_u64.bind fun timestamp => Cursor.findsOnly_u8.bind
        fun outcome => (Cursor.findsOnly_take 40).bind fun units =>
          Cursor.findsOnly_u64.bind_pure fun fee => TransactionRecord.mk timestamp.toInt64
            (outcome != 0) (Units.atStart units) fee).of_run hDecode
    exact ⟨outcome, rfl, by simp [spelled, Units.toBytes_atStart hUnits]⟩
  · rintro ⟨outcome, hSuccess, rfl⟩
    rw [decode_spelled, ← hSuccess]

theorem accepts_iff (value : Bytes) :
    (∃ record, decode value = .ok record) ↔ value.length = 57 := by
  constructor
  · rintro ⟨record, hDecode⟩
    obtain ⟨outcome, -, rfl⟩ := decode_eq_ok_iff.mp hDecode
    exact record.length_spelled outcome
  · exact (Cursor.accepts_u64.bind fun _ => Cursor.accepts_u8.bind fun _ =>
      (Cursor.accepts_take 40).bind fun _ => Cursor.accepts_u64.bind_pure _).run_ok "transaction"

theorem keepsAllBut_outcome :
    KeepsAllBut (some outcomeFlag) decode (fun record => .ok record.encode)
      fun value => value.length = 57 := by
  refine .of_respell accepts_iff ?_
  intro value record hDecode
  obtain ⟨outcome, hSuccess, rfl⟩ := decode_eq_ok_iff.mp hDecode
  have hWritten : record.spelled (outcomeFlag.written outcome) = record.encode := by
    rw [encode_eq, hSuccess, outcomeFlag]
    by_cases hZero : outcome = 0 <;> simp [hZero]
  rw [respell_spelled, hWritten]
  exact ⟨rfl, record.decode_encode⟩

end TransactionRecord

namespace OrderRecord

theorem decode_eq_ok_iff {value : Bytes} {record : OrderRecord} :
    decode value = .ok record ↔ value = record.encode := by
  constructor
  · intro hDecode
    obtain ⟨input, _, _, rfl, rfl, inTick, _, _, rfl, rfl, output, _, _, rfl, rfl, outTick, _, _,
      rfl, rfl, remaining, _, _, rfl, rfl, owner, rfl, rfl⟩ :=
      ((Cursor.findsOnly_fixed 32).bind fun input => Cursor.findsOnly_u64.bind fun inTick =>
        (Cursor.findsOnly_fixed 32).bind fun output => Cursor.findsOnly_u64.bind fun outTick =>
          Cursor.findsOnly_u64.bind fun remaining => (Cursor.findsOnly_fixed 33).bind_pure
            fun owner => OrderRecord.mk input inTick output outTick remaining owner).of_run hDecode
    rw [encode_eq]
  · rintro rfl
    exact record.decode_encode

theorem accepts_iff (value : Bytes) :
    (∃ record, decode value = .ok record) ↔ value.length = 121 := by
  constructor
  · rintro ⟨record, hDecode⟩
    rw [decode_eq_ok_iff.mp hDecode, length_encode]
  · exact ((Cursor.accepts_fixed 32).bind fun _ => Cursor.accepts_u64.bind fun _ =>
      (Cursor.accepts_fixed 32).bind fun _ => Cursor.accepts_u64.bind fun _ =>
        Cursor.accepts_u64.bind fun _ => (Cursor.accepts_fixed 33).bind_pure _).run_ok "order"

end OrderRecord

namespace ProjectRecord

theorem decode_eq_ok_iff {value : Bytes} {record : ProjectRecord} :
    decode value = .ok record ↔ record.FillsSlots ∧ value = record.encode := by
  constructor
  · intro hDecode
    obtain ⟨name, _, _, rfl, ⟨rfl, hName⟩, description, _, _, rfl, ⟨rfl, hDescription⟩, owner, _,
      _, rfl, ⟨rfl, hOwner⟩, logo, ⟨rfl, hLogo⟩, rfl⟩ :=
      ((Cursor.findsOnly_take 32).bind fun name => (Cursor.findsOnly_take 100).bind
        fun description => (Cursor.findsOnly_take 500).bind fun owner =>
          (Cursor.findsOnly_take 100).bind_pure fun logo =>
            ProjectRecord.mk name description owner logo).of_run hDecode
    exact ⟨⟨hName, hDescription, hOwner, hLogo⟩, by rw [encode_eq]⟩
  · rintro ⟨hSlots, rfl⟩
    exact decode_encode hSlots

theorem accepts_iff (value : Bytes) :
    (∃ record, decode value = .ok record) ↔ value.length = 732 := by
  constructor
  · rintro ⟨record, hDecode⟩
    obtain ⟨hSlots, rfl⟩ := decode_eq_ok_iff.mp hDecode
    exact length_encode hSlots
  · exact ((Cursor.accepts_take 32).bind fun _ => (Cursor.accepts_take 100).bind fun _ =>
      (Cursor.accepts_take 500).bind fun _ => (Cursor.accepts_take 100).bind_pure _).run_ok
        "project"

end ProjectRecord

namespace UpdateRecord

theorem decode_eq_ok_iff {value : Bytes} {record : UpdateRecord} :
    decode value = .ok record ↔ record.FillsSlots ∧ value = record.encode := by
  constructor
  · intro hDecode
    obtain ⟨projectId, _, _, rfl, ⟨rfl, hProject⟩, executableHash, _, _, rfl, ⟨rfl, hHash⟩,
      ipfsUrl, _, _, rfl, ⟨rfl, hUrl⟩, deviceName, _, _, rfl, ⟨rfl, hDevice⟩, version, _, _, rfl,
      rfl, successCount, rfl, rfl⟩ :=
      ((Cursor.findsOnly_take 100).bind fun projectId => (Cursor.findsOnly_take 100).bind
        fun executableHash => (Cursor.findsOnly_take 100).bind fun ipfsUrl =>
          (Cursor.findsOnly_take 100).bind fun deviceName => Cursor.findsOnly_u8.bind
            fun version => Cursor.findsOnly_u8.bind_pure fun successCount => UpdateRecord.mk
              projectId executableHash ipfsUrl deviceName version successCount).of_run hDecode
    exact ⟨⟨hProject, hHash, hUrl, hDevice⟩, by rw [encode_eq]⟩
  · rintro ⟨hSlots, rfl⟩
    exact decode_encode hSlots

theorem accepts_iff (value : Bytes) :
    (∃ record, decode value = .ok record) ↔ value.length = 402 := by
  constructor
  · rintro ⟨record, hDecode⟩
    obtain ⟨hSlots, rfl⟩ := decode_eq_ok_iff.mp hDecode
    exact length_encode hSlots
  · exact ((Cursor.accepts_take 100).bind fun _ => (Cursor.accepts_take 100).bind fun _ =>
      (Cursor.accepts_take 100).bind fun _ => (Cursor.accepts_take 100).bind fun _ =>
        Cursor.accepts_u8.bind fun _ => Cursor.accepts_u8.bind_pure _).run_ok "update"

end UpdateRecord

/-- The number in the two bytes at an offset, if they lie inside. -/
def Bytes.numberAt? (bytes : Bytes) (offset : Nat) : Option Nat :=
  if offset + 2 ≤ bytes.length then some (value ((bytes.drop offset).take 2)) else none

theorem Bytes.numberAt?_append (before : Bytes) (number : UInt16) (rest : Bytes) :
    numberAt? (before ++ (ofUInt16 number ++ rest)) before.length = some number.toNat := by
  have hTwo : (ofUInt16 number ++ rest).take 2 = ofUInt16 number :=
    List.take_left' (length_ofUInt16 number)
  have hLt : number.toNat < 256 ^ 2 := number.toNat_lt
  rw [numberAt?, if_pos (by simp), List.drop_left, hTwo, ofUInt16, value_bigEndian,
    Nat.mod_eq_of_lt hLt]

/-- Two bytes at an offset inside are those of the number there. -/
theorem Bytes.eq_ofUInt16_of_numberAt? (before : Bytes) {two rest : Bytes} {number : Nat}
    (hTwo : two.length = 2)
    (hNumber : numberAt? (before ++ (two ++ rest)) before.length = some number) :
    number ≤ Writer.sizedLimit ∧ two = ofUInt16 (UInt16.ofNat number) := by
  have hBytes := ofUInt16_toUInt16 hTwo
  have hLt := (toUInt16 two).toNat_lt
  rw [← hBytes, numberAt?_append] at hNumber
  rw [← Option.some.inj hNumber, UInt16.ofNat_toNat]
  exact ⟨Nat.le_of_lt_succ hLt, hBytes.symm⟩

/-- A byte string as long as two together falls into the two. -/
theorem Bytes.exists_append_of_length {bytes : Bytes} {first second : Nat}
    (hLength : bytes.length = first + second) :
    ∃ front back : Bytes, bytes = front ++ back ∧ front.length = first ∧ back.length = second := by
  refine ⟨bytes.take first, bytes.drop first, (List.take_append_drop first bytes).symm, ?_, ?_⟩
  · rw [List.length_take]
    omega
  · rw [List.length_drop]
    omega

namespace AssetRecord

/-- The mark of a warped asset, for which only the byte 1 stands, is written as 1 or 0. -/
def warpFlag : FlagByte := ⟨fun length => length - 1, fun byte => if byte = 1 then 1 else 0⟩

/-- A value whose length is what the two lengths in it say. -/
def Laid (value : Bytes) : Prop :=
  ∃ symbol metadata, value.numberAt? 0 = some symbol ∧
    value.numberAt? (symbol + 3) = some metadata ∧ value.length = symbol + metadata + 47

/-- The mark is the last byte. -/
theorem exists_spelled_eq_append (record : AssetRecord) :
    ∃ body : Bytes, ∀ warp, record.spelled warp = body ++ [warp] :=
  ⟨(Bytes.ofUInt16 (UInt16.ofNat record.symbol.length) ++ record.symbol) ++ ([record.decimals] ++
    ((Bytes.ofUInt16 (UInt16.ofNat record.metadata.length) ++ record.metadata) ++
      (Bytes.ofUInt64 record.supply ++ record.owner.bytes))), fun warp => by simp [spelled]⟩

theorem respell_spelled (record : AssetRecord) (warp : UInt8) :
    FlagByte.respell (some warpFlag) (record.spelled warp) =
      record.spelled (warpFlag.written warp) := by
  obtain ⟨body, hBody⟩ := record.exists_spelled_eq_append
  have hPosition : warpFlag.position (body ++ [warp]).length = body.length := by
    simp [warpFlag]
  rw [hBody, hBody, FlagByte.respell, hPosition, Bytes.modify_append_cons]

/-- Only the byte 1 marks a warped asset. -/
theorem decode_eq_ok_iff {value : Bytes} {record : AssetRecord} :
    decode value = .ok record ↔ record.Fits ∧
      ∃ warp, record.warp = (warp == 1) ∧ value = record.spelled warp := by
  constructor
  · intro hDecode
    obtain ⟨symbol, _, _, rfl, ⟨hSymbol, rfl⟩, decimals, _, _, rfl, rfl, metadata, _, _, rfl,
      ⟨hMetadata, rfl⟩, supply, _, _, rfl, rfl, owner, _, _, rfl, rfl, warp, rfl, rfl⟩ :=
      (Cursor.findsOnly_sized.bind fun symbol => Cursor.findsOnly_u8.bind fun decimals =>
        Cursor.findsOnly_sized.bind fun metadata => Cursor.findsOnly_u64.bind fun supply =>
          (Cursor.findsOnly_fixed 33).bind fun owner => Cursor.findsOnly_u8.bind_pure fun warp =>
            AssetRecord.mk symbol decimals metadata supply owner (warp == 1)).of_run hDecode
    exact ⟨⟨hSymbol, hMetadata⟩, warp, rfl, rfl⟩
  · rintro ⟨hFits, warp, hWarp, rfl⟩
    rw [decode_spelled hFits, ← hWarp]

theorem laid_spelled {record : AssetRecord} (hFits : record.Fits) (warp : UInt8) :
    Laid (record.spelled warp) := by
  obtain ⟨hSymbol, hMetadata⟩ := hFits
  have hFirst := Bytes.numberAt?_append [] (UInt16.ofNat record.symbol.length)
    (record.symbol ++ ([record.decimals] ++
      ((Bytes.ofUInt16 (UInt16.ofNat record.metadata.length) ++ record.metadata) ++
        (Bytes.ofUInt64 record.supply ++ (record.owner.bytes ++ [warp])))))
  have hSecond := Bytes.numberAt?_append
    (Bytes.ofUInt16 (UInt16.ofNat record.symbol.length) ++ (record.symbol ++ [record.decimals]))
    (UInt16.ofNat record.metadata.length)
    (record.metadata ++ (Bytes.ofUInt64 record.supply ++ (record.owner.bytes ++ [warp])))
  have hOffset : (Bytes.ofUInt16 (UInt16.ofNat record.symbol.length) ++
      (record.symbol ++ [record.decimals])).length = record.symbol.length + 3 := by
    simp
    omega
  rw [Writer.toNat_ofNat_of_le_sizedLimit hSymbol] at hFirst
  rw [Writer.toNat_ofNat_of_le_sizedLimit hMetadata, hOffset] at hSecond
  refine ⟨record.symbol.length, record.metadata.length, ?_, ?_, ?_⟩
  · simpa [spelled] using hFirst
  · simpa [spelled] using hSecond
  · rw [length_spelled, encodedLength]
    omega

/-- A value of the right length falls into the fields of a record. -/
theorem exists_spelled_of_laid {value : Bytes} (hLaid : Laid value) :
    ∃ (record : AssetRecord) (warp : UInt8), record.Fits ∧ value = record.spelled warp := by
  obtain ⟨symbolLength, metadataLength, hSymbol, hMetadata, hLength⟩ := hLaid
  have hFields : value.length =
      2 + (symbolLength + (1 + (2 + (metadataLength + (8 + (33 + 1)))))) := by omega
  obtain ⟨symbolPrefix, _, rfl, hTwo, hRest⟩ := Bytes.exists_append_of_length hFields
  obtain ⟨symbol, _, rfl, hSymbolLength, hRest⟩ := Bytes.exists_append_of_length hRest
  obtain ⟨_, _, rfl, hOne, hRest⟩ := Bytes.exists_append_of_length hRest
  obtain ⟨metadataPrefix, _, rfl, hTwo', hRest⟩ := Bytes.exists_append_of_length hRest
  obtain ⟨metadata, _, rfl, hMetadataLength, hRest⟩ := Bytes.exists_append_of_length hRest
  obtain ⟨supply, _, rfl, hEight, hRest⟩ := Bytes.exists_append_of_length hRest
  obtain ⟨owner, _, rfl, hOwner, hLast⟩ := Bytes.exists_append_of_length hRest
  obtain ⟨decimals, rfl⟩ := List.length_eq_one_iff.mp hOne
  obtain ⟨warp, rfl⟩ := List.length_eq_one_iff.mp hLast
  -- the two prefixes stand where `Laid` looks for the lengths
  have hFirst := Bytes.eq_ofUInt16_of_numberAt? [] hTwo hSymbol
  have hBefore : (symbolPrefix ++ (symbol ++ [decimals])).length = symbolLength + 3 := by
    rw [List.length_append, List.length_append, hTwo, hSymbolLength, List.length_singleton]
    omega
  have hOffset : Bytes.numberAt? (symbolPrefix ++ (symbol ++ [decimals]) ++
      (metadataPrefix ++ (metadata ++ (supply ++ (owner ++ [warp])))))
      (symbolPrefix ++ (symbol ++ [decimals])).length = some metadataLength := by
    rw [hBefore, ← hMetadata]
    simp
  have hSecond := Bytes.eq_ofUInt16_of_numberAt? _ hTwo' hOffset
  obtain ⟨hSymbolFits, rfl⟩ := hFirst
  obtain ⟨hMetadataFits, rfl⟩ := hSecond
  refine ⟨⟨symbol, decimals, metadata, Bytes.toUInt64 supply, ⟨owner, hOwner⟩, warp == 1⟩, warp,
    ⟨hSymbolLength.le.trans hSymbolFits, hMetadataLength.le.trans hMetadataFits⟩, ?_⟩
  simp [spelled, hSymbolLength, hMetadataLength, Bytes.ofUInt64_toUInt64 hEight]

theorem accepts_iff (value : Bytes) : (∃ record, decode value = .ok record) ↔ Laid value := by
  constructor
  · rintro ⟨record, hDecode⟩
    obtain ⟨hFits, warp, -, rfl⟩ := decode_eq_ok_iff.mp hDecode
    exact laid_spelled hFits warp
  · intro hLaid
    obtain ⟨record, warp, hFits, rfl⟩ := exists_spelled_of_laid hLaid
    exact ⟨_, decode_spelled hFits warp⟩

theorem keepsAllBut_warp : KeepsAllBut (some warpFlag) decode encode Laid := by
  refine .of_respell accepts_iff ?_
  intro value record hDecode
  obtain ⟨hFits, warp, hWarp, rfl⟩ := decode_eq_ok_iff.mp hDecode
  have hWritten : record.spelled (warpFlag.written warp) = record.layout := by
    rw [layout_eq, hWarp, warpFlag]
    by_cases hOne : warp = 1 <;> simp [hOne]
  rw [respell_spelled, hWritten]
  exact ⟨encode_of_fits hFits, decode_layout hFits⟩

end AssetRecord

/-- Every decoder accepts exactly the values of its layout: those of its length, or for an
asset those whose length is what the two lengths inside them say. A decoded record is
written as the value from which it was read, and two values mean the same record only if
they agree in every byte; excepted are the outcome of a transaction, whose byte 8 is
written as 1 unless it is 0, and the mark of a warped asset, whose last byte is written as
0 unless it is 1. -/
theorem decoders_keep_all_but_flags :
    (∀ entity : String, KeepsAllBut none (decodeAmount entity)
      (fun amount => .ok (encodeAmount amount)) fun value => value.length = 8) ∧
    KeepsAllBut none Units.ofBytes (fun units => .ok units.toBytes)
      (fun value => value.length = 40) ∧
    KeepsAllBut (some ⟨fun _ => 8, fun byte => if byte = 0 then 0 else 1⟩)
      TransactionRecord.decode (fun record => .ok record.encode) (fun value => value.length = 57) ∧
    KeepsAllBut none OrderRecord.decode (fun record => .ok record.encode)
      (fun value => value.length = 121) ∧
    KeepsAllBut none ProjectRecord.decode (fun record => .ok record.encode)
      (fun value => value.length = 732) ∧
    KeepsAllBut none UpdateRecord.decode (fun record => .ok record.encode)
      (fun value => value.length = 402) ∧
    KeepsAllBut (some ⟨fun length => length - 1, fun byte => if byte = 1 then 1 else 0⟩)
      AssetRecord.decode AssetRecord.encode
      (fun value => ∃ symbol metadata, value.numberAt? 0 = some symbol ∧
        value.numberAt? (symbol + 3) = some metadata ∧
          value.length = symbol + metadata + 47) := by
  refine ⟨?_, ?_, ?_, ?_, ?_, ?_, ?_⟩
  · intro entity
    refine .of_eq (decodeAmount_accepts_iff entity) ?_
    intro value amount hDecode
    rw [decodeAmount_eq_ok_iff.mp hDecode]
  · refine .of_eq Units.accepts_iff ?_
    intro value units hDecode
    rw [Units.ofBytes_eq_ok_iff.mp hDecode]
  · exact TransactionRecord.keepsAllBut_outcome
  · refine .of_eq OrderRecord.accepts_iff ?_
    intro value record hDecode
    rw [OrderRecord.decode_eq_ok_iff.mp hDecode]
  · refine .of_eq ProjectRecord.accepts_iff ?_
    intro value record hDecode
    rw [(ProjectRecord.decode_eq_ok_iff.mp hDecode).2]
  · refine .of_eq UpdateRecord.accepts_iff ?_
    intro value record hDecode
    rw [(UpdateRecord.decode_eq_ok_iff.mp hDecode).2]
  · exact AssetRecord.keepsAllBut_warp

end DeviceLedger
