import DeviceLedger.Proofs.BigEndian
import DeviceLedger.Proofs.Runs
import DeviceLedger.Record.Asset
import DeviceLedger.Record.Order
import DeviceLedger.Record.Project
import DeviceLedger.Record.Transaction
import DeviceLedger.Record.Update

/-! Every record is read back from its bytes, of which there are as many as its layout
says. A field is read back wherever it lies in the data, so fields are put together by
appending their bytes. -/

namespace DeviceLedger

/-- The length of a sized field fits into its two bytes. -/
theorem Writer.toNat_ofNat_of_le_sizedLimit {length : Nat} (hLength : length ≤ sizedLimit) :
    (UInt16.ofNat length).toNat = length := by
  rw [UInt16.toNat_ofNat', Nat.mod_eq_of_lt]
  exact Nat.lt_succ_of_le hLength

namespace Cursor

variable {α β : Type}

/-- A read finds a value in exactly these bytes, whatever stands before and behind them. -/
def Parses (read : Read α) (bytes : Bytes) (found : α) : Prop :=
  ∀ (entity : String) (before rest : Bytes),
    read ⟨entity, before ++ bytes ++ rest, before.length⟩ =
      (.ok found, ⟨entity, before ++ bytes ++ rest, (before ++ bytes).length⟩)

theorem Parses.pure (found : α) : Parses (Pure.pure found) [] found := by
  intro entity before rest
  rw [List.append_nil]
  rfl

theorem Parses.bind {read : Read α} {next : α → Read β} {bytes bytes' : Bytes} {found : α}
    {found' : β} (hRead : Parses read bytes found) (hNext : Parses (next found) bytes' found') :
    Parses (read >>= next) (bytes ++ bytes') found' := by
  intro entity before rest
  have hFirst := hRead entity before (bytes' ++ rest)
  have hSecond := hNext entity (before ++ bytes) rest
  have hData : before ++ (bytes ++ bytes') ++ rest = before ++ bytes ++ (bytes' ++ rest) := by
    simp only [List.append_assoc]
  rw [List.append_assoc (before ++ bytes) bytes' rest] at hSecond
  rw [Fallible.bind_apply, hData, hFirst, ← List.append_assoc before bytes bytes']
  exact hSecond

/-- The last field of a record may be followed by the construction of the record. -/
theorem Parses.bind_pure {read : Read α} {bytes : Bytes} {found : α}
    (hRead : Parses read bytes found) (present : α → β) :
    Parses (read >>= fun found => Pure.pure (present found)) bytes (present found) := by
  have hBind : Parses (read >>= fun found => Pure.pure (present found)) (bytes ++ [])
      (present found) := hRead.bind (Parses.pure (present found))
  rwa [List.append_nil] at hBind

/-- A whole record is read from bytes that hold nothing else. -/
theorem Parses.run_eq {read : Read α} {bytes : Bytes} {found : α}
    (hRead : Parses read bytes found) (entity : String) : run entity bytes read = .ok found := by
  have hAll := hRead entity [] []
  rw [List.append_nil, List.nil_append, List.length_nil] at hAll
  rw [run, start, Fallible.bind_apply, hAll]
  simp only [Fallible.bind_apply, finish, ↓reduceIte]
  rfl

theorem take_of_le {cursor : Cursor} {count : Nat}
    (hInside : cursor.position + count ≤ cursor.data.length) :
    take count cursor =
      (.ok ((cursor.data.drop cursor.position).take count), cursor.advance count) :=
  if_pos hInside

theorem take_of_lt {cursor : Cursor} {count : Nat}
    (hOutside : cursor.data.length < cursor.position + count) :
    take count cursor = (.error (cursor.shortage count), cursor) :=
  if_neg (Nat.not_le_of_lt hOutside)

theorem fixed_of_le {cursor : Cursor} {width : Nat}
    (hInside : cursor.position + width ≤ cursor.data.length) :
    ∃ found : Fixed width, found.bytes = (cursor.data.drop cursor.position).take width ∧
      fixed width cursor = (.ok found, cursor.advance width) :=
  ⟨_, rfl, dif_pos hInside⟩

theorem fixed_of_lt {cursor : Cursor} {width : Nat}
    (hOutside : cursor.data.length < cursor.position + width) :
    fixed width cursor = (.error (cursor.shortage width), cursor) :=
  dif_neg (Nat.not_le_of_lt hOutside)

theorem parses_take {count : Nat} {bytes : Bytes} (hLength : bytes.length = count) :
    Parses (take count) bytes bytes := by
  intro entity before rest
  subst hLength
  simp [take, advance]

theorem parses_u8 (byte : UInt8) : Parses u8 [byte] byte :=
  (parses_take rfl).bind_pure fun bytes => bytes.headD 0

theorem parses_u16 (number : UInt16) : Parses u16 (Bytes.ofUInt16 number) number := by
  have hRead := (parses_take (Bytes.length_ofUInt16 number)).bind_pure Bytes.toUInt16
  rwa [Bytes.toUInt16_ofUInt16] at hRead

theorem parses_u64 (number : UInt64) : Parses u64 (Bytes.ofUInt64 number) number := by
  have hRead := (parses_take (Bytes.length_ofUInt64 number)).bind_pure Bytes.toUInt64
  rwa [Bytes.toUInt64_ofUInt64] at hRead

theorem parses_fixed {width : Nat} (value : Fixed width) :
    Parses (fixed width) value.bytes value := by
  intro entity before rest
  obtain ⟨bytes, rfl⟩ := value
  simp [fixed, advance]

/-- A sized field is read back if its length fits into two bytes. -/
theorem parses_sized {bytes : Bytes} (hLength : bytes.length ≤ Writer.sizedLimit) :
    Parses sized (Bytes.ofUInt16 (UInt16.ofNat bytes.length) ++ bytes) bytes :=
  (parses_u16 _).bind (parses_take (Writer.toNat_ofNat_of_le_sizedLimit hLength).symm)

end Cursor

namespace Writer

variable (writer : Writer)

@[simp] theorem empty_buffer : empty.buffer = [] := rfl

@[simp] theorem fixed_buffer (bytes : Bytes) :
    (writer.fixed bytes).buffer = writer.buffer ++ bytes := rfl

@[simp] theorem u8_buffer (byte : UInt8) : (writer.u8 byte).buffer = writer.buffer ++ [byte] := rfl

@[simp] theorem u16_buffer (number : UInt16) :
    (writer.u16 number).buffer = writer.buffer ++ Bytes.ofUInt16 number := rfl

@[simp] theorem u64_buffer (number : UInt64) :
    (writer.u64 number).buffer = writer.buffer ++ Bytes.ofUInt64 number := rfl

theorem sized_of_le {bytes : Bytes} (field : String) (hLength : bytes.length ≤ sizedLimit) :
    writer.sized field bytes = .ok ((writer.u16 (UInt16.ofNat bytes.length)).fixed bytes) :=
  if_pos hLength

theorem sized_of_gt {bytes : Bytes} (field : String) (hLength : sizedLimit < bytes.length) :
    writer.sized field bytes = .error (.fieldTooLong field bytes.length sizedLimit) :=
  if_neg (Nat.not_le_of_gt hLength)

end Writer

/-- A bare amount is read back. -/
@[simp] theorem decodeAmount_encodeAmount (entity : String) (amount : UInt64) :
    decodeAmount entity (encodeAmount amount) = .ok amount :=
  (Cursor.parses_u64 amount).run_eq entity

@[simp] theorem length_encodeAmount (amount : UInt64) : (encodeAmount amount).length = 8 :=
  Bytes.length_ofUInt64 amount

/-- A value that is no bare amount is too short, or goes on behind the amount. -/
theorem decodeAmount_eq (entity : String) (value : Bytes) :
    decodeAmount entity value =
      if value.length < 8 then .error (.malformed entity (.short 8 0 value.length))
      else if 8 < value.length then .error (.malformed entity (.trailing (value.length - 8)))
      else .ok (Bytes.toUInt64 value) := by
  simp only [decodeAmount, Cursor.run, Cursor.u64, Fallible.bind_apply, Fallible.pure_apply,
    Cursor.take, Cursor.start, Cursor.shortage, Cursor.finish, Cursor.advance]
  by_cases hShort : value.length < 8
  · simp [hShort, Nat.not_le_of_gt hShort]
  · have hInside : 8 ≤ value.length := Nat.le_of_not_lt hShort
    by_cases hLong : 8 < value.length
    · simp [hShort, hInside, hLong, Nat.ne_of_lt hLong]
    · have hEnd : value.length = 8 := by omega
      simp [hEnd, List.take_of_length_le]

namespace Units

theorem length_flatMap_ofUInt64 (numbers : List UInt64) :
    (numbers.flatMap Bytes.ofUInt64).length = 8 * numbers.length := by
  induction numbers with
  | nil => rfl
  | cons number numbers ih =>
      rw [List.flatMap_cons, List.length_append, Bytes.length_ofUInt64, ih, List.length_cons]
      omega

/-- Every number of a list lies in its own eight bytes. -/
theorem take_drop_flatMap_ofUInt64 (numbers : List UInt64) (index : Nat)
    (hIndex : index < numbers.length) :
    ((numbers.flatMap Bytes.ofUInt64).drop (8 * index)).take 8 =
      Bytes.ofUInt64 numbers[index] := by
  induction numbers generalizing index with
  | nil => simp at hIndex
  | cons number numbers ih =>
      cases index with
      | zero =>
          rw [List.flatMap_cons, Nat.mul_zero, List.drop_zero, List.getElem_cons_zero]
          exact List.take_left' (Bytes.length_ofUInt64 number)
      | succ index =>
          have hPosition : 8 * (index + 1) = (Bytes.ofUInt64 number).length + 8 * index := by
            rw [Bytes.length_ofUInt64]
            omega
          rw [List.flatMap_cons, hPosition, List.drop_length_add_append, List.getElem_cons_succ]
          exact ih index (Nat.lt_of_succ_lt_succ hIndex)

@[simp] theorem length_toBytes (units : Units) : units.toBytes.length = 40 := by
  rw [toBytes, length_flatMap_ofUInt64, Vector.length_toList]

/-- The five numbers are found at the start of their bytes. -/
theorem atStart_toBytes (units : Units) : atStart units.toBytes = units := by
  ext index hIndex
  rw [atStart, Vector.getElem_ofFn, toBytes,
    take_drop_flatMap_ofUInt64 _ index (by simpa using hIndex), Bytes.toUInt64_ofUInt64,
    Vector.getElem_toList]

theorem ofBytes_toBytes (units : Units) : ofBytes units.toBytes = .ok units := by
  rw [ofBytes, if_pos units.length_toBytes, atStart_toBytes]

end Units

namespace TransactionRecord

/-- The bytes of a record with the outcome spelled as a given byte. -/
def spelled (record : TransactionRecord) (outcome : UInt8) : Bytes :=
  Bytes.ofUInt64 record.timestamp.toUInt64 ++
    ([outcome] ++ (record.units.toBytes ++ Bytes.ofUInt64 record.fee))

theorem encode_eq (record : TransactionRecord) :
    record.encode = record.spelled (if record.success then 1 else 0) := by
  simp [encode, spelled]

theorem length_spelled (record : TransactionRecord) (outcome : UInt8) :
    (record.spelled outcome).length = 57 := by
  simp [spelled]

/-- Any byte but 0 spells success. -/
theorem decode_spelled (record : TransactionRecord) (outcome : UInt8) :
    decode (record.spelled outcome) = .ok { record with success := outcome != 0 } := by
  have hRead : decode (record.spelled outcome) = .ok ⟨record.timestamp.toUInt64.toInt64,
      outcome != 0, Units.atStart record.units.toBytes, record.fee⟩ :=
    ((Cursor.parses_u64 _).bind ((Cursor.parses_u8 _).bind
      ((Cursor.parses_take record.units.length_toBytes).bind
        ((Cursor.parses_u64 _).bind_pure _)))).run_eq "transaction"
  rw [hRead, Units.atStart_toBytes, Int64.toInt64_toUInt64]

theorem decode_encode (record : TransactionRecord) : decode record.encode = .ok record := by
  have hSuccess : ((if record.success then (1 : UInt8) else 0) != 0) = record.success := by
    cases record.success <;> rfl
  rw [encode_eq, decode_spelled, hSuccess]

theorem length_encode (record : TransactionRecord) : record.encode.length = 57 := by
  rw [encode_eq, length_spelled]

end TransactionRecord

namespace OrderRecord

theorem encode_eq (record : OrderRecord) :
    record.encode = record.input.bytes ++ (Bytes.ofUInt64 record.inTick ++
      (record.output.bytes ++ (Bytes.ofUInt64 record.outTick ++
        (Bytes.ofUInt64 record.remaining ++ record.owner.bytes)))) := by
  simp [encode]

theorem decode_encode (record : OrderRecord) : decode record.encode = .ok record := by
  rw [encode_eq]
  exact ((Cursor.parses_fixed record.input).bind ((Cursor.parses_u64 record.inTick).bind
    ((Cursor.parses_fixed record.output).bind ((Cursor.parses_u64 record.outTick).bind
      ((Cursor.parses_u64 record.remaining).bind
        ((Cursor.parses_fixed record.owner).bind_pure _)))))).run_eq "order"

theorem length_encode (record : OrderRecord) : record.encode.length = 121 := by
  simp [encode_eq, Fixed.length_eq]

end OrderRecord

namespace AssetRecord

/-- Both sized fields of a record fit behind a length of two bytes. -/
def Fits (record : AssetRecord) : Prop :=
  record.symbol.length ≤ Writer.sizedLimit ∧ record.metadata.length ≤ Writer.sizedLimit

instance (record : AssetRecord) : Decidable record.Fits :=
  inferInstanceAs (Decidable (_ ∧ _))

/-- The bytes of a record that fits. -/
def layout (record : AssetRecord) : Bytes :=
  (Bytes.ofUInt16 (UInt16.ofNat record.symbol.length) ++ record.symbol) ++ ([record.decimals] ++
    ((Bytes.ofUInt16 (UInt16.ofNat record.metadata.length) ++ record.metadata) ++
      (Bytes.ofUInt64 record.supply ++ (record.owner.bytes ++ [if record.warp then 1 else 0]))))

theorem encode_of_fits {record : AssetRecord} (hFits : record.Fits) :
    record.encode = .ok record.layout := by
  obtain ⟨hSymbol, hMetadata⟩ := hFits
  rw [encode, Writer.sized_of_le _ _ hSymbol]
  simp only [bind, Except.bind]
  rw [Writer.sized_of_le _ _ hMetadata]
  simp [pure, Except.pure, layout]

/-- The symbol is looked at before the metadata. -/
theorem encode_of_not_fits {record : AssetRecord} (hFits : ¬record.Fits) :
    record.encode = .error (if Writer.sizedLimit < record.symbol.length
      then .fieldTooLong "symbol" record.symbol.length Writer.sizedLimit
      else .fieldTooLong "metadata" record.metadata.length Writer.sizedLimit) := by
  by_cases hSymbol : record.symbol.length ≤ Writer.sizedLimit
  · have hMetadata : Writer.sizedLimit < record.metadata.length :=
      Nat.lt_of_not_le fun hMetadata => hFits ⟨hSymbol, hMetadata⟩
    rw [encode, Writer.sized_of_le _ _ hSymbol, if_neg (Nat.not_lt_of_le hSymbol)]
    simp only [bind, Except.bind]
    rw [Writer.sized_of_gt _ _ hMetadata]
  · have hLong := Nat.lt_of_not_le hSymbol
    rw [encode, Writer.sized_of_gt _ _ hLong, if_pos hLong]
    rfl

/-- The bytes of a record with its last byte, which marks a warped asset, as given. -/
def spelled (record : AssetRecord) (warp : UInt8) : Bytes :=
  (Bytes.ofUInt16 (UInt16.ofNat record.symbol.length) ++ record.symbol) ++ ([record.decimals] ++
    ((Bytes.ofUInt16 (UInt16.ofNat record.metadata.length) ++ record.metadata) ++
      (Bytes.ofUInt64 record.supply ++ (record.owner.bytes ++ [warp]))))

theorem layout_eq (record : AssetRecord) :
    record.layout = record.spelled (if record.warp then 1 else 0) := rfl

theorem length_spelled (record : AssetRecord) (warp : UInt8) :
    (record.spelled warp).length = record.encodedLength := by
  simp [spelled, encodedLength, Fixed.length_eq]
  omega

/-- Only the byte 1 marks a warped asset. -/
theorem decode_spelled {record : AssetRecord} (hFits : record.Fits) (warp : UInt8) :
    decode (record.spelled warp) = .ok { record with warp := warp == 1 } :=
  ((Cursor.parses_sized hFits.1).bind ((Cursor.parses_u8 _).bind
    ((Cursor.parses_sized hFits.2).bind ((Cursor.parses_u64 _).bind
      ((Cursor.parses_fixed record.owner).bind
        ((Cursor.parses_u8 _).bind_pure _)))))).run_eq "asset"

theorem decode_layout {record : AssetRecord} (hFits : record.Fits) :
    decode record.layout = .ok record := by
  have hWarp : ((if record.warp then (1 : UInt8) else 0) == 1) = record.warp := by
    cases record.warp <;> rfl
  rw [layout_eq, decode_spelled hFits, hWarp]

theorem encode_eq_ok_iff {record : AssetRecord} {value : Bytes} :
    record.encode = .ok value ↔ record.Fits ∧ value = record.layout := by
  constructor
  · intro hValue
    by_cases hFits : record.Fits
    · rw [encode_of_fits hFits] at hValue
      cases hValue
      exact ⟨hFits, rfl⟩
    · rw [encode_of_not_fits hFits] at hValue
      cases hValue
  · rintro ⟨hFits, rfl⟩
    exact encode_of_fits hFits

/-- What a record was encoded as is decoded to the record. -/
theorem decode_of_encode {record : AssetRecord} {value : Bytes}
    (hValue : record.encode = .ok value) : decode value = .ok record := by
  obtain ⟨hFits, rfl⟩ := encode_eq_ok_iff.mp hValue
  exact decode_layout hFits

theorem length_layout (record : AssetRecord) : record.layout.length = record.encodedLength := by
  rw [layout_eq, length_spelled]

end AssetRecord

namespace ProjectRecord

/-- Every field has the width of its slot. -/
def FillsSlots (record : ProjectRecord) : Prop :=
  record.name.length = 32 ∧ record.description.length = 100 ∧ record.owner.length = 500 ∧
    record.logo.length = 100

theorem ofTexts_fillsSlots (name description owner logo : Bytes) :
    (ofTexts name description owner logo).FillsSlots := by
  simp [FillsSlots, ofTexts]

theorem encode_eq (record : ProjectRecord) :
    record.encode = record.name ++ (record.description ++ (record.owner ++ record.logo)) := by
  simp [encode]

theorem decode_encode {record : ProjectRecord} (hSlots : record.FillsSlots) :
    decode record.encode = .ok record := by
  obtain ⟨hName, hDescription, hOwner, hLogo⟩ := hSlots
  rw [encode_eq]
  exact ((Cursor.parses_take hName).bind ((Cursor.parses_take hDescription).bind
    ((Cursor.parses_take hOwner).bind ((Cursor.parses_take hLogo).bind_pure _)))).run_eq "project"

theorem length_encode {record : ProjectRecord} (hSlots : record.FillsSlots) :
    record.encode.length = 732 := by
  obtain ⟨hName, hDescription, hOwner, hLogo⟩ := hSlots
  simp [encode_eq, hName, hDescription, hOwner, hLogo]

end ProjectRecord

namespace UpdateRecord

/-- Every text field has the width of its slot. -/
def FillsSlots (record : UpdateRecord) : Prop :=
  record.projectId.length = 100 ∧ record.executableHash.length = 100 ∧
    record.ipfsUrl.length = 100 ∧ record.deviceName.length = 100

theorem ofTexts_fillsSlots (projectId executableHash ipfsUrl deviceName : Bytes)
    (version successCount : UInt8) :
    (ofTexts projectId executableHash ipfsUrl deviceName version successCount).FillsSlots := by
  simp [FillsSlots, ofTexts]

theorem encode_eq (record : UpdateRecord) :
    record.encode = record.projectId ++ (record.executableHash ++ (record.ipfsUrl ++
      (record.deviceName ++ ([record.version] ++ [record.successCount])))) := by
  simp [encode]

theorem decode_encode {record : UpdateRecord} (hSlots : record.FillsSlots) :
    decode record.encode = .ok record := by
  obtain ⟨hProject, hHash, hUrl, hDevice⟩ := hSlots
  rw [encode_eq]
  exact ((Cursor.parses_take hProject).bind ((Cursor.parses_take hHash).bind
    ((Cursor.parses_take hUrl).bind ((Cursor.parses_take hDevice).bind
      ((Cursor.parses_u8 record.version).bind
        ((Cursor.parses_u8 record.successCount).bind_pure _)))))).run_eq "update"

theorem length_encode {record : UpdateRecord} (hSlots : record.FillsSlots) :
    record.encode.length = 402 := by
  obtain ⟨hProject, hHash, hUrl, hDevice⟩ := hSlots
  simp [encode_eq, hProject, hHash, hUrl, hDevice]

end UpdateRecord

/-- Every record is read back from its bytes, and there are as many of them as its layout
declares: amounts, units, transactions and orders whatever their values; projects and
updates whatever texts they are built from; assets if both of their texts fit behind a
length of two bytes. An asset with a text that does not fit has no bytes, and the symbol
is refused before the metadata. -/
theorem records_read_back :
    (∀ (entity : String) (amount : UInt64),
      decodeAmount entity (encodeAmount amount) = .ok amount ∧
        (encodeAmount amount).length = 8) ∧
    (∀ units : Units, Units.ofBytes units.toBytes = .ok units ∧ units.toBytes.length = 40) ∧
    (∀ record : TransactionRecord,
      TransactionRecord.decode record.encode = .ok record ∧ record.encode.length = 57) ∧
    (∀ record : OrderRecord,
      OrderRecord.decode record.encode = .ok record ∧ record.encode.length = 121) ∧
    (∀ name description owner logo : Bytes,
      let record := ProjectRecord.ofTexts name description owner logo
      ProjectRecord.decode record.encode = .ok record ∧ record.encode.length = 732) ∧
    (∀ (projectId executableHash ipfsUrl deviceName : Bytes) (version successCount : UInt8),
      let record := UpdateRecord.ofTexts projectId executableHash ipfsUrl deviceName version
        successCount
      UpdateRecord.decode record.encode = .ok record ∧ record.encode.length = 402) ∧
    (∀ record : AssetRecord,
      (record.symbol.length ≤ 65535 ∧ record.metadata.length ≤ 65535 →
        ∃ value, record.encode = .ok value ∧ value.length = record.encodedLength ∧
          AssetRecord.decode value = .ok record) ∧
      (65535 < record.symbol.length →
        record.encode = .error (.fieldTooLong "symbol" record.symbol.length 65535)) ∧
      (record.symbol.length ≤ 65535 ∧ 65535 < record.metadata.length →
        record.encode = .error (.fieldTooLong "metadata" record.metadata.length 65535))) := by
  refine ⟨?_, ?_, ?_, ?_, ?_, ?_, ?_⟩
  · intro entity amount
    exact ⟨decodeAmount_encodeAmount entity amount, length_encodeAmount amount⟩
  · intro units
    exact ⟨units.ofBytes_toBytes, units.length_toBytes⟩
  · intro record
    exact ⟨record.decode_encode, record.length_encode⟩
  · intro record
    exact ⟨record.decode_encode, record.length_encode⟩
  · intro name description owner logo
    have hSlots := ProjectRecord.ofTexts_fillsSlots name description owner logo
    exact ⟨ProjectRecord.decode_encode hSlots, ProjectRecord.length_encode hSlots⟩
  · intro projectId executableHash ipfsUrl deviceName version successCount
    have hSlots := UpdateRecord.ofTexts_fillsSlots projectId executableHash ipfsUrl deviceName
      version successCount
    exact ⟨UpdateRecord.decode_encode hSlots, UpdateRecord.length_encode hSlots⟩
  · intro record
    refine ⟨?_, ?_, ?_⟩
    · intro hFits
      exact ⟨record.layout, AssetRecord.encode_of_fits hFits, record.length_layout,
        AssetRecord.decode_layout hFits⟩
    · intro (hSymbol : Writer.sizedLimit < record.symbol.length)
      have hLong : ¬record.Fits := fun hFits => Nat.not_le_of_gt hSymbol hFits.1
      rw [AssetRecord.encode_of_not_fits hLong, if_pos hSymbol]
      rfl
    · rintro ⟨hSymbol, hMetadata⟩
      have hLong : ¬record.Fits := fun hFits => Nat.not_le_of_gt hMetadata hFits.2
      have hNotSymbol : ¬Writer.sizedLimit < record.symbol.length := Nat.not_lt_of_le hSymbol
      rw [AssetRecord.encode_of_not_fits hLong, if_neg hNotSymbol]
      rfl

end DeviceLedger
