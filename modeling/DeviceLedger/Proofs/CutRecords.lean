import DeviceLedger.Proofs.RecordCodec

/-! Values that are no records because they end too early or go on. A decoder stops at the
first field that is not whole, and says where the field starts, how wide it is and how much
of it is there; behind a whole record it counts the bytes that are left over. So no value is
a beginning of another one of the same kind. -/

namespace DeviceLedger

/-- A length falls into the field of a width at an offset: all fields before it end within
the length, and it does not. -/
structure FallsInto (widths : List Nat) (length width offset : Nat) : Prop where
  field : ∃ earlier later, widths = earlier ++ width :: later ∧ earlier.sum = offset
  starts_le : offset ≤ length
  lt_end : length < offset + width

namespace FallsInto

variable {widths : List Nat} {length width offset : Nat}

theorem append (hFalls : FallsInto widths length width offset) (more : List Nat) :
    FallsInto (widths ++ more) length width offset := by
  obtain ⟨earlier, later, rfl, hOffset⟩ := hFalls.field
  exact ⟨⟨earlier, later ++ more, by simp, hOffset⟩, hFalls.starts_le, hFalls.lt_end⟩

/-- Further fields in front shift the field. -/
theorem prepend (hFalls : FallsInto widths length width offset) (front : List Nat) :
    FallsInto (front ++ widths) (front.sum + length) width (front.sum + offset) := by
  obtain ⟨earlier, later, rfl, rfl⟩ := hFalls.field
  have hStarts := hFalls.starts_le
  have hEnd := hFalls.lt_end
  exact ⟨⟨front ++ earlier, later, by simp, by simp⟩, by omega, by omega⟩

end FallsInto

namespace Cursor

variable {α β : Type}

/-- A read takes fields of these widths. It finds a value in all of their bytes, and in a
beginning of them it fails at the first field that is not whole. -/
structure TakesFields (read : Read α) (widths : List Nat) (bytes : Bytes) (found : α) : Prop where
  parses : Parses read bytes found
  length_eq : bytes.length = widths.sum
  stops : ∀ (entity : String) (before begun rest : Bytes), bytes = begun ++ rest → rest ≠ [] →
    ∃ width offset, FallsInto widths begun.length width offset ∧
      (read ⟨entity, before ++ begun, before.length⟩).1 = .error (.malformed entity
        (.short width (before.length + offset) (begun.length - offset)))

namespace TakesFields

theorem pure (found : α) : TakesFields (Pure.pure found) [] [] found := by
  refine ⟨.pure found, rfl, ?_⟩
  intro entity before begun rest hBytes hRest
  exact absurd (List.append_eq_nil_iff.mp hBytes.symm).2 hRest

variable {read : Read α} {widths : List Nat} {bytes : Bytes} {found : α}

theorem bind {next : α → Read β} {widths' : List Nat} {bytes' : Bytes} {found' : β}
    (hRead : TakesFields read widths bytes found)
    (hNext : TakesFields (next found) widths' bytes' found') :
    TakesFields (read >>= next) (widths ++ widths') (bytes ++ bytes') found' := by
  refine ⟨hRead.parses.bind hNext.parses, by simp [hRead.length_eq, hNext.length_eq], ?_⟩
  intro entity before begun rest hBytes hRest
  -- the cut lies behind the fields of the first read, or inside of them
  have hCut : (∃ begun', begun = bytes ++ begun' ∧ bytes' = begun' ++ rest) ∨
      ∃ rest', rest' ≠ [] ∧ bytes = begun ++ rest' := by
    obtain ⟨begun', rfl, rfl⟩ | ⟨rest', rfl, rfl⟩ := List.append_eq_append_iff.mp hBytes
    · exact .inl ⟨begun', rfl, rfl⟩
    · cases rest' with
      | nil => exact .inl ⟨[], by simp, by simp⟩
      | cons byte rest' => exact .inr ⟨byte :: rest', by simp, rfl⟩
  obtain ⟨begun', rfl, hRest'⟩ | ⟨rest', hRest', hBegun⟩ := hCut
  · obtain ⟨width, offset, hFalls, hStops⟩ :=
      hNext.stops entity (before ++ bytes) begun' rest hRest' hRest
    have hFirst := hRead.parses entity before begun'
    refine ⟨width, widths.sum + offset, ?_, ?_⟩
    · rw [List.length_append, hRead.length_eq]
      exact hFalls.prepend widths
    · rw [Fallible.bind_apply, ← List.append_assoc, hFirst]
      simp only
      rw [hStops, List.length_append, List.length_append, hRead.length_eq, Nat.add_assoc,
        Nat.add_sub_add_left]
  · obtain ⟨width, offset, hFalls, hStops⟩ := hRead.stops entity before begun rest' hBegun hRest'
    refine ⟨width, offset, hFalls.append widths', ?_⟩
    rw [Fallible.bind_apply]
    cases hFirst : read ⟨entity, before ++ begun, before.length⟩ with
    | mk result after =>
        rw [hFirst] at hStops
        obtain rfl := hStops
        rfl

/-- The construction of the record takes no field. -/
theorem bind_pure (hRead : TakesFields read widths bytes found) (present : α → β) :
    TakesFields (read >>= fun found => Pure.pure (present found)) widths bytes
      (present found) := by
  have hBind : TakesFields (read >>= fun found => Pure.pure (present found)) (widths ++ [])
      (bytes ++ []) (present found) := hRead.bind (pure (present found))
  rwa [List.append_nil, List.append_nil] at hBind

/-- A whole record is not found in a beginning of its bytes. -/
theorem run_cut (hRead : TakesFields read widths bytes found) (entity : String)
    {begun rest : Bytes} (hBytes : bytes = begun ++ rest) (hRest : rest ≠ []) :
    ∃ width offset, FallsInto widths begun.length width offset ∧
      run entity begun read =
        .error (.malformed entity (.short width offset (begun.length - offset))) := by
  obtain ⟨width, offset, hFalls, hStops⟩ := hRead.stops entity [] begun rest hBytes hRest
  refine ⟨width, offset, hFalls, ?_⟩
  rw [run, start, Fallible.bind_apply]
  rw [List.nil_append, List.length_nil, Nat.zero_add] at hStops
  cases hFirst : read ⟨entity, begun, 0⟩ with
  | mk result after =>
      rw [hFirst] at hStops
      obtain rfl := hStops
      rfl

end TakesFields

/-- Bytes behind a whole record are counted. -/
theorem Parses.run_extended {read : Read α} {bytes : Bytes} {found : α}
    (hRead : Parses read bytes found) (entity : String) {tail : Bytes} (hTail : tail ≠ []) :
    run entity (bytes ++ tail) read = .error (.malformed entity (.trailing tail.length)) := by
  have hAll := hRead entity [] tail
  rw [List.nil_append, List.length_nil] at hAll
  have hEnd : ¬bytes.length = (bytes ++ tail).length := by simpa using hTail
  rw [run, start, Fallible.bind_apply, hAll]
  simp only [Fallible.bind_apply, finish, if_neg hEnd]
  simp

section Fields

/-- A read of one field that is refused where it would leave the data. -/
theorem takesFields_of_shortage {read : Read α} {bytes : Bytes} {found : α}
    (hRead : Parses read bytes found)
    (hShort : ∀ cursor : Cursor, cursor.data.length < cursor.position + bytes.length →
      (read cursor).1 = .error (cursor.shortage bytes.length)) :
    TakesFields read [bytes.length] bytes found := by
  refine ⟨hRead, by simp, ?_⟩
  intro entity before begun rest hBytes hRest
  have hRestLength := List.length_pos_iff.mpr hRest
  have hLength : bytes.length = begun.length + rest.length := by rw [hBytes, List.length_append]
  refine ⟨bytes.length, 0, ⟨⟨[], [], rfl, rfl⟩, Nat.zero_le _, by omega⟩, ?_⟩
  rw [hShort _ (by simp; omega)]
  simp [shortage]

theorem takesFields_take {count : Nat} {bytes : Bytes} (hLength : bytes.length = count) :
    TakesFields (take count) [count] bytes bytes := by
  subst hLength
  exact takesFields_of_shortage (parses_take rfl) fun cursor hShort => by rw [take_of_lt hShort]

theorem takesFields_fixed {width : Nat} (value : Fixed width) :
    TakesFields (fixed width) [width] value.bytes value := by
  have hFields := takesFields_of_shortage (parses_fixed value) fun cursor hShort => by
    rw [value.length_eq] at hShort ⊢
    rw [fixed_of_lt hShort]
  rwa [value.length_eq] at hFields

theorem takesFields_u8 (byte : UInt8) : TakesFields u8 [1] [byte] byte :=
  (takesFields_take (List.length_singleton)).bind_pure fun bytes => bytes.headD 0

theorem takesFields_u16 (number : UInt16) :
    TakesFields u16 [2] (Bytes.ofUInt16 number) number := by
  have hRead := (takesFields_take (Bytes.length_ofUInt16 number)).bind_pure Bytes.toUInt16
  rwa [Bytes.toUInt16_ofUInt16] at hRead

theorem takesFields_u64 (number : UInt64) :
    TakesFields u64 [8] (Bytes.ofUInt64 number) number := by
  have hRead := (takesFields_take (Bytes.length_ofUInt64 number)).bind_pure Bytes.toUInt64
  rwa [Bytes.toUInt64_ofUInt64] at hRead

/-- The length of a sized field is a field of its own, in front of its contents. -/
theorem takesFields_sized {bytes : Bytes} (hLength : bytes.length ≤ Writer.sizedLimit) :
    TakesFields sized [2, bytes.length]
      (Bytes.ofUInt16 (UInt16.ofNat bytes.length) ++ bytes) bytes := by
  have hContents : TakesFields (take (UInt16.ofNat bytes.length).toNat) [bytes.length] bytes
      bytes := by
    rw [Writer.toNat_ofNat_of_le_sizedLimit hLength]
    exact takesFields_take rfl
  exact (takesFields_u16 _).bind hContents

end Fields

/-- A read that fails says that the record is malformed, under the name of the cursor. -/
structure Blames (read : Read α) : Prop where
  entity_eq : ∀ cursor, (read cursor).2.entity = cursor.entity
  named : ∀ cursor error, (read cursor).1 = .error error →
    ∃ reason, error = .malformed cursor.entity reason

theorem Blames.pure (found : α) : Blames (Pure.pure found : Read α) :=
  ⟨fun _ => rfl, fun _ _ hError => nomatch hError⟩

theorem Blames.bind {read : Read α} {next : α → Read β} (hRead : Blames read)
    (hNext : ∀ found, Blames (next found)) : Blames (read >>= next) := by
  constructor
  case entity_eq =>
    intro cursor
    have hEntity := hRead.entity_eq cursor
    rw [Fallible.bind_apply]
    cases hFirst : read cursor with
    | mk result after =>
        rw [hFirst] at hEntity
        cases result with
        | ok found => exact ((hNext found).entity_eq after).trans hEntity
        | error error => exact hEntity
  case named =>
    intro cursor error hError
    have hEntity := hRead.entity_eq cursor
    rw [Fallible.bind_apply] at hError
    cases hFirst : read cursor with
    | mk result after =>
        rw [hFirst] at hEntity hError
        cases result with
        | ok found =>
            rw [← hEntity]
            exact (hNext found).named after error hError
        | error _ =>
            cases hError
            exact hRead.named cursor error (by rw [hFirst])

theorem Blames.bind_pure {read : Read α} (hRead : Blames read) (present : α → β) :
    Blames (read >>= fun found => Pure.pure (present found)) :=
  hRead.bind fun found => .pure (present found)

/-- It suffices that a read finds something or blames its cursor, and keeps the name. -/
theorem Blames.of_cases {read : Read α}
    (hCases : ∀ cursor, (∃ found after, read cursor = (.ok found, after) ∧
        after.entity = cursor.entity) ∨
      ∃ reason, read cursor = (.error (.malformed cursor.entity reason), cursor)) :
    Blames read := by
  constructor
  case entity_eq =>
    intro cursor
    obtain ⟨found, after, hRead, hEntity⟩ | ⟨reason, hRead⟩ := hCases cursor
    · rw [hRead, hEntity]
    · rw [hRead]
  case named =>
    intro cursor error hError
    obtain ⟨found, after, hRead, -⟩ | ⟨reason, hRead⟩ := hCases cursor
    · rw [hRead] at hError
      cases hError
    · rw [hRead] at hError
      cases hError
      exact ⟨reason, rfl⟩

theorem blames_take (count : Nat) : Blames (take count) := by
  refine .of_cases fun cursor => ?_
  rw [take]
  split
  · exact .inl ⟨_, _, rfl, rfl⟩
  · exact .inr ⟨_, rfl⟩

theorem blames_fixed (width : Nat) : Blames (fixed width) := by
  refine .of_cases fun cursor => ?_
  rw [fixed]
  split
  · exact .inl ⟨_, _, rfl, rfl⟩
  · exact .inr ⟨_, rfl⟩

theorem blames_finish : Blames finish := by
  refine .of_cases fun cursor => ?_
  rw [finish]
  split
  · exact .inl ⟨_, _, rfl, rfl⟩
  · exact .inr ⟨_, rfl⟩

theorem blames_u8 : Blames u8 := (blames_take 1).bind_pure _

theorem blames_u64 : Blames u64 := (blames_take 8).bind_pure _

theorem blames_sized : Blames sized :=
  ((blames_take 2).bind_pure _).bind fun length => blames_take length.toNat

/-- A decoder that fails names its own entity. -/
theorem Blames.run_error {read : Read α} (hRead : Blames read) {entity : String} {value : Bytes}
    {error : StorageError} (hError : run entity value read = .error error) :
    ∃ reason, error = .malformed entity reason :=
  (hRead.bind fun record => blames_finish.bind_pure fun _ => record).named (start entity value)
    error hError

end Cursor

/-- How a decoder reports values that are no records. `Written` relates a record to its
encoding, and `widths` says how wide the fields of a record are. -/
structure ReportsCuts {α : Type} (entity : String) (decode : Bytes → Except StorageError α)
    (Written : α → Bytes → Prop) (widths : α → List Nat) : Prop where
  cut : ∀ (record : α) (begun rest : Bytes), Written record (begun ++ rest) → rest ≠ [] →
    ∃ width offset left, FallsInto (widths record) begun.length width offset ∧
      left = begun.length - offset ∧ left < width ∧
      decode begun = .error (.malformed entity (.short width offset left))
  extended : ∀ (record : α) (value tail : Bytes), Written record value → tail ≠ [] →
    decode (value ++ tail) = .error (.malformed entity (.trailing tail.length))
  prefix_free : ∀ (first second : α) (value tail : Bytes), Written first value →
    Written second (value ++ tail) → tail = []
  named : ∀ (value : Bytes) (error : StorageError), decode value = .error error →
    ∃ reason, error = .malformed entity reason

/-- It suffices that an encoding falls into the fields that the decoder takes. -/
theorem ReportsCuts.of_takesFields {α : Type} {entity : String} {read : Cursor.Read α}
    {Written : α → Bytes → Prop} {widths : α → List Nat} (hBlames : Cursor.Blames read)
    (hFields : ∀ record value, Written record value →
      ∃ found, Cursor.TakesFields read (widths record) value found) :
    ReportsCuts entity (fun value => Cursor.run entity value read) Written widths := by
  constructor
  case cut =>
    intro record begun rest hWritten hRest
    obtain ⟨found, hRead⟩ := hFields record (begun ++ rest) hWritten
    obtain ⟨width, offset, hFalls, hRun⟩ := hRead.run_cut entity rfl hRest
    have hStarts := hFalls.starts_le
    have hEnd := hFalls.lt_end
    exact ⟨width, offset, begun.length - offset, hFalls, rfl, by omega, hRun⟩
  case extended =>
    intro record value tail hWritten hTail
    obtain ⟨found, hRead⟩ := hFields record value hWritten
    exact hRead.parses.run_extended entity hTail
  case prefix_free =>
    intro first second value tail hFirst hSecond
    obtain ⟨found, hShort⟩ := hFields first value hFirst
    obtain ⟨found', hLong⟩ := hFields second (value ++ tail) hSecond
    by_contra hTail
    -- the longer value would be a record and be refused for its end
    have hRefused := hShort.parses.run_extended entity hTail
    rw [hLong.parses.run_eq entity] at hRefused
    cases hRefused
  case named =>
    intro value error hError
    exact hBlames.run_error hError

section Records

open Cursor

theorem decodeAmount_reportsCuts (entity : String) :
    ReportsCuts entity (decodeAmount entity) (fun amount value => encodeAmount amount = value)
      fun _ => [8] := by
  refine .of_takesFields blames_u64 ?_
  rintro amount _ rfl
  exact ⟨amount, takesFields_u64 amount⟩

theorem TransactionRecord.reportsCuts :
    ReportsCuts "transaction" decode (fun record value => record.encode = value)
      fun _ => [8, 1, 40, 8] := by
  refine .of_takesFields ?_ ?_
  · exact blames_u64.bind fun _ => blames_u8.bind fun _ => (blames_take 40).bind fun _ =>
      blames_u64.bind_pure _
  · rintro record _ rfl
    rw [encode_eq]
    exact ⟨_, (takesFields_u64 _).bind ((takesFields_u8 _).bind
      ((takesFields_take record.units.length_toBytes).bind ((takesFields_u64 _).bind_pure _)))⟩

theorem OrderRecord.reportsCuts :
    ReportsCuts "order" decode (fun record value => record.encode = value)
      fun _ => [32, 8, 32, 8, 8, 33] := by
  refine .of_takesFields ?_ ?_
  · exact (blames_fixed 32).bind fun _ => blames_u64.bind fun _ => (blames_fixed 32).bind fun _ =>
      blames_u64.bind fun _ => blames_u64.bind fun _ => (blames_fixed 33).bind_pure _
  · rintro record _ rfl
    rw [encode_eq]
    exact ⟨_, (takesFields_fixed record.input).bind ((takesFields_u64 _).bind
      ((takesFields_fixed record.output).bind ((takesFields_u64 _).bind
        ((takesFields_u64 _).bind ((takesFields_fixed record.owner).bind_pure _)))))⟩

theorem ProjectRecord.reportsCuts :
    ReportsCuts "project" decode (fun record value => record.FillsSlots ∧ record.encode = value)
      fun _ => [32, 100, 500, 100] := by
  refine .of_takesFields ?_ ?_
  · exact (blames_take 32).bind fun _ => (blames_take 100).bind fun _ =>
      (blames_take 500).bind fun _ => (blames_take 100).bind_pure _
  · rintro record _ ⟨⟨hName, hDescription, hOwner, hLogo⟩, rfl⟩
    rw [encode_eq]
    exact ⟨_, (takesFields_take hName).bind ((takesFields_take hDescription).bind
      ((takesFields_take hOwner).bind ((takesFields_take hLogo).bind_pure _)))⟩

theorem UpdateRecord.reportsCuts :
    ReportsCuts "update" decode (fun record value => record.FillsSlots ∧ record.encode = value)
      fun _ => [100, 100, 100, 100, 1, 1] := by
  refine .of_takesFields ?_ ?_
  · exact (blames_take 100).bind fun _ => (blames_take 100).bind fun _ =>
      (blames_take 100).bind fun _ => (blames_take 100).bind fun _ =>
        blames_u8.bind fun _ => blames_u8.bind_pure _
  · rintro record _ ⟨⟨hProject, hHash, hUrl, hDevice⟩, rfl⟩
    rw [encode_eq]
    exact ⟨_, (takesFields_take hProject).bind ((takesFields_take hHash).bind
      ((takesFields_take hUrl).bind ((takesFields_take hDevice).bind
        ((takesFields_u8 _).bind ((takesFields_u8 _).bind_pure _)))))⟩

/-- The widths of the two sized fields are those of the record's own texts. -/
theorem AssetRecord.reportsCuts :
    ReportsCuts "asset" decode (fun record value => record.encode = .ok value)
      fun record => [2, record.symbol.length, 1, 2, record.metadata.length, 8, 33, 1] := by
  refine .of_takesFields ?_ ?_
  · exact blames_sized.bind fun _ => blames_u8.bind fun _ => blames_sized.bind fun _ =>
      blames_u64.bind fun _ => (blames_fixed 33).bind fun _ => blames_u8.bind_pure _
  · intro record value hEncode
    obtain ⟨hFits, rfl⟩ := encode_eq_ok_iff.mp hEncode
    exact ⟨_, (takesFields_sized hFits.1).bind ((takesFields_u8 _).bind
      ((takesFields_sized hFits.2).bind ((takesFields_u64 _).bind
        ((takesFields_fixed record.owner).bind ((takesFields_u8 _).bind_pure _)))))⟩

end Records

/-- Values that are cut short or go on are reported exactly. Take the encoding of an amount, a
transaction, an order, an asset, or a project or an update that fills its slots. Of every
proper beginning the decoder of its kind says how wide the first field is that does not end
inside it, where this field starts, and how many of its bytes are left; a sized field counts
as two, its length and its contents. Of every continuation it counts the bytes behind the
record. So no encoding is a proper beginning of another one of its kind. Whatever value such a
decoder refuses, it calls it malformed and names its own kind. -/
theorem cut_records_reported :
    (∀ need offset left : Nat, (Malformation.short need offset left).message =
      "need " ++ toString need ++ " bytes at offset " ++ toString offset ++ ", have " ++
        toString left) ∧
    (∀ count : Nat, (Malformation.trailing count).message = toString count ++ " trailing bytes") ∧
    (∀ entity : String, ReportsCuts entity (decodeAmount entity)
      (fun amount value => encodeAmount amount = value) fun _ => [8]) ∧
    ReportsCuts "transaction" TransactionRecord.decode (fun record value => record.encode = value)
      (fun _ => [8, 1, 40, 8]) ∧
    ReportsCuts "order" OrderRecord.decode (fun record value => record.encode = value)
      (fun _ => [32, 8, 32, 8, 8, 33]) ∧
    ReportsCuts "asset" AssetRecord.decode (fun record value => record.encode = .ok value)
      (fun record => [2, record.symbol.length, 1, 2, record.metadata.length, 8, 33, 1]) ∧
    ReportsCuts "project" ProjectRecord.decode
      (fun record value => record.FillsSlots ∧ record.encode = value)
      (fun _ => [32, 100, 500, 100]) ∧
    ReportsCuts "update" UpdateRecord.decode
      (fun record value => record.FillsSlots ∧ record.encode = value)
      (fun _ => [100, 100, 100, 100, 1, 1]) := by
  refine ⟨fun _ _ _ => rfl, fun _ => rfl, ?_, ?_, ?_, ?_, ?_, ?_⟩
  · exact decodeAmount_reportsCuts
  · exact TransactionRecord.reportsCuts
  · exact OrderRecord.reportsCuts
  · exact AssetRecord.reportsCuts
  · exact ProjectRecord.reportsCuts
  · exact UpdateRecord.reportsCuts

/-- An asset without a symbol that ends inside of its metadata: the empty symbol is whole. -/
example :
    AssetRecord.decode [0, 0, 9, 0, 3, 65, 66] = .error (.malformed "asset" (.short 3 5 2)) := by
  rfl

end DeviceLedger
