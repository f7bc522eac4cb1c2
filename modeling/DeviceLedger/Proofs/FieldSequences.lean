import DeviceLedger.Proofs.RecordCodec

/-! Fields in any number and order. A reader that knows only how the fields are laid out finds what
was written, and stands behind it. A field that is too long for the length in front of it is refused
before anything of it is written, so the fields around it are found as if it had never come. -/

namespace DeviceLedger

/-- A field of a record with its contents. -/
inductive RecordField where
  | u8 (byte : UInt8)
  | u16 (number : UInt16)
  | u64 (number : UInt64)
  | fixed (bytes : Bytes)
  | sized (bytes : Bytes)
  deriving DecidableEq

namespace RecordField

/-- How a field is laid out, which is all that a reader knows of it. -/
inductive Shape where
  | u8
  | u16
  | u64
  | fixed (width : Nat)
  | sized

def shape : RecordField → Shape
  | u8 _ => .u8
  | u16 _ => .u16
  | u64 _ => .u64
  | fixed bytes => .fixed bytes.length
  | sized _ => .sized

/-- The bytes of a field. -/
def layout : RecordField → Bytes
  | u8 byte => [byte]
  | u16 number => Bytes.ofUInt16 number
  | u64 number => Bytes.ofUInt64 number
  | fixed bytes => bytes
  | sized bytes => Bytes.ofUInt16 (UInt16.ofNat bytes.length) ++ bytes

/-- A field is written unless it is sized and too long for the length in front of it. -/
def fits : RecordField → Bool
  | sized bytes => bytes.length ≤ Writer.sizedLimit
  | _ => true

/-- How the writing of a field ends. A sized field is refused by its name. -/
def verdict (name : String) : RecordField → Except StorageError Unit
  | sized bytes =>
    if bytes.length ≤ Writer.sizedLimit then .ok ()
    else .error (.fieldTooLong name bytes.length Writer.sizedLimit)
  | _ => .ok ()

/-- The read of a field that is laid out like this. -/
def Shape.read : Shape → Cursor.Read RecordField
  | u8 => return .u8 (← Cursor.u8)
  | u16 => return .u16 (← Cursor.u16)
  | u64 => return .u64 (← Cursor.u64)
  | fixed width => return .fixed (← Cursor.take width)
  | sized => return .sized (← Cursor.sized)

end RecordField

namespace Writer

/-- The length in front of a sized field, which is settled before the field is begun. -/
def lengthOf (name : String) (bytes : Bytes) : Fallible StorageError Writer UInt16 :=
  if bytes.length ≤ sizedLimit then return UInt16.ofNat bytes.length
  else throw (.fieldTooLong name bytes.length sizedLimit)

/-- Write a field to the writer at hand, which is kept if the field is refused. -/
def put (name : String) : RecordField → Fallible StorageError Writer Unit
  | .u8 byte => modify (·.u8 byte)
  | .u16 number => modify (·.u16 number)
  | .u64 number => modify (·.u64 number)
  | .fixed bytes => modify (·.fixed bytes)
  | .sized bytes => do
    let length ← lengthOf name bytes
    modify (·.u16 length)
    modify (·.fixed bytes)

/-- A sized field is written as the records write it. -/
theorem put_sized (name : String) (bytes : Bytes) (writer : Writer) :
    put name (.sized bytes) writer = match writer.sized name bytes with
      | .ok written => (.ok (), written)
      | .error error => (.error error, writer) := by
  by_cases hLength : bytes.length ≤ sizedLimit
  · rw [put, lengthOf, if_pos hLength, sized, if_pos hLength]
    rfl
  · rw [put, lengthOf, if_neg hLength, sized, if_neg hLength]
    rfl

theorem put_sized_of_le {bytes : Bytes} (name : String) (hLength : bytes.length ≤ sizedLimit)
    (writer : Writer) :
    put name (.sized bytes) writer =
      (.ok (), ⟨writer.buffer ++ RecordField.layout (.sized bytes)⟩) := by
  rw [put_sized, sized_of_le writer name hLength]
  simp [RecordField.layout, fixed, u16]

/-- A field that is too long leaves the writer as it was. -/
theorem put_sized_of_gt {bytes : Bytes} (name : String) (hLength : sizedLimit < bytes.length)
    (writer : Writer) :
    put name (.sized bytes) writer =
      (.error (.fieldTooLong name bytes.length sizedLimit), writer) := by
  rw [put_sized, sized_of_gt writer name hLength]

/-- One write adds the bytes of the field, or nothing if the field is refused. -/
theorem put_eq (name : String) (field : RecordField) (writer : Writer) :
    put name field writer = (field.verdict name,
      ⟨writer.buffer ++ if field.fits then field.layout else []⟩) := by
  cases field with
  | u8 byte => rfl
  | u16 number => rfl
  | u64 number => rfl
  | fixed bytes => rfl
  | sized bytes =>
      by_cases hLength : bytes.length ≤ sizedLimit
      · rw [put_sized_of_le name hLength]
        simp [RecordField.verdict, RecordField.fits, hLength]
      · rw [put_sized_of_gt name (Nat.lt_of_not_le hLength)]
        simp [RecordField.verdict, RecordField.fits, hLength]

/-- A run of writes adds the fields that fit, one behind the other. -/
theorem runAll_put (writes : List (String × RecordField)) (writer : Writer) :
    Fallible.runAll (writes.map fun (name, field) => put name field) writer =
      (writes.map fun (name, field) => field.verdict name,
        ⟨writer.buffer ++ ((writes.map Prod.snd).filter RecordField.fits).flatMap
          RecordField.layout⟩) := by
  induction writes generalizing writer with
  | nil => simp [Fallible.runAll]
  | cons write writes ih =>
      obtain ⟨name, field⟩ := write
      simp only [List.map_cons, Fallible.runAll_cons, put_eq, ih]
      cases hFits : field.fits <;> simp [hFits]

end Writer

namespace RecordField

/-- A field that fits is found where it was written. -/
theorem parses_read {field : RecordField} (hFits : field.fits) :
    Cursor.Parses field.shape.read field.layout field := by
  cases field with
  | u8 byte => exact (Cursor.parses_u8 byte).bind_pure u8
  | u16 number => exact (Cursor.parses_u16 number).bind_pure u16
  | u64 number => exact (Cursor.parses_u64 number).bind_pure u64
  | fixed bytes => exact (Cursor.parses_take rfl).bind_pure fixed
  | sized bytes => exact (Cursor.parses_sized (of_decide_eq_true hFits)).bind_pure sized

/-- Fields one behind the other are found one after the other. -/
theorem parses_mapM_read {fields : List RecordField} (hFits : ∀ field ∈ fields, field.fits) :
    Cursor.Parses ((fields.map shape).mapM Shape.read) (fields.flatMap layout) fields := by
  induction fields with
  | nil => exact Cursor.Parses.pure []
  | cons field fields ih =>
      obtain ⟨hField, hFields⟩ := List.forall_mem_cons.mp hFits
      rw [List.map_cons, List.mapM_cons, List.flatMap_cons]
      exact (parses_read hField).bind ((ih hFields).bind_pure (field :: ·))

end RecordField

/-- Nothing may be left behind the cursor. -/
theorem Cursor.finish_eq_ok_iff (entity : String) (before rest : Bytes) :
    (finish ⟨entity, before ++ rest, before.length⟩).1 = .ok () ↔ rest = [] := by
  rw [finish]
  cases rest <;> simp

/-- Fields of any kinds, in any number and order, are read back. They are written to one writer,
and bytes of any sort may follow them. Whoever reads fields of the same shapes finds what was
written, in the same order, and then stands where the other bytes begin; so this is the end exactly
if there are none. Sized fields that are too long are refused one by one. Such a field adds nothing
to what is written, and the others are read back without it. -/
theorem field_sequences_read_back :
    (∀ (writes : List (String × RecordField)) (entity : String) (tail : Bytes),
      let (results, written) :=
        Fallible.runAll (writes.map fun (name, field) => Writer.put name field) Writer.empty
      let fields := (writes.map Prod.snd).filter RecordField.fits
      let data := written.buffer ++ tail
      let (found, cursor) :=
        ((fields.map RecordField.shape).mapM RecordField.Shape.read) (Cursor.start entity data)
      results = writes.map (fun (name, field) => field.verdict name) ∧
        found = .ok fields ∧ cursor = ⟨entity, data, written.buffer.length⟩ ∧
        ((Cursor.finish cursor).1 = .ok () ↔ tail = [])) ∧
    ∀ (name : String) (bytes : Bytes) (writer : Writer), 65535 < bytes.length →
      Writer.put name (.sized bytes) writer =
        (.error (.fieldTooLong name bytes.length 65535), writer) := by
  refine ⟨?_, fun name bytes writer hLength => Writer.put_sized_of_gt name hLength writer⟩
  intro writes entity tail
  -- whatever was refused, the fields that were written are those that fit
  have hFits : ∀ field ∈ (writes.map Prod.snd).filter RecordField.fits, field.fits :=
    fun field hMem => (List.mem_filter.mp hMem).2
  have hRead := RecordField.parses_mapM_read hFits entity [] tail
  rw [List.nil_append, List.length_nil] at hRead
  simp only [Writer.runAll_put, Writer.empty_buffer, List.nil_append, Cursor.start, hRead, true_and]
  exact Cursor.finish_eq_ok_iff entity _ tail

end DeviceLedger
