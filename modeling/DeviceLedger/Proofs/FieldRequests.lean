import DeviceLedger.Proofs.CutRecords
import DeviceLedger.Proofs.FieldSequences

/-! How a request for a field ends. The bytes of a field are taken in pieces, one for most fields
and two for a sized one. A request finds its field if all pieces are there, and is refused in
front of the first one that is not whole. -/

namespace DeviceLedger

namespace Cursor

/-- What may be asked of a cursor: a field of some shape, an identifier or an address. -/
inductive Request where
  | field (shape : RecordField.Shape)
  | identifier
  | address

/-- The read that answers a request. -/
def Request.read : Request → Read RecordField
  | field shape => shape.read
  | identifier => return .fixed (← Cursor.fixed 32).bytes
  | address => return .fixed (← Cursor.fixed 33).bytes

/-- The widths of the pieces that a request takes at a cursor. A sized field takes two, and the
number in the first piece is the width of the second. -/
def Request.widths (cursor : Cursor) : Request → List Nat
  | field .u8 => [1]
  | field .u16 => [2]
  | field .u64 => [8]
  | field (.fixed width) => [width]
  | field .sized => [2, (Bytes.toUInt16 ((cursor.data.drop cursor.position).take 2)).toNat]
  | identifier => [32]
  | address => [33]

/-- How a read ends that takes pieces of these widths at a cursor. If all of them are there, it
finds something and moves the cursor behind them. Otherwise it is refused at the first piece
that is not whole. The cursor then stands in front of this piece, and the error says how wide
the piece is, where the cursor stands and how many bytes are left. -/
structure EndsIn {α : Type} (read : Read α) (widths : List Nat) (cursor : Cursor) : Prop where
  found : cursor.position + widths.sum ≤ cursor.data.length →
    ∃ found, read cursor = (.ok found, cursor.advance widths.sum)
  refused : cursor.data.length < cursor.position + widths.sum →
    ∃ width offset, FallsInto widths (cursor.data.length - cursor.position) width offset ∧
      read cursor = (.error (.malformed cursor.entity (.short width (cursor.position + offset)
        (cursor.data.length - (cursor.position + offset)))), cursor.advance offset)

section Ends

variable {α β : Type} {cursor : Cursor}

theorem advance_advance (cursor : Cursor) (first second : Nat) :
    (cursor.advance first).advance second = cursor.advance (first + second) := by
  simp only [advance, Nat.add_assoc]

/-- The bytes of a fixed field are those that would be taken. -/
theorem take_bind_pure_eq (width : Nat) (present : Bytes → α) :
    (do return present (← take width) : Read α) =
      do return present (← fixed width).bytes := by
  funext cursor
  simp only [Fallible.bind_apply]
  by_cases hInside : cursor.position + width ≤ cursor.data.length
  · obtain ⟨found, hBytes, hFixed⟩ := fixed_of_le hInside
    rw [take_of_le hInside, hFixed, ← hBytes]
  · have hOutside := Nat.lt_of_not_le hInside
    rw [take_of_lt hOutside, fixed_of_lt hOutside]

/-- A read of one piece finds it whole or is refused in place. -/
theorem EndsIn.of_piece {read : Read α} {width : Nat}
    (hPosition : cursor.position ≤ cursor.data.length)
    (hFound : cursor.position + width ≤ cursor.data.length →
      ∃ found, read cursor = (.ok found, cursor.advance width))
    (hRefused : cursor.data.length < cursor.position + width →
      read cursor = (.error (cursor.shortage width), cursor)) : EndsIn read [width] cursor := by
  constructor
  case found =>
    rw [List.sum_singleton]
    exact hFound
  case refused =>
    rw [List.sum_singleton]
    intro hOutside
    exact ⟨width, 0, ⟨⟨[], [], rfl, rfl⟩, Nat.zero_le _, by omega⟩, hRefused hOutside⟩

theorem endsIn_take (count : Nat) (hPosition : cursor.position ≤ cursor.data.length) :
    EndsIn (take count) [count] cursor :=
  .of_piece hPosition (fun hInside => ⟨_, take_of_le hInside⟩) take_of_lt

theorem endsIn_fixed (width : Nat) (hPosition : cursor.position ≤ cursor.data.length) :
    EndsIn (fixed width) [width] cursor := by
  refine .of_piece hPosition (fun hInside => ?_) fixed_of_lt
  obtain ⟨found, -, hFixed⟩ := fixed_of_le hInside
  exact ⟨found, hFixed⟩

/-- The second read takes its pieces where the first one left the cursor. -/
theorem EndsIn.bind {read : Read α} {next : α → Read β} {widths widths' : List Nat}
    (hRead : EndsIn read widths cursor)
    (hNext : ∀ first, cursor.position + widths.sum ≤ cursor.data.length →
      (read cursor).1 = .ok first → EndsIn (next first) widths' (cursor.advance widths.sum)) :
    EndsIn (read >>= next) (widths ++ widths') cursor := by
  constructor
  case found =>
    intro hInside
    rw [List.sum_append] at hInside ⊢
    have hFront : cursor.position + widths.sum ≤ cursor.data.length := by omega
    obtain ⟨first, hFirst⟩ := hRead.found hFront
    obtain ⟨found, hFound⟩ := (hNext first hFront (by rw [hFirst])).found
      (by simp only [advance]; omega)
    refine ⟨found, ?_⟩
    rw [Fallible.bind_apply, hFirst]
    simp only
    rw [hFound, advance_advance]
  case refused =>
    intro hOutside
    rw [List.sum_append] at hOutside
    by_cases hFront : cursor.position + widths.sum ≤ cursor.data.length
    · obtain ⟨first, hFirst⟩ := hRead.found hFront
      obtain ⟨width, offset, hFalls, hRefused⟩ := (hNext first hFront (by rw [hFirst])).refused
        (by simp only [advance]; omega)
      have hLeft : widths.sum + (cursor.data.length - (cursor.position + widths.sum)) =
          cursor.data.length - cursor.position := by omega
      refine ⟨width, widths.sum + offset, hLeft ▸ hFalls.prepend widths, ?_⟩
      rw [Fallible.bind_apply, hFirst]
      simp only
      rw [hRefused, advance_advance]
      simp only [advance, Nat.add_assoc]
    · obtain ⟨width, offset, hFalls, hRefused⟩ := hRead.refused (Nat.lt_of_not_le hFront)
      refine ⟨width, offset, hFalls.append widths', ?_⟩
      rw [Fallible.bind_apply, hRefused]

/-- The presentation of what was found takes no piece. -/
theorem EndsIn.bind_pure {read : Read α} {widths : List Nat} (hRead : EndsIn read widths cursor)
    (present : α → β) :
    EndsIn (read >>= fun found => Pure.pure (present found)) widths cursor := by
  have hBind : EndsIn (read >>= fun found => Pure.pure (present found)) (widths ++ []) cursor := by
    refine hRead.bind fun first hInside _ => ⟨fun _ => ⟨present first, rfl⟩, fun hOutside => ?_⟩
    exact absurd hInside (Nat.not_le_of_lt hOutside)
  rwa [List.append_nil] at hBind

/-- The two bytes in front of a sized field are the number that is read. -/
theorem u16_found {number : UInt16} (hInside : cursor.position + 2 ≤ cursor.data.length)
    (hFound : (u16 cursor).1 = .ok number) :
    number = Bytes.toUInt16 ((cursor.data.drop cursor.position).take 2) := by
  rw [u16, Fallible.bind_apply, take_of_le hInside] at hFound
  exact (Except.ok.inj hFound).symm

theorem endsIn_u16 (hPosition : cursor.position ≤ cursor.data.length) : EndsIn u16 [2] cursor :=
  (endsIn_take 2 hPosition).bind_pure Bytes.toUInt16

theorem endsIn_sized (hPosition : cursor.position ≤ cursor.data.length) :
    EndsIn sized ((Request.field .sized).widths cursor) cursor := by
  refine (endsIn_u16 hPosition).bind fun length hInside hLength => ?_
  rw [← u16_found hInside hLength]
  exact endsIn_take length.toNat hInside

/-- A request ends as the widths of its pieces say. -/
theorem Request.endsIn (request : Request) (hPosition : cursor.position ≤ cursor.data.length) :
    EndsIn request.read (request.widths cursor) cursor := by
  cases request with
  | field shape =>
      cases shape with
      | u8 => exact ((endsIn_take 1 hPosition).bind_pure _).bind_pure RecordField.u8
      | u16 => exact (endsIn_u16 hPosition).bind_pure RecordField.u16
      | u64 => exact ((endsIn_take 8 hPosition).bind_pure _).bind_pure RecordField.u64
      | fixed width => exact (endsIn_take width hPosition).bind_pure RecordField.fixed
      | sized => exact (endsIn_sized hPosition).bind_pure RecordField.sized
  | identifier =>
      exact (endsIn_fixed 32 hPosition).bind_pure fun found => RecordField.fixed found.bytes
  | address =>
      exact (endsIn_fixed 33 hPosition).bind_pure fun found => RecordField.fixed found.bytes

end Ends

end Cursor

end DeviceLedger
