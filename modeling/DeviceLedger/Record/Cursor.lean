import DeviceLedger.Error

/-!
Reading the fields of a record one behind the other. A cursor stands at a position of its data; a
read that would leave the data fails, says what it needed and leaves the cursor where it was.
-/

namespace DeviceLedger

/-- A position in the bytes of a record of the named entity. -/
structure Cursor where
  entity : String
  data : Bytes
  position : Nat

namespace Cursor

def start (entity : String) (data : Bytes) : Cursor := ⟨entity, data, 0⟩

/-- A step that reads from a cursor and moves it. -/
abbrev Read (α : Type) := ExceptT StorageError (StateM Cursor) α

/-- The cursor `count` bytes further on. -/
def advance (cursor : Cursor) (count : Nat) : Cursor :=
  { cursor with position := cursor.position + count }

/-- The error of a read that would leave the data. -/
def shortage (cursor : Cursor) (count : Nat) : StorageError :=
  .malformed cursor.entity (.short count cursor.position (cursor.data.length - cursor.position))

def take (count : Nat) : Read Bytes := fun cursor =>
  if cursor.position + count ≤ cursor.data.length then
    (.ok ((cursor.data.drop cursor.position).take count), cursor.advance count)
  else
    (.error (cursor.shortage count), cursor)

def u8 : Read UInt8 := do
  return (← take 1).headD 0

def u16 : Read UInt16 := do
  return Bytes.toUInt16 (← take 2)

def u64 : Read UInt64 := do
  return Bytes.toUInt64 (← take 8)

def fixed (width : Nat) : Read (Fixed width) := fun cursor =>
  if h : cursor.position + width ≤ cursor.data.length then
    (.ok ⟨(cursor.data.drop cursor.position).take width, by simp; omega⟩, cursor.advance width)
  else
    (.error (cursor.shortage width), cursor)

/-- A length of two bytes and as many bytes behind it. -/
def sized : Read Bytes := do
  let length ← u16
  take length.toNat

/-- The end of the data, where nothing may be left over. -/
def finish : Read Unit := fun cursor =>
  if cursor.position = cursor.data.length then (.ok (), cursor)
  else
    (.error (.malformed cursor.entity (.trailing (cursor.data.length - cursor.position))), cursor)

/-- Read a whole record of the named entity. -/
def run {α : Type} (entity : String) (data : Bytes) (read : Read α) : Except StorageError α :=
  ((do
    let record ← read
    finish
    return record : Read α) (start entity data)).1

end Cursor

/-- A bare amount, the whole value of a balance, a loan or a counter. -/
def decodeAmount (entity : String) (value : Bytes) : Except StorageError UInt64 :=
  Cursor.run entity value Cursor.u64

/-- The value of a bare amount. -/
def encodeAmount (amount : UInt64) : Bytes :=
  Bytes.ofUInt64 amount

end DeviceLedger
