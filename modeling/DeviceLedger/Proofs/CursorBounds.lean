import DeviceLedger.Proofs.FieldRequests

/-! Reads that stay inside of their data. The numbers of a machine end at a greatest one, so a
sum may be none of them; and the machine stops at a difference below zero and at a slice that
leaves the data. However many reads follow one another, of whatever widths and after whatever
failures, it never stops: they come to what the reads of a cursor come to, and what they took,
one piece behind the other, is just what stands in front of the cursor. -/

namespace DeviceLedger

namespace Machine

/-- A sum, unless it is beyond the greatest number. -/
def sum? (greatest first second : Nat) : Option Nat :=
  if first + second ≤ greatest then some (first + second) else none

/-- A difference. Below zero the machine stops. -/
def difference (first second : Nat) : Option Nat :=
  if second ≤ first then some (first - second) else none

/-- The bytes between two positions. Where they are out of order or outside of the data, the
machine stops. -/
def slice (data : Bytes) (first last : Nat) : Option Bytes :=
  if first ≤ last ∧ last ≤ data.length then some ((data.drop first).take (last - first)) else none

/-- A byte string as a value of a fixed width. The machine stops if the length is another. -/
def exactly (width : Nat) (bytes : Bytes) : Option (Fixed width) :=
  if h : bytes.length = width then some ⟨bytes, h⟩ else none

/-- A cursor, and the slices that were taken from its data. -/
structure Trail where
  cursor : Cursor
  slices : List Bytes

/-- A read that may stop the machine. -/
abbrev Read (α : Type) := ExceptT StorageError (StateT Trail Option) α

/-- The position behind the bytes is compared with the length of the data only if it is a number. -/
def take (greatest count : Nat) : Read Bytes := fun trail =>
  let cursor := trail.cursor
  match (sum? greatest cursor.position count).filter (· ≤ cursor.data.length) with
  | some last => do
    let bytes ← slice cursor.data cursor.position last
    return (.ok bytes, ⟨{ cursor with position := last }, trail.slices ++ [bytes]⟩)
  | none => do
    let left ← difference cursor.data.length cursor.position
    return (.error (.malformed cursor.entity (.short count cursor.position left)), trail)

/-- As many bytes as the width are taken, and converted. -/
def fixed (greatest width : Nat) : Read (Fixed width) := do
  let bytes ← take greatest width
  exactly width bytes

/-- The first of the bytes that are taken. Without a first one the machine stops. -/
def u8 (greatest : Nat) : Read UInt8 := do
  let bytes ← take greatest 1
  bytes.head?

def u16 (greatest : Nat) : Read UInt16 := do
  return Bytes.toUInt16 (← fixed greatest 2).bytes

def u64 (greatest : Nat) : Read UInt64 := do
  return Bytes.toUInt64 (← fixed greatest 8).bytes

def sized (greatest : Nat) : Read Bytes := do
  let length ← u16 greatest
  take greatest length.toNat

/-- What is left over is counted only in front of the end. -/
def finish : Read Unit := fun trail =>
  let cursor := trail.cursor
  if cursor.position = cursor.data.length then some (.ok (), trail)
  else do
    let left ← difference cursor.data.length cursor.position
    return (.error (.malformed cursor.entity (.trailing left)), trail)

/-- The read on the machine that answers a request. -/
def answer (greatest : Nat) : Cursor.Request → Read RecordField
  | .field .u8 => return .u8 (← u8 greatest)
  | .field .u16 => return .u16 (← u16 greatest)
  | .field .u64 => return .u64 (← u64 greatest)
  | .field (.fixed width) => return .fixed (← take greatest width)
  | .field .sized => return .sized (← sized greatest)
  | .identifier => return .fixed (← fixed greatest 32).bytes
  | .address => return .fixed (← fixed greatest 33).bytes

/-- Reads one after the other, whatever they come to. -/
def runAll {α : Type} : List (Read α) → Trail → Option (List (Except StorageError α) × Trail)
  | [], trail => some ([], trail)
  | first :: rest, trail => do
    let (result, next) ← first trail
    let (results, last) ← runAll rest next
    return (result :: results, last)

/-- The slices of a trail are all that stands in front of its cursor, which is at a position of
these data. -/
structure Trail.Covers (trail : Trail) (entity : String) (data : Bytes) : Prop where
  entity_eq : trail.cursor.entity = entity
  data_eq : trail.cursor.data = data
  position_le : trail.cursor.position ≤ data.length
  flatten_eq : trail.slices.flatten = data.take trail.cursor.position

theorem Trail.Covers.position_inside {trail : Trail} {entity : String} {data : Bytes}
    (hTrail : trail.Covers entity data) : trail.cursor.position ≤ trail.cursor.data.length :=
  hTrail.data_eq ▸ hTrail.position_le

variable {greatest : Nat} {α β : Type}

/-- A read on the machine follows a read of a cursor in data whose length is a number. It does
not stop, comes to the same result and leaves the cursor at the same place, and what it took
is added to the trail. -/
def Follows (greatest : Nat) (onMachine : Read α) (read : Cursor.Read α) : Prop :=
  ∀ (entity : String) (data : Bytes) (trail : Trail), data.length ≤ greatest →
    trail.Covers entity data → ∃ slices,
      onMachine trail = some ((read trail.cursor).1, ⟨(read trail.cursor).2, slices⟩) ∧
        Trail.Covers ⟨(read trail.cursor).2, slices⟩ entity data

/-- The next read starts from the trail that the first one leaves, unless that was refused or
stopped the machine. -/
theorem bind_apply (first : Read α) (next : α → Read β) (trail : Trail) :
    (first >>= next) trail = (first trail).bind fun
      | (.ok found, after) => next found after
      | (.error error, after) => some (.error error, after) := by
  change (first trail).bind (fun step => ExceptT.bindCont next step.1 step.2) = _
  congr
  funext step
  obtain ⟨result, after⟩ := step
  cases result <;> rfl

theorem Follows.bind {onMachine : Read α} {read : Cursor.Read α} {next : α → Read β}
    {next' : α → Cursor.Read β} (hRead : Follows greatest onMachine read)
    (hNext : ∀ first, Follows greatest (next first) (next' first)) :
    Follows greatest (onMachine >>= next) (read >>= next') := by
  intro entity data trail hData hTrail
  obtain ⟨slices, hFirst, hAfter⟩ := hRead entity data trail hData hTrail
  rw [bind_apply, hFirst, Fallible.bind_apply, Option.bind_some]
  cases hStep : read trail.cursor with
  | mk result after =>
      rw [hStep] at hAfter
      cases result with
      | ok first => exact hNext first entity data ⟨after, slices⟩ hData hAfter
      | error error => exact ⟨slices, rfl, hAfter⟩

theorem Follows.bind_pure {onMachine : Read α} {read : Cursor.Read α}
    (hRead : Follows greatest onMachine read) (present : α → β) :
    Follows greatest (onMachine >>= fun found => pure (present found))
      (read >>= fun found => pure (present found)) :=
  hRead.bind fun _ _ _ trail _ hTrail => ⟨trail.slices, rfl, hTrail⟩

section Pieces

variable {trail : Trail} {count : Nat}

/-- A piece inside of the data is taken, since the position behind it is a number. -/
theorem take_of_le (hData : trail.cursor.data.length ≤ greatest)
    (hInside : trail.cursor.position + count ≤ trail.cursor.data.length) :
    take greatest count trail =
      some (.ok ((trail.cursor.data.drop trail.cursor.position).take count),
        ⟨trail.cursor.advance count,
          trail.slices ++ [(trail.cursor.data.drop trail.cursor.position).take count]⟩) := by
  have hSum : sum? greatest trail.cursor.position count = some (trail.cursor.position + count) :=
    if_pos (hInside.trans hData)
  have hSlice : slice trail.cursor.data trail.cursor.position (trail.cursor.position + count) =
      some ((trail.cursor.data.drop trail.cursor.position).take count) := by
    rw [slice, if_pos ⟨Nat.le_add_right _ _, hInside⟩, Nat.add_sub_cancel_left]
  simp only [take, hSum, Option.filter_some, hInside, decide_true, ↓reduceIte, hSlice]
  rfl

/-- A piece that would leave the data is refused, whether or not the position behind it is a
number. A cursor inside of the data can count what is left. -/
theorem take_of_lt (hPosition : trail.cursor.position ≤ trail.cursor.data.length)
    (hOutside : trail.cursor.data.length < trail.cursor.position + count) :
    take greatest count trail = some (.error (trail.cursor.shortage count), trail) := by
  have hSum : (sum? greatest trail.cursor.position count).filter
      (· ≤ trail.cursor.data.length) = none := by
    rw [Option.filter_eq_none_iff]
    intro last hLast
    obtain ⟨-, hLast⟩ := Option.ite_none_right_eq_some.mp hLast
    cases hLast
    simpa using hOutside
  have hLeft : difference trail.cursor.data.length trail.cursor.position =
      some (trail.cursor.data.length - trail.cursor.position) := if_pos hPosition
  simp only [take, hSum, hLeft]
  rfl

/-- What is taken next lies behind what was taken before. -/
theorem Trail.Covers.advance {entity : String} {data : Bytes} (hTrail : trail.Covers entity data)
    (hInside : trail.cursor.position + count ≤ trail.cursor.data.length) :
    Trail.Covers ⟨trail.cursor.advance count,
      trail.slices ++ [(trail.cursor.data.drop trail.cursor.position).take count]⟩ entity data := by
  obtain ⟨hEntity, rfl, hPosition, hSlices⟩ := hTrail
  refine ⟨hEntity, rfl, hInside, ?_⟩
  rw [List.flatten_append, hSlices, List.flatten_singleton, Cursor.advance, List.take_add]

theorem follows_take (count : Nat) :
    Follows greatest (take greatest count) (Cursor.take count) := by
  intro entity data trail hData hTrail
  by_cases hInside : trail.cursor.position + count ≤ trail.cursor.data.length
  · rw [take_of_le (hTrail.data_eq ▸ hData) hInside, Cursor.take_of_le hInside]
    exact ⟨_, rfl, hTrail.advance hInside⟩
  · have hOutside := Nat.lt_of_not_le hInside
    rw [take_of_lt hTrail.position_inside hOutside, Cursor.take_of_lt hOutside]
    exact ⟨_, rfl, hTrail⟩

/-- A piece that was taken has the length that its conversion needs. -/
theorem follows_converted {convert : Bytes → Option α} {read : Cursor.Read α}
    (hFound : ∀ cursor : Cursor, cursor.position + count ≤ cursor.data.length →
      ∃ found, convert ((cursor.data.drop cursor.position).take count) = some found ∧
        read cursor = (.ok found, cursor.advance count))
    (hRefused : ∀ cursor : Cursor, cursor.data.length < cursor.position + count →
      read cursor = (.error (cursor.shortage count), cursor)) :
    Follows greatest (do let bytes ← take greatest count; convert bytes) read := by
  intro entity data trail hData hTrail
  obtain ⟨slices, hTaken, hAfter⟩ := follows_take count entity data trail hData hTrail
  rw [bind_apply, hTaken, Option.bind_some]
  by_cases hInside : trail.cursor.position + count ≤ trail.cursor.data.length
  · obtain ⟨found, hConvert, hRead⟩ := hFound trail.cursor hInside
    rw [Cursor.take_of_le hInside] at hAfter ⊢
    simp only
    rw [hConvert, hRead]
    exact ⟨slices, rfl, hAfter⟩
  · have hOutside := Nat.lt_of_not_le hInside
    rw [Cursor.take_of_lt hOutside] at hAfter ⊢
    rw [hRefused trail.cursor hOutside]
    exact ⟨slices, rfl, hAfter⟩

theorem follows_fixed (width : Nat) :
    Follows greatest (fixed greatest width) (Cursor.fixed width) := by
  refine follows_converted (fun cursor hInside => ?_) fun _ => Cursor.fixed_of_lt
  obtain ⟨found, hBytes, hFixed⟩ := Cursor.fixed_of_le hInside
  refine ⟨found, ?_, hFixed⟩
  rw [← hBytes]
  exact dif_pos found.length_eq

theorem follows_u8 : Follows greatest (u8 greatest) Cursor.u8 := by
  refine follows_converted (fun cursor hInside => ?_) fun cursor hOutside => ?_
  · have hLength : ((cursor.data.drop cursor.position).take 1).length = 1 := by simp; omega
    obtain ⟨byte, hByte⟩ := List.length_eq_one_iff.mp hLength
    refine ⟨byte, by rw [hByte, List.head?_cons], ?_⟩
    rw [Cursor.u8, Fallible.bind_apply, Cursor.take_of_le hInside, hByte]
    rfl
  · rw [Cursor.u8, Fallible.bind_apply, Cursor.take_of_lt hOutside]

theorem follows_u16 : Follows greatest (u16 greatest) Cursor.u16 := by
  rw [Cursor.u16, Cursor.take_bind_pure_eq]
  exact (follows_fixed 2).bind_pure fun found => Bytes.toUInt16 found.bytes

theorem follows_u64 : Follows greatest (u64 greatest) Cursor.u64 := by
  rw [Cursor.u64, Cursor.take_bind_pure_eq]
  exact (follows_fixed 8).bind_pure fun found => Bytes.toUInt64 found.bytes

theorem follows_sized : Follows greatest (sized greatest) Cursor.sized :=
  follows_u16.bind fun length => follows_take length.toNat

/-- At a position of the data it can be told how many bytes are left over. -/
theorem finish_eq (hPosition : trail.cursor.position ≤ trail.cursor.data.length) :
    finish trail = some ((Cursor.finish trail.cursor).1, trail) := by
  by_cases hEnd : trail.cursor.position = trail.cursor.data.length
  · simp only [finish, Cursor.finish, if_pos hEnd]
  · simp only [finish, Cursor.finish, if_neg hEnd, difference, if_pos hPosition]
    rfl

end Pieces

/-- Every request is answered on the machine as by a cursor. -/
theorem follows_answer (request : Cursor.Request) :
    Follows greatest (answer greatest request) request.read := by
  cases request with
  | field shape =>
      cases shape with
      | u8 => exact follows_u8.bind_pure RecordField.u8
      | u16 => exact follows_u16.bind_pure RecordField.u16
      | u64 => exact follows_u64.bind_pure RecordField.u64
      | fixed width => exact (follows_take width).bind_pure RecordField.fixed
      | sized => exact follows_sized.bind_pure RecordField.sized
  | identifier => exact (follows_fixed 32).bind_pure fun found => RecordField.fixed found.bytes
  | address => exact (follows_fixed 33).bind_pure fun found => RecordField.fixed found.bytes

/-- A run of requests never stops, and its trail covers what stands in front of the cursor. -/
theorem runAll_answer {entity : String} {data : Bytes} (hData : data.length ≤ greatest)
    (requests : List Cursor.Request) {trail : Trail} (hTrail : trail.Covers entity data) :
    ∃ slices,
      runAll (requests.map (answer greatest)) trail =
        some ((Fallible.runAll (requests.map Cursor.Request.read) trail.cursor).1,
          ⟨(Fallible.runAll (requests.map Cursor.Request.read) trail.cursor).2, slices⟩) ∧
      Trail.Covers ⟨(Fallible.runAll (requests.map Cursor.Request.read) trail.cursor).2, slices⟩
        entity data := by
  induction requests generalizing trail with
  | nil => exact ⟨trail.slices, rfl, hTrail⟩
  | cons request requests ih =>
      obtain ⟨taken, hFirst, hNext⟩ := follows_answer request entity data trail hData hTrail
      obtain ⟨slices, hRest, hLast⟩ := ih hNext
      refine ⟨slices, ?_, hLast⟩
      simp only [List.map_cons, runAll, hFirst, Fallible.runAll_cons, Option.bind_eq_bind,
        Option.bind_some, hRest]
      rfl

end Machine

/-- Reads never leave their data. Take any data whose length is a number of the machine, and
make any requests of a cursor at the start, one after the other, whatever each of them comes
to. The machine never stops at them, nor where it then looks for the end: it comes to the same
results. The cursor then stands inside of the data, and the slices that were taken, one behind
the other, are all that stands in front of it. Whatever is asked next, and be it as many bytes as
no machine can count, is found if all its pieces are there, and the cursor moves by their widths;
a sized field has a piece of two bytes, and one of as many bytes as these two say. Otherwise
the cursor stands still in front of the first piece that is not whole, and the error says what this
piece needs, where the cursor stands and what is left. -/
theorem cursor_stays_inside (greatest : Nat) (entity : String) (data : Bytes)
    (hData : data.length ≤ greatest) (requests : List Cursor.Request) :
    let (results, cursor) :=
      Fallible.runAll (requests.map Cursor.Request.read) (Cursor.start entity data)
    ∃ slices : List Bytes,
      Machine.runAll (requests.map (Machine.answer greatest)) ⟨Cursor.start entity data, []⟩ =
        some (results, ⟨cursor, slices⟩) ∧
      Machine.finish ⟨cursor, slices⟩ = some ((Cursor.finish cursor).1, ⟨cursor, slices⟩) ∧
      cursor.entity = entity ∧ cursor.data = data ∧ cursor.position ≤ data.length ∧
      slices.flatten = data.take cursor.position ∧
      ∀ request : Cursor.Request, cursor.EndsIn request.read (request.widths cursor) := by
  have hStart : Machine.Trail.Covers ⟨Cursor.start entity data, []⟩ entity data :=
    ⟨rfl, rfl, Nat.zero_le _, rfl⟩
  obtain ⟨slices, hRun, hTrail⟩ := Machine.runAll_answer hData requests hStart
  exact ⟨slices, hRun, Machine.finish_eq hTrail.position_inside, hTrail.entity_eq, hTrail.data_eq,
    hTrail.position_le, hTrail.flatten_eq, fun request => request.endsIn hTrail.position_inside⟩

/-- Behind the first of four bytes, more are asked for than a sum can count. Then a sized field
wants three bytes where one is left, and this one is taken after all. -/
theorem huge_request_refused_in_place :
    let data : Bytes := [9, 0, 3, 72]
    let huge := 18446744073709551615
    data.length ≤ huge ∧
    ∃ slices : List Bytes,
      Machine.runAll ([.field .u8, .field (.fixed huge), .field .sized, .field (.fixed 1),
          .identifier].map (Machine.answer huge)) ⟨Cursor.start "asset" data, []⟩ =
        some ([.ok (.u8 9), .error (.malformed "asset" (.short huge 1 3)),
          .error (.malformed "asset" (.short 3 3 1)), .ok (.fixed [72]),
          .error (.malformed "asset" (.short 32 4 0))], ⟨⟨"asset", data, 4⟩, slices⟩) ∧
      slices.flatten = data := by
  intro data huge
  refine ⟨by decide, ?_⟩
  obtain ⟨slices, hRun, -, -, -, -, hSlices, -⟩ := cursor_stays_inside huge "asset" data (by decide)
    [.field .u8, .field (.fixed huge), .field .sized, .field (.fixed 1), .identifier]
  exact ⟨slices, hRun, hSlices⟩

/-- A cursor outside of its data would stop the machine. -/
example : Machine.finish ⟨⟨"asset", [], 1⟩, []⟩ = none := by
  rfl

end DeviceLedger
