import DeviceLedger.Proofs.RecordCodec

/-! What reads of a cursor find. A field that was read is spelled by the bytes in front of
the cursor, which then stands behind them; so a record that was read spells the whole
data. A read of a fixed width finds something in any bytes of that width. -/

namespace DeviceLedger

namespace Cursor

variable {α β : Type}

/-- What a read finds is spelled by the bytes in front of the cursor, and the cursor then
stands behind them. -/
def FindsOnly (read : Read α) (Spells : Bytes → α → Prop) : Prop :=
  ∀ (entity : String) (before rest : Bytes) (found : α) (after : Cursor),
    read ⟨entity, before ++ rest, before.length⟩ = (.ok found, after) →
      ∃ bytes tail, rest = bytes ++ tail ∧ Spells bytes found ∧
        after = ⟨entity, before ++ rest, (before ++ bytes).length⟩

variable {read : Read α} {Spells : Bytes → α → Prop}

theorem FindsOnly.mono (hRead : FindsOnly read Spells) {Wider : Bytes → α → Prop}
    (hWider : ∀ bytes found, Spells bytes found → Wider bytes found) : FindsOnly read Wider := by
  intro entity before rest found after hFound
  obtain ⟨bytes, tail, hRest, hSpells, hAfter⟩ := hRead entity before rest found after hFound
  exact ⟨bytes, tail, hRest, hWider bytes found hSpells, hAfter⟩

theorem FindsOnly.bind {next : α → Read β} {Spells' : α → Bytes → β → Prop}
    (hRead : FindsOnly read Spells) (hNext : ∀ first, FindsOnly (next first) (Spells' first)) :
    FindsOnly (read >>= next) fun bytes found => ∃ first front back,
      bytes = front ++ back ∧ Spells front first ∧ Spells' first back found := by
  intro entity before rest found after hFound
  rw [Fallible.bind_apply] at hFound
  cases hFirst : read ⟨entity, before ++ rest, before.length⟩ with
  | mk result middle =>
      rw [hFirst] at hFound
      cases result with
      | error error => cases hFound
      | ok first =>
          obtain ⟨front, tail, rfl, hFront, rfl⟩ := hRead _ _ _ _ _ hFirst
          rw [← List.append_assoc] at hFound
          obtain ⟨back, tail, rfl, hBack, rfl⟩ := hNext first _ _ _ _ _ hFound
          exact ⟨front ++ back, tail, by simp, ⟨first, front, back, rfl, hFront, hBack⟩, by simp⟩

/-- The construction of the record reads nothing. -/
theorem FindsOnly.bind_pure (hRead : FindsOnly read Spells) (present : α → β) :
    FindsOnly (read >>= fun found => Pure.pure (present found)) fun bytes found =>
      ∃ first, Spells bytes first ∧ found = present first := by
  have hPure : ∀ first, FindsOnly (Pure.pure (present first)) fun bytes found =>
      bytes = [] ∧ found = present first := by
    intro first entity before rest found after hFound
    cases hFound
    exact ⟨[], rest, rfl, ⟨rfl, rfl⟩, by simp⟩
  refine (hRead.bind hPure).mono ?_
  rintro bytes found ⟨first, front, back, rfl, hFirst, rfl, rfl⟩
  rw [List.append_nil]
  exact ⟨first, hFirst, rfl⟩

/-- A whole record is spelled by the whole data. -/
theorem FindsOnly.of_run (hRead : FindsOnly read Spells) {entity : String} {data : Bytes}
    {found : α} (hRun : run entity data read = .ok found) : Spells data found := by
  rw [run, start, Fallible.bind_apply] at hRun
  cases hFirst : read ⟨entity, data, 0⟩ with
  | mk result middle =>
      rw [hFirst] at hRun
      cases result with
      | error error => cases hRun
      | ok first =>
          obtain ⟨bytes, tail, rfl, hSpells, rfl⟩ := hRead entity [] data first middle hFirst
          simp only [Fallible.bind_apply, finish] at hRun
          -- bytes behind the record would be refused at the end
          cases tail with
          | nil =>
              simp only [List.nil_append, List.append_nil, ↓reduceIte] at hRun ⊢
              cases hRun
              exact hSpells
          | cons byte tail =>
              rw [if_neg (by simp)] at hRun
              cases hRun

/-- Bytes that can be read are there. -/
theorem length_take_of_inside {before rest : Bytes} {count : Nat}
    (hInside : before.length + count ≤ (before ++ rest).length) :
    (rest.take count).length = count := by
  rw [List.length_append] at hInside
  rw [List.length_take]
  omega

theorem findsOnly_take (count : Nat) :
    FindsOnly (take count) fun bytes found => bytes = found ∧ bytes.length = count := by
  intro entity before rest found after hFound
  simp only [take] at hFound
  split at hFound
  · rename_i hInside
    have hLength := length_take_of_inside hInside
    cases hFound
    exact ⟨rest.take count, rest.drop count, (List.take_append_drop count rest).symm,
      ⟨by simp, hLength⟩, by simp [advance, hLength]⟩
  · cases hFound

theorem findsOnly_u8 : FindsOnly u8 fun bytes byte => bytes = [byte] := by
  refine ((findsOnly_take 1).bind_pure fun bytes => bytes.headD 0).mono ?_
  rintro bytes found ⟨_, ⟨rfl, hLength⟩, rfl⟩
  obtain ⟨byte, rfl⟩ := List.length_eq_one_iff.mp hLength
  rfl

theorem findsOnly_u16 : FindsOnly u16 fun bytes number => bytes = Bytes.ofUInt16 number := by
  refine ((findsOnly_take 2).bind_pure Bytes.toUInt16).mono ?_
  rintro bytes found ⟨_, ⟨rfl, hLength⟩, rfl⟩
  exact (Bytes.ofUInt16_toUInt16 hLength).symm

theorem findsOnly_u64 : FindsOnly u64 fun bytes number => bytes = Bytes.ofUInt64 number := by
  refine ((findsOnly_take 8).bind_pure Bytes.toUInt64).mono ?_
  rintro bytes found ⟨_, ⟨rfl, hLength⟩, rfl⟩
  exact (Bytes.ofUInt64_toUInt64 hLength).symm

theorem findsOnly_fixed (width : Nat) :
    FindsOnly (fixed width) fun bytes value => bytes = value.bytes := by
  intro entity before rest found after hFound
  simp only [fixed] at hFound
  split at hFound
  · rename_i hInside
    have hLength := length_take_of_inside hInside
    cases hFound
    exact ⟨rest.take width, rest.drop width, (List.take_append_drop width rest).symm, by simp,
      by simp [advance, hLength]⟩
  · cases hFound

theorem findsOnly_sized :
    FindsOnly sized fun bytes found => found.length ≤ Writer.sizedLimit ∧
      bytes = Bytes.ofUInt16 (UInt16.ofNat found.length) ++ found := by
  refine (findsOnly_u16.bind fun length => findsOnly_take length.toNat).mono ?_
  rintro bytes found ⟨length, _, _, rfl, rfl, rfl, hLength⟩
  have hLt := length.toNat_lt
  rw [hLength, UInt16.ofNat_toNat]
  exact ⟨Nat.le_of_lt_succ hLt, rfl⟩

/-- A read finds something in every byte string of its width. -/
def Accepts (read : Read α) (width : Nat) : Prop :=
  ∀ bytes : Bytes, bytes.length = width → ∃ found, Parses read bytes found

theorem Accepts.bind {next : α → Read β} {width width' : Nat} (hRead : Accepts read width)
    (hNext : ∀ first, Accepts (next first) width') : Accepts (read >>= next) (width + width') := by
  intro bytes hLength
  obtain ⟨first, hFirst⟩ := hRead (bytes.take width) (by rw [List.length_take]; omega)
  obtain ⟨found, hFound⟩ := hNext first (bytes.drop width) (by rw [List.length_drop]; omega)
  have hBoth := hFirst.bind hFound
  rw [List.take_append_drop] at hBoth
  exact ⟨found, hBoth⟩

theorem Accepts.bind_pure {width : Nat} (hRead : Accepts read width) (present : α → β) :
    Accepts (read >>= fun found => Pure.pure (present found)) width := by
  intro bytes hLength
  obtain ⟨first, hFirst⟩ := hRead bytes hLength
  exact ⟨present first, hFirst.bind_pure present⟩

theorem accepts_take (count : Nat) : Accepts (take count) count :=
  fun bytes hLength => ⟨bytes, parses_take hLength⟩

theorem accepts_u8 : Accepts u8 1 := (accepts_take 1).bind_pure fun bytes => bytes.headD 0

theorem accepts_u64 : Accepts u64 8 := (accepts_take 8).bind_pure Bytes.toUInt64

theorem accepts_fixed (width : Nat) : Accepts (fixed width) width :=
  fun bytes hLength => ⟨⟨bytes, hLength⟩, parses_fixed ⟨bytes, hLength⟩⟩

theorem Accepts.run_ok {width : Nat} (hRead : Accepts read width) (entity : String)
    {data : Bytes} (hLength : data.length = width) : ∃ found, run entity data read = .ok found := by
  obtain ⟨found, hFound⟩ := hRead data hLength
  exact ⟨found, hFound.run_eq entity⟩

end Cursor

end DeviceLedger
