import DeviceLedger.Record.Slot
import Mathlib.Data.List.TakeWhile

/-! What is read back from a slot. Taking zero bytes off both ends leaves one value, which
neither begins nor ends with a zero byte, and the padding of a slot does not count for it. So a
slot holds the beginning of a value up to such bytes, and two values can be told apart in it only
if their beginnings differ in more than the zero bytes behind them. -/

namespace DeviceLedger.Slot

/-- A byte string that neither begins nor ends with a zero byte. -/
def IsBare (value : Bytes) : Prop := value.head? ≠ some 0 ∧ value.getLast? ≠ some 0

/-- A value is what is left of a slot when all zero bytes are taken off both its ends. -/
structure Strips (slot value : Bytes) : Prop where
  isBare : IsBare value
  padded : ∃ front back, slot = List.replicate front 0 ++ (value ++ List.replicate back 0)

/-- All zero bytes in front are dropped, and nothing else. -/
theorem dropWhile_zeros_append {value : Bytes} (hHead : value.head? ≠ some 0) (count : Nat) :
    (List.replicate count 0 ++ value).dropWhile (· == 0) = value := by
  rw [List.dropWhile_append_of_pos fun byte hMem => beq_iff_eq.mpr (List.eq_of_mem_replicate hMem)]
  cases value with
  | nil => rfl
  | cons byte rest =>
      have hByte : byte ≠ 0 := by simpa using hHead
      exact List.dropWhile_cons_of_neg (beq_iff_eq.not.mpr hByte)

theorem exists_zeros_append (bytes : Bytes) :
    (bytes.dropWhile (· == 0)).head? ≠ some 0 ∧
      ∃ count, bytes = List.replicate count 0 ++ bytes.dropWhile (· == 0) := by
  constructor
  · intro hHead
    have hNotZero := List.head?_dropWhile_not (· == (0 : UInt8)) bytes
    rw [hHead] at hNotZero
    cases hNotZero
  · have hZeros : ∀ byte ∈ bytes.takeWhile (· == 0), byte = 0 := by
      intro byte hMem
      simpa using List.mem_takeWhile_imp hMem
    refine ⟨(bytes.takeWhile (· == 0)).length, ?_⟩
    rw [← List.eq_replicate_of_mem hZeros, List.takeWhile_append_dropWhile]

theorem strips_trim (slot : Bytes) : Strips slot (trim slot) := by
  obtain ⟨hFront, front, hSlot⟩ := exists_zeros_append slot
  obtain ⟨hBack, back, hMiddle⟩ := exists_zeros_append (slot.dropWhile (· == 0)).reverse
  have hValue : slot.dropWhile (· == 0) = trim slot ++ List.replicate back 0 := by
    rw [← List.reverse_inj, List.reverse_append, List.reverse_replicate, trim, List.reverse_reverse]
    exact hMiddle
  refine ⟨⟨?_, ?_⟩, front, back, ?_⟩
  · intro hZero
    rw [hValue, List.head?_append, hZero] at hFront
    exact hFront rfl
  · rw [trim, List.getLast?_reverse]
    exact hBack
  · rw [← hValue]
    exact hSlot

/-- Only what is trimmed is left of a slot. -/
theorem Strips.eq_trim {slot value : Bytes} (hStrips : Strips slot value) : value = trim slot := by
  obtain ⟨⟨hHead, hLast⟩, front, back, rfl⟩ := hStrips
  have hReverse : value.reverse.head? ≠ some 0 := by
    rw [List.head?_reverse]
    exact hLast
  rw [trim]
  by_cases hEmpty : value = []
  · subst hEmpty
    have hNone : ([] : Bytes).head? ≠ some 0 := nofun
    have hZeros := dropWhile_zeros_append hNone (front + back)
    rw [List.append_nil] at hZeros
    rw [List.nil_append, List.replicate_append_replicate, hZeros]
    rfl
  · have hFront : (value ++ List.replicate back 0).head? ≠ some 0 := by
      rw [List.head?_append, List.head?_eq_some_head hEmpty]
      rwa [List.head?_eq_some_head hEmpty] at hHead
    rw [dropWhile_zeros_append hFront, List.reverse_append, List.reverse_replicate,
      dropWhile_zeros_append hReverse, List.reverse_reverse]

/-- A bare value is left as it is. -/
theorem trim_of_isBare {value : Bytes} (hBare : IsBare value) : trim value = value :=
  (Strips.eq_trim ⟨hBare, 0, 0, by simp⟩).symm

/-- Zero bytes behind a value do not count. -/
theorem trim_append_zeros (value : Bytes) (count : Nat) :
    trim (value ++ List.replicate count 0) = trim value := by
  obtain ⟨hBare, front, back, hValue⟩ := strips_trim value
  have hStrips : Strips (value ++ List.replicate count 0) (trim value) := by
    refine ⟨hBare, front, back + count, ?_⟩
    calc
      value ++ List.replicate count 0 =
          List.replicate front 0 ++ (trim value ++ List.replicate back 0) ++
            List.replicate count 0 := by rw [← hValue]
      _ = List.replicate front 0 ++ (trim value ++ List.replicate (back + count) 0) := by
        rw [List.append_assoc, List.append_assoc, List.replicate_append_replicate]
  exact hStrips.eq_trim.symm

/-- Of a value that is put into a slot, the part that fits is read back, without the zero bytes
at its ends. -/
theorem trim_pad (value : Bytes) (width : Nat) : trim (pad value width) = trim (value.take width) :=
  trim_append_zeros (value.take width) (width - value.length)

theorem length_trim_le (slot : Bytes) : (trim slot).length ≤ slot.length := by
  obtain ⟨-, front, back, hSlot⟩ := strips_trim slot
  have hLength := congrArg List.length hSlot
  rw [List.length_append, List.length_append] at hLength
  omega

/-- A value that is put into a slot is read back whole exactly if it fits and is bare. -/
theorem trim_pad_eq_self_iff {value : Bytes} {width : Nat} :
    trim (pad value width) = value ↔ value.length ≤ width ∧ IsBare value := by
  rw [trim_pad]
  constructor
  · intro hSame
    have hLength := length_trim_le (value.take width)
    rw [hSame, List.length_take] at hLength
    have hBare := (strips_trim (value.take width)).isBare
    rw [hSame] at hBare
    exact ⟨by omega, hBare⟩
  · rintro ⟨hLength, hBare⟩
    rw [List.take_of_length_le hLength, trim_of_isBare hBare]

theorem strips_iff {slot value : Bytes} : Strips slot value ↔ value = trim slot := by
  constructor
  · exact Strips.eq_trim
  · rintro rfl
    exact strips_trim slot

/-- What is bare is empty, or begins and ends with other bytes. -/
theorem isBare_iff {value : Bytes} :
    IsBare value ↔ value = [] ∨ ∃ first last, value.head? = some first ∧
      value.getLast? = some last ∧ first ≠ 0 ∧ last ≠ 0 := by
  constructor
  · rintro ⟨hHead, hLast⟩
    by_cases hEmpty : value = []
    · exact .inl hEmpty
    · rw [List.head?_eq_some_head hEmpty] at hHead
      rw [List.getLast?_eq_some_getLast hEmpty] at hLast
      exact .inr ⟨value.head hEmpty, value.getLast hEmpty, List.head?_eq_some_head hEmpty,
        List.getLast?_eq_some_getLast hEmpty, fun hZero => hHead (congrArg some hZero),
        fun hZero => hLast (congrArg some hZero)⟩
  · rintro (rfl | ⟨first, last, hFirst, hLast, hFirstZero, hLastZero⟩)
    · exact ⟨nofun, nofun⟩
    · rw [IsBare, hFirst, hLast]
      exact ⟨fun hZero => hFirstZero (Option.some.inj hZero),
        fun hZero => hLastZero (Option.some.inj hZero)⟩

/-- Two byte strings are equal up to the zero bytes behind them. -/
def SameUpToZeros (first second : Bytes) : Prop :=
  ∃ shared count count', first = shared ++ List.replicate count 0 ∧
    second = shared ++ List.replicate count' 0

theorem SameUpToZeros.symm {first second : Bytes} (hSame : SameUpToZeros first second) :
    SameUpToZeros second first := by
  obtain ⟨shared, count, count', hFirst, hSecond⟩ := hSame
  exact ⟨shared, count', count, hSecond, hFirst⟩

/-- A slot is what is in front of the zero bytes, filled up to its width. -/
theorem pad_of_take_eq {value shared : Bytes} {width count : Nat}
    (hTake : value.take width = shared ++ List.replicate count 0) :
    pad value width = shared ++ List.replicate (width - shared.length) 0 := by
  have hPad : pad value width =
      shared ++ List.replicate (count + (width - value.length)) 0 := by
    rw [pad, hTake, List.append_assoc, List.replicate_append_replicate]
  -- how many zero bytes there are is left to the width
  have hLength := length_pad value width
  rw [hPad, List.length_append, List.length_replicate] at hLength
  have hCount : count + (width - value.length) = width - shared.length := by omega
  rw [hPad, hCount]

/-- If the same slot is made from two byte strings, the longer one goes on with zero bytes. -/
theorem sameUpToZeros_of_append {first second rest : Bytes} {count count' : Nat}
    (hSecond : second = first ++ rest)
    (hRest : List.replicate count 0 = rest ++ List.replicate count' 0) :
    SameUpToZeros first second := by
  obtain ⟨-, hZeros, -⟩ := List.append_eq_replicate_iff.mp hRest.symm
  refine ⟨first, 0, rest.length, by simp, ?_⟩
  rw [hSecond, ← hZeros]

/-- Two values have the same slot exactly if the parts that fit are equal up to zero bytes. -/
theorem pad_eq_pad_iff {value value' : Bytes} {width : Nat} :
    pad value width = pad value' width ↔
      SameUpToZeros (value.take width) (value'.take width) := by
  constructor
  · intro hSlot
    rcases List.append_eq_append_iff.mp hSlot with ⟨rest, hValue, hRest⟩ | ⟨rest, hValue, hRest⟩
    · exact sameUpToZeros_of_append hValue hRest
    · exact (sameUpToZeros_of_append hValue hRest).symm
  · rintro ⟨shared, count, count', hValue, hValue'⟩
    rw [pad_of_take_eq hValue, pad_of_take_eq hValue']

/-- What a slot keeps of a value. A slot is as wide as it should be and begins with what fits of
the value; that part is read back without the zero bytes at its ends, so a value comes back whole
exactly if it fits and has no such bytes. What is read back from a slot is the only value without
zero bytes at its ends that is left when such bytes are taken off, and taking them off again
changes nothing. Two values cannot be told apart exactly if what fits of them is equal up to the
zero bytes behind it. -/
theorem slots_keep_bare_beginnings :
    (∀ (value : Bytes) (width : Nat), (pad value width).length = width ∧
      value.take (min value.length width) <+: pad value width ∧
      trim (pad value width) = trim (value.take width) ∧
      (trim (pad value width) = value ↔
        value.length ≤ width ∧ value.head? ≠ some 0 ∧ value.getLast? ≠ some 0)) ∧
    (∀ slot value : Bytes, value = trim slot ↔
      (value = [] ∨ ∃ first last, value.head? = some first ∧ value.getLast? = some last ∧
        first ≠ 0 ∧ last ≠ 0) ∧
      ∃ front back, slot = List.replicate front 0 ++ value ++ List.replicate back 0) ∧
    (∀ slot : Bytes, trim (trim slot) = trim slot) ∧
    (∀ (value value' : Bytes) (width : Nat), pad value width = pad value' width ↔
      ∃ shared count count', value.take width = shared ++ List.replicate count 0 ∧
        value'.take width = shared ++ List.replicate count' 0) := by
  refine ⟨fun value width => ⟨length_pad value width, ?_, trim_pad value width,
    trim_pad_eq_self_iff⟩, fun slot value => ?_, fun slot => ?_, fun _ _ _ => pad_eq_pad_iff⟩
  · rw [Nat.min_comm, ← List.take_eq_take_min]
    exact List.prefix_append _ _
  · rw [← strips_iff, ← isBare_iff]
    simp only [List.append_assoc]
    constructor
    · intro hStrips
      exact ⟨hStrips.isBare, hStrips.padded⟩
    · rintro ⟨hBare, hPadded⟩
      exact ⟨hBare, hPadded⟩
  · exact trim_of_isBare (strips_trim slot).isBare

/-- A zero byte inside of a value stays, and a slot of zero bytes holds the empty value. -/
example : trim [0, 7, 0, 7, 0] = [7, 0, 7] ∧ trim [0, 0, 0] = [] := by
  decide

end DeviceLedger.Slot
