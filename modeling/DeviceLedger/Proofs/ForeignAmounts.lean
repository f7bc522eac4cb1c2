import DeviceLedger.Proofs.AmountContract
import DeviceLedger.Proofs.DecodedBytes

/-! Updates of amounts in stores that others write, too, so that any bytes may lie at the key of
an amount. An addition or subtraction calculates exactly with the number that it finds, and
stops at bytes that are no amount; to set an amount needs nothing of what was there. What an
update leaves is a record of eight bytes, or none for zero. -/

namespace DeviceLedger

open DeviceLedger.Action

namespace Store

variable (store : Store) (key : Bytes)

/-- The number that the bytes at a key denote, if there are any. -/
def numberAt? : Option Nat := store[key]?.map Bytes.value

/-- The bytes at a key are no amount, since there are not eight of them. -/
def CorruptAt : Prop := ∃ value, store[key]? = some value ∧ value.length ≠ 8

/-- The store with an amount recorded at a key: in eight bytes, and not at all if it is zero. -/
def recording (amount : Nat) : Store :=
  store.put key (if amount = 0 then none else some (Bytes.bigEndian 8 amount))

/-- Recording an amount is what the ledgers do. -/
theorem recording_toNat (amount : UInt64) :
    store.recording key amount.toNat = store.put key (storedAmount amount) := by
  have hZero : amount.toNat = 0 ↔ amount = 0 := by
    rw [← UInt64.toNat_inj]
    rfl
  simp only [recording, storedAmount, hZero]
  rfl

variable {store : Store} {key : Bytes}

/-- What is not corrupt is an amount or nothing at all. -/
theorem cases_of_not_corruptAt (hSound : ¬store.CorruptAt key) :
    (store[key]? = none ∧ store.numberAt? key = none) ∨
      ∃ current : UInt64, store[key]? = some (encodeAmount current) ∧
        store.numberAt? key = some current.toNat := by
  cases hStored : store[key]? with
  | none => exact .inl ⟨rfl, congrArg (Option.map Bytes.value) hStored⟩
  | some value =>
      have hLength : value.length = 8 := by
        by_contra hLength
        exact hSound ⟨value, hStored, hLength⟩
      refine .inr ⟨Bytes.toUInt64 value, ?_, ?_⟩
      · exact congrArg some (Bytes.ofUInt64_toUInt64 hLength).symm
      · rw [numberAt?, hStored, Option.map_some, Bytes.toNat_toUInt64 hLength]

/-- Where nothing lies, recording zero changes nothing. -/
theorem recording_zero_of_none (hStored : store[key]? = none) : store.recording key 0 = store := by
  rw [recording, if_pos rfl, ← hStored, put_getElem?]

theorem numberAt?_of_zeros (hZeros : store[key]? = some (List.replicate 8 0)) :
    store.numberAt? key = some 0 := by
  rw [numberAt?, hZeros]
  rfl

/-- A recorded amount is never eight zeros. -/
theorem recording_ne_zeros {amount : Nat} (hAmount : amount < 2 ^ 64) :
    (store.recording key amount)[key]? ≠ some (List.replicate 8 0) := by
  rw [recording, getElem?_put_self]
  split
  · exact nofun
  · next hPositive =>
      intro hZeros
      have hValue : Bytes.value (Bytes.bigEndian 8 amount) = 0 :=
        congrArg Bytes.value (Option.some.inj hZeros)
      rw [Bytes.value_bigEndian] at hValue
      omega

end Store

theorem decodeAmount_of_length_ne {value : Bytes} (hLength : value.length ≠ 8) (entity : String) :
    ∃ reason, decodeAmount entity value = .error (.malformed entity reason) := by
  obtain ⟨amount, hDecode⟩ | ⟨reason, hDecode⟩ := decodeAmount_cases value
  · exact absurd ((decodeAmount_accepts_iff entity value).mp ⟨amount, hDecode entity⟩) hLength
  · exact ⟨reason, hDecode entity⟩

/-- A number that can be recorded as an amount: it has 64 bits and no sign. -/
def Recordable (number : ℤ) : Prop := 0 ≤ number ∧ number < 2 ^ 64

/-- An operation was done and left an amount recorded at a key. -/
structure LeavesAmount (store : Store) (key : Bytes) (amount : Nat)
    (ran : Except StorageError Outcome × View) : Prop where
  done : ran.1 = .ok .done
  store_eq : ran.2.store = store.recording key amount
  not_zeros : ran.2.store[key]? ≠ some (List.replicate 8 0)

/-- An operation calculated with what was at the key of a target. `resulting` is the exact
result, and `refusal` the error where this cannot be recorded. -/
structure Calculated (store : Store) (target : AmountTarget) (resulting : ℤ)
    (refusal : StorageError) (ran : Except StorageError Outcome × View) : Prop where
  malformed_iff :
    (∃ reason, ran.1 = .error (.malformed target.kindName reason)) ↔ store.CorruptAt target.key
  done_iff : ran.1 = .ok .done ↔ ¬store.CorruptAt target.key ∧ Recordable resulting
  refused : ¬store.CorruptAt target.key → ¬Recordable resulting → ran.1 = .error refusal
  leaves : ran.1 = .ok .done → LeavesAmount store target.key resulting.toNat ran
  unchanged : ∀ error, ran.1 = .error error → ran.2.store = store

variable {store : Store}

theorem LeavesAmount.of_yields {action : Action Unit} {key : Bytes} {amount : Nat}
    (hAmount : amount < 2 ^ 64)
    (hYields : action.Yields store (.ok ()) (store.recording key amount)) (calls : List Call) :
    LeavesAmount store key amount
      (Operation.writing action ⟨store, Schedule.faultless, calls⟩) := by
  obtain ⟨hResult, -, hStore⟩ := hYields.writing ⟨store, Schedule.faultless, calls⟩ rfl rfl
  refine ⟨hResult, hStore, ?_⟩
  rw [hStore]
  exact Store.recording_ne_zeros hAmount

/-- Without failures an action records a resulting number if it can, and refuses it with an
error otherwise. -/
def Action.Settles (action : Action Unit) (store : Store) (key : Bytes) (resulting : ℤ)
    (error : StorageError) : Prop :=
  (Recordable resulting → action.Yields store (.ok ()) (store.recording key resulting.toNat)) ∧
  (¬Recordable resulting → action.Yields store (.error error) store)

/-- A write behind a check settles a number if the check tells whether it can be recorded. -/
theorem Action.Settles.of_checked {action : Action Unit} {key : Bytes} {resulting : ℤ}
    {error : StorageError} {passes : Prop} [Decidable passes] {amount : UInt64}
    (hYields : action.Yields store (if passes then .ok () else .error error)
      (if passes then store.put key (storedAmount amount) else store))
    (hPasses : passes ↔ Recordable resulting)
    (hAmount : passes → (amount.toNat : ℤ) = resulting) :
    action.Settles store key resulting error := by
  rw [Settles, ← hPasses]
  constructor
  · intro hFits
    have hResulting : resulting.toNat = amount.toNat := by
      rw [← hAmount hFits, Int.toNat_natCast]
    rw [hResulting, store.recording_toNat]
    rwa [if_pos hFits, if_pos hFits] at hYields
  · intro hFits
    rwa [if_neg hFits, if_neg hFits] at hYields

/-- A sum is checked exactly. -/
theorem Action.Settles.of_checked_sum {action : Action Unit} {key : Bytes} {error : StorageError}
    {current more : UInt64}
    (hYields : action.Yields store
      (if current.toNat + more.toNat < UInt64.size then .ok () else .error error)
      (if current.toNat + more.toNat < UInt64.size
        then store.put key (storedAmount (current + more)) else store)) :
    action.Settles store key (current.toNat + more.toNat) error := by
  refine .of_checked hYields ?_ fun hFits => ?_
  · rw [UInt64.size, Recordable]
    omega
  · rw [UInt64.toNat_add, Nat.mod_eq_of_lt hFits]
    exact Nat.cast_add _ _

section

variable {action : Action Unit} {target : AmountTarget} {resulting : ℤ} {refusal : StorageError}

/-- It suffices to know what an action does at corrupt bytes and at others. -/
theorem Calculated.of_settles
    (hCorrupt : store.CorruptAt target.key →
      ∃ reason, action.Yields store (.error (.malformed target.kindName reason)) store)
    (hSound : ¬store.CorruptAt target.key → action.Settles store target.key resulting refusal)
    (hRefusal : ∀ reason, refusal ≠ .malformed target.kindName reason) (calls : List Call) :
    Calculated store target resulting refusal
      (Operation.writing action ⟨store, Schedule.faultless, calls⟩) := by
  by_cases hAt : store.CorruptAt target.key
  · obtain ⟨reason, hYields⟩ := hCorrupt hAt
    obtain ⟨hResult, -, hStore⟩ := hYields.writing ⟨store, Schedule.faultless, calls⟩ rfl rfl
    constructor
    all_goals simp [hResult, hStore, hAt, Except.map]
  · obtain ⟨hRecord, hRefuse⟩ := hSound hAt
    by_cases hRange : Recordable resulting
    · have hLt : resulting.toNat < 2 ^ 64 := (Int.toNat_lt hRange.1).mpr hRange.2
      have hLeaves := LeavesAmount.of_yields hLt (hRecord hRange) calls
      constructor
      case leaves => exact fun _ => hLeaves
      all_goals simp [hLeaves.done, hAt, hRange]
    · obtain ⟨hResult, -, hStore⟩ :=
        (hRefuse hRange).writing ⟨store, Schedule.faultless, calls⟩ rfl rfl
      constructor
      all_goals simp [hResult, hStore, hAt, hRange, hRefusal, Except.map]

end

namespace AmountTarget

variable (target : AmountTarget) (store)

theorem yields_current_of_corruptAt {store : Store} (hCorrupt : store.CorruptAt target.key) :
    ∃ reason, target.current.Yields store (.error (.malformed target.kindName reason)) store := by
  obtain ⟨value, hStored, hLength⟩ := hCorrupt
  obtain ⟨reason, hDecode⟩ := decodeAmount_of_length_ne hLength target.kindName
  have hCurrent := target.yields_current store
  rw [hStored, Option.elim_some, hDecode] at hCurrent
  exact ⟨reason, hCurrent⟩

/-- Where nothing is corrupt, the number there is read, or zero. -/
theorem yields_current_of_sound {store : Store} (hSound : ¬store.CorruptAt target.key) :
    ∃ current : UInt64, current.toNat = (store.numberAt? target.key).getD 0 ∧
      target.current.Yields store (.ok current) store := by
  have hCurrent := target.yields_current store
  obtain ⟨hStored, hNumber⟩ | ⟨current, hStored, hNumber⟩ := Store.cases_of_not_corruptAt hSound
  · rw [hStored] at hCurrent
    rw [hNumber]
    exact ⟨0, rfl, hCurrent⟩
  · rw [hStored, Option.elim_some, decodeAmount_encodeAmount] at hCurrent
    rw [hNumber]
    exact ⟨current, rfl, hCurrent⟩

/-- To set an amount needs nothing of what is there. -/
theorem leavesAmount_set (amount : UInt64) (calls : List Call) :
    LeavesAmount store target.key amount.toNat
      ((target.operation (.set amount)).run ⟨store, Schedule.faultless, calls⟩) := by
  rw [operation_run]
  refine .of_yields amount.toNat_lt ?_ calls
  rw [store.recording_toNat]
  exact Balance.yields_write amount target.key store

/-- It suffices to know what comes after the number that is found. -/
theorem calculated_current_bind {next : UInt64 → Action Unit} {resulting : ℤ}
    {refusal : StorageError} (hRefusal : ∀ reason, refusal ≠ .malformed target.kindName reason)
    (hNext : ∀ current : UInt64, current.toNat = (store.numberAt? target.key).getD 0 →
      (next current).Settles store target.key resulting refusal) (calls : List Call) :
    Calculated store target resulting refusal
      (Operation.writing (target.current >>= next) ⟨store, Schedule.faultless, calls⟩) := by
  refine .of_settles ?_ ?_ hRefusal calls
  · intro hCorrupt
    obtain ⟨reason, hCurrent⟩ := target.yields_current_of_corruptAt hCorrupt
    exact ⟨reason, hCurrent.bind_error next⟩
  · intro hSound
    obtain ⟨current, hFound, hCurrent⟩ := target.yields_current_of_sound hSound
    obtain ⟨hRecord, hRefuse⟩ := hNext current hFound
    exact ⟨fun hRange => hCurrent.bind (hRecord hRange),
      fun hRange => hCurrent.bind (hRefuse hRange)⟩

theorem calculated_add (more : UInt64) (calls : List Call) :
    let found := (store.numberAt? target.key).getD 0
    Calculated store target (found + more.toNat) (.overflow target (UInt64.ofNat found) more)
      ((target.operation (.add more)).run ⟨store, Schedule.faultless, calls⟩) := by
  intro found
  rw [operation_run, change]
  refine target.calculated_current_bind store (by simp) (fun current hFound => ?_) calls
  rw [show found = current.toNat from hFound.symm, UInt64.ofNat_toNat]
  exact .of_checked_sum (Balance.yields_checked_write _ _ store _ _)

theorem calculated_sub (less : UInt64) (calls : List Call) :
    let found := (store.numberAt? target.key).getD 0
    Calculated store target (found - less.toNat) (.underflow target (UInt64.ofNat found) less)
      ((target.operation (.sub less)).run ⟨store, Schedule.faultless, calls⟩) := by
  intro found
  rw [operation_run, change]
  refine target.calculated_current_bind store (by simp) (fun current hFound => ?_) calls
  rw [show found = current.toNat from hFound.symm, UInt64.ofNat_toNat]
  refine .of_checked (Balance.yields_checked_write _ _ store _ _) ?_ fun hCovered => ?_
  · have hLt := current.toNat_lt
    rw [UInt64.le_iff_toNat_le, Recordable]
    omega
  · rw [UInt64.toNat_sub_of_le _ _ hCovered]
    exact Nat.cast_sub (UInt64.le_iff_toNat_le.mp hCovered)

end AmountTarget

namespace Balance

variable (store) (address : Address) (asset : Identifier)

theorem leavesAmount_delete (calls : List Call) :
    LeavesAmount store (key address asset) 0
      ((Operation.balanceDelete address asset).run ⟨store, Schedule.faultless, calls⟩) :=
  .of_yields (by decide) (yields_remove (key address asset) store) calls

/-- An addition that must not create the record leaves nothing where nothing is. -/
theorem calculated_add_existing (more : UInt64) (calls : List Call) :
    let target : AmountTarget := .balance address asset
    let found := store.numberAt? target.key
    Calculated store target (found.elim 0 fun held => held + more.toNat)
      (.overflow target (UInt64.ofNat (found.getD 0)) more)
      ((Operation.balanceAdd address asset more false).run
        ⟨store, Schedule.faultless, calls⟩) := by
  intro target found
  refine .of_settles ?_ ?_ (by simp) calls
  · rintro ⟨value, (hStored : store[key address asset]? = some value), hLength⟩
    obtain ⟨reason, hDecode⟩ := decodeAmount_of_length_ne hLength "balance"
    have hGet := yields_getDecoded decode (key address asset) store
    rw [hStored, Reply.decoded, decode, hDecode] at hGet
    exact ⟨reason, hGet.bind_error _⟩
  · intro (hSound : ¬store.CorruptAt (key address asset))
    obtain ⟨hStored, hNumber⟩ | ⟨current, hStored, hNumber⟩ := Store.cases_of_not_corruptAt hSound
    · have hFound : Reply.decoded decode (.ok store[key address asset]?) = .ok none := by
        rw [hStored, Reply.decoded]
      rw [show found = none from hNumber, Option.elim_none]
      refine ⟨fun _ => ?_, fun hRange => absurd ⟨le_rfl, by decide⟩ hRange⟩
      rw [Int.toNat_zero, show target.key = key address asset from rfl,
        Store.recording_zero_of_none hStored]
      exact yields_add_skipped address asset more hFound
    · have hFound : Reply.decoded decode (.ok store[key address asset]?) = .ok (some current) := by
        rw [hStored, Reply.decoded, decode, decodeAmount_encodeAmount]
        rfl
      rw [show found = some current.toNat from hNumber, Option.elim_some, Option.getD_some,
        UInt64.ofNat_toNat]
      have hExists : (some current).isSome ∨ false = true := .inl rfl
      exact .of_checked_sum (yields_add address asset more hFound hExists)

end Balance

/-- Where eight zeros lie, an operation whose result is zero is done and takes them away. -/
theorem Calculated.leaves_of_zeros {target : AmountTarget} {resulting : ℤ}
    {refusal : StorageError} {ran : Except StorageError Outcome × View}
    (hCalculated : Calculated store target resulting refusal ran) (hResulting : resulting = 0)
    (hZeros : store[target.key]? = some (List.replicate 8 0)) :
    LeavesAmount store target.key 0 ran := by
  subst hResulting
  refine hCalculated.leaves (hCalculated.done_iff.mpr ⟨?_, le_rfl, by decide⟩)
  rintro ⟨value, hValue, hLength⟩
  rw [hZeros] at hValue
  cases hValue
  exact hLength rfl

/-- Amounts are updated exactly in every store, whoever wrote it. To set an amount or to
delete it always succeeds. An addition or subtraction finds its record malformed, as a balance
or as a loan, if and only if the bytes there are not eight, and changes nothing then. Otherwise
it calculates exactly with the number of the eight bytes, or with zero if there are none: it is
done if what results has 64 bits and is not negative, and else it is refused with the numbers
and changes nothing. An addition that must not create a balance results in nothing where
nothing is. Every operation that is done leaves just the eight bytes of what resulted, or no
record for zero. So eight zeros that were there are gone, even if nothing was added or taken,
and to set or to delete an amount repairs what was corrupt. -/
theorem foreign_amounts_updated_exactly (store : Store) (calls : List Call) :
    let run (operation : Operation) := operation.run ⟨store, Schedule.faultless, calls⟩
    (∀ target : AmountTarget,
      let found := (store.numberAt? target.key).getD 0
      (∀ amount, LeavesAmount store target.key amount.toNat
        (run (target.operation (.set amount)))) ∧
      (∀ more, Calculated store target (found + more.toNat)
        (.overflow target (UInt64.ofNat found) more) (run (target.operation (.add more)))) ∧
      (∀ less, Calculated store target (found - less.toNat)
        (.underflow target (UInt64.ofNat found) less) (run (target.operation (.sub less)))) ∧
      (store[target.key]? = some (List.replicate 8 0) → ∀ step ∈ [.set 0, .add 0, .sub 0],
        LeavesAmount store target.key 0 (run (target.operation step)))) ∧
    ∀ (address : Address) (asset : Identifier),
      let target : AmountTarget := .balance address asset
      let found := store.numberAt? target.key
      LeavesAmount store target.key 0 (run (.balanceDelete address asset)) ∧
      (∀ more, Calculated store target (found.elim 0 fun held => held + more.toNat)
        (.overflow target (UInt64.ofNat (found.getD 0)) more)
        (run (.balanceAdd address asset more false))) ∧
      (store[target.key]? = some (List.replicate 8 0) →
        LeavesAmount store target.key 0 (run (.balanceAdd address asset 0 false))) := by
  intro run
  constructor
  · intro target found
    have hAdd := fun more => target.calculated_add store more calls
    have hSub := fun less => target.calculated_sub store less calls
    refine ⟨fun amount => target.leavesAmount_set store amount calls, hAdd, hSub, fun hZeros => ?_⟩
    have hFound : (store.numberAt? target.key).getD 0 = 0 := by
      rw [Store.numberAt?_of_zeros hZeros, Option.getD_some]
    simp only [List.mem_cons, List.not_mem_nil, or_false, forall_eq_or_imp, forall_eq]
    exact ⟨target.leavesAmount_set store 0 calls,
      (hAdd 0).leaves_of_zeros (by rw [hFound]; rfl) hZeros,
      (hSub 0).leaves_of_zeros (by rw [hFound]; rfl) hZeros⟩
  · intro address asset target found
    have hAdd := fun more => Balance.calculated_add_existing store address asset more calls
    refine ⟨Balance.leavesAmount_delete store address asset calls, hAdd, fun hZeros => ?_⟩
    refine (hAdd 0).leaves_of_zeros ?_ hZeros
    rw [Store.numberAt?_of_zeros hZeros]
    rfl

/-- Three bytes are no loan, until a loan is set. -/
example :
    let store : Store := (∅ : Store).put (Loan.key default default) (some [1, 2, 3])
    (Fallible.runAll [(Operation.loanSub default default 0).run,
      (Operation.loanSet default default 5).run, (Operation.loanSub default default 5).run]
      (View.ofStore store)).1 =
        [.error (.malformed "loan" (.short 8 0 3)), .ok .done, .ok .done] := by
  rfl

end DeviceLedger
