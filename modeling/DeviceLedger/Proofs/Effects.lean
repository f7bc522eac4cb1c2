import DeviceLedger.Ledger.Operation
import DeviceLedger.Proofs.SingleRecord

/-! What actions do when no call fails: their result and the store after them, from the
store before. Larger actions are put together from their parts. Nothing is asked of the
store; what lies at a key may be foreign. -/

namespace DeviceLedger

/-- What is stored for an amount: nothing for zero. -/
def storedAmount (amount : UInt64) : Option Bytes :=
  if amount = 0 then none else some (encodeAmount amount)

theorem storedAmount_eq_none_iff (amount : UInt64) : storedAmount amount = none ↔ amount = 0 := by
  simp [storedAmount]

/-- A value that lies at a key is decoded as it is. -/
theorem Reply.map_getD_decoded {α : Type} (decode : Bytes → Except StorageError α)
    (value : Bytes) (absent : α) :
    (Reply.decoded decode (.ok (some value))).map (·.getD absent) = decode value := by
  rw [Reply.decoded]
  cases decode value <;> rfl

/-- A loan is read like any record, and is zero where there is none. -/
theorem Loan.read_eq (reader : Reader) (lent destination : Identifier) :
    Loan.read reader lent destination =
      (reader.decoded Loan.decode (Loan.key lent destination)).map (·.getD 0) := by
  rw [Loan.read, Reader.decoded]
  cases reader.one (Loan.key lent destination) with
  | error failure => rfl
  | ok found =>
      cases found with
      | none => rfl
      | some value => exact (Reply.map_getD_decoded Loan.decode value 0).symm

theorem Loan.read_ofStore (store : Store) (lent destination : Identifier) :
    Loan.read (Reader.ofStore store) lent destination =
      (Reply.decoded Loan.decode (.ok store[Loan.key lent destination]?)).map (·.getD 0) :=
  Loan.read_eq (Reader.ofStore store) lent destination

/-- A check reads the update and compares what is left of the slot of its hash. -/
theorem Update.hashMatches_eq (reader : Reader) (id : Identifier) (candidate : Bytes) :
    hashMatches reader id candidate =
      (reader.decoded UpdateRecord.decode (key id)).map
        (·.map fun record => Slot.trim record.executableHash == candidate) :=
  bind_pure_comp _ _

namespace Action

variable {α β : Type} {before middle after : Store}

/-- Without failures an action takes one store to another and comes to a result. The calls
made earlier do not matter. -/
def Yields (action : Action α) (before : Store) (result : Except StorageError α)
    (after : Store) : Prop :=
  ∀ view : View, view.schedule = Schedule.faultless → view.store = before →
    (action view).1 = result ∧ (action view).2.schedule = Schedule.faultless ∧
      (action view).2.store = after

theorem yields_ofResult (result : Except StorageError α) (store : Store) :
    (ofResult result).Yields store result store :=
  fun _ hSchedule hStore => ⟨rfl, hSchedule, hStore⟩

theorem yields_pure (found : α) (store : Store) :
    (pure found : Action α).Yields store (.ok found) store :=
  yields_ofResult (.ok found) store

theorem yields_throw (error : StorageError) (store : Store) :
    (throw error : Action α).Yields store (.error error) store :=
  yields_ofResult (.error error) store

theorem yields_get (key : Bytes) (store : Store) :
    (get key).Yields store (.ok store[key]?) store := by
  intro view hSchedule hStore
  simp [get, ofCall, View.get, View.nextFailure_of_faultless hSchedule, hSchedule, hStore]

theorem yields_insert (key value : Bytes) (store : Store) :
    (insert key value).Yields store (.ok ()) (store.put key (some value)) := by
  intro view hSchedule hStore
  simp [insert, ofCall, View.insert, View.nextFailure_of_faultless hSchedule, hSchedule, hStore,
    Store.put]

theorem yields_remove (key : Bytes) (store : Store) :
    (remove key).Yields store (.ok ()) (store.put key none) := by
  intro view hSchedule hStore
  simp [remove, ofCall, View.remove, View.nextFailure_of_faultless hSchedule, hSchedule, hStore,
    Store.put]

theorem Yields.bind {action : Action α} {next : α → Action β} {found : α}
    {result : Except StorageError β} (hAction : action.Yields before (.ok found) middle)
    (hNext : (next found).Yields middle result after) :
    (action >>= next).Yields before result after := by
  intro view hSchedule hStore
  obtain ⟨hFound, hQuiet, hMiddle⟩ := hAction view hSchedule hStore
  have hPair : action view = (.ok found, (action view).2) := Prod.ext hFound rfl
  rw [Fallible.bind_apply, hPair]
  exact hNext _ hQuiet hMiddle

/-- What would come after an error does not happen. -/
theorem Yields.bind_error {action : Action α} {error : StorageError}
    (hAction : action.Yields before (.error error) after) (next : α → Action β) :
    (action >>= next).Yields before (.error error) after := by
  intro view hSchedule hStore
  obtain ⟨hFound, hQuiet, hAfter⟩ := hAction view hSchedule hStore
  have hPair : action view = (.error error, (action view).2) := Prod.ext hFound rfl
  rw [Fallible.bind_apply, hPair]
  exact ⟨rfl, hQuiet, hAfter⟩

/-- Presenting what an action found changes its result only. -/
theorem Yields.map {action : Action α} {result : Except StorageError α}
    (hAction : action.Yields before result after) (present : α → β) :
    (present <$> action).Yields before (result.map present) after := by
  rw [map_eq_pure_bind]
  cases result with
  | ok found => exact hAction.bind (yields_pure (present found) after)
  | error error => exact hAction.bind_error _

theorem Yields.writing {action : Action Unit} {result : Except StorageError Unit}
    (hAction : action.Yields before result after) :
    (Operation.writing action).Yields before (result.map fun _ => .done) after := by
  cases result with
  | ok found => exact hAction.bind (yields_pure Outcome.done after)
  | error error => exact hAction.bind_error _

/-- A record is decoded as the reply about its key would be. -/
theorem yields_getDecoded (decode : Bytes → Except StorageError α) (key : Bytes)
    (store : Store) :
    (getDecoded decode key).Yields store (Reply.decoded decode (.ok store[key]?)) store := by
  refine (yields_get key store).bind ?_
  cases hStored : store[key]? with
  | none => exact yields_pure none store
  | some value => exact (yields_ofResult (decode value) store).map some

theorem yields_getDecoded_ok {decode : Bytes → Except StorageError α} {key : Bytes}
    {store : Store} {found : Option α}
    (hFound : Reply.decoded decode (.ok store[key]?) = .ok found) :
    (getDecoded decode key).Yields store (.ok found) store := by
  rw [← hFound]
  exact yields_getDecoded decode key store

end Action

open DeviceLedger.Action

/-- A key that holds nothing may always be written, one that holds something only if the
policy allows it. -/
theorem OverwritePolicy.yields_permit (policy : OverwritePolicy) (key : Bytes) (entity : String)
    (store : Store) :
    (policy.permit key entity).Yields store
      (if policy = .reject ∧ store[key]?.isSome then .error (.alreadyExists entity key)
        else .ok ()) store := by
  refine (yields_get key store).bind ?_
  cases store[key]? with
  | none =>
      rw [if_neg (by simp)]
      exact yields_pure () store
  | some value =>
      cases policy with
      | allowCollision => exact yields_pure () store
      | reject => exact yields_throw (.alreadyExists entity key) store

namespace Balance

variable (address : Address) (asset : Identifier) (amount : UInt64) {store : Store}

theorem yields_amount {found : Option UInt64}
    (hFound : Reply.decoded decode (.ok store[key address asset]?) = .ok found) :
    (Balance.amount address asset).Yields store (.ok (found.getD 0)) store :=
  (yields_getDecoded_ok hFound).bind (yields_pure (found.getD 0) store)

theorem yields_write (key : Bytes) (store : Store) :
    (write key amount).Yields store (.ok ()) (store.put key (storedAmount amount)) := by
  rw [write, storedAmount]
  split
  · exact yields_remove key store
  · exact yields_insert key (encodeAmount amount) store

/-- An amount that passes its check is written, one that does not is refused. -/
theorem yields_checked_write (key : Bytes) (store : Store) (passes : Prop) [Decidable passes]
    (error : StorageError) :
    (if passes then write key amount else throw error).Yields store
      (if passes then .ok () else .error error)
      (if passes then store.put key (storedAmount amount) else store) := by
  split
  · exact yields_write amount key store
  · exact yields_throw error store

/-- An account without a record is left alone unless it may be created. -/
theorem yields_add_skipped
    (hFound : Reply.decoded decode (.ok store[key address asset]?) = .ok none) :
    (add address asset amount false).Yields store (.ok ()) store :=
  (yields_getDecoded_ok hFound).bind (yields_pure () store)

theorem yields_add {found : Option UInt64} {create : Bool}
    (hFound : Reply.decoded decode (.ok store[key address asset]?) = .ok found)
    (hCreate : found.isSome ∨ create = true) :
    (add address asset amount create).Yields store
      (if (found.getD 0).toNat + amount.toNat < UInt64.size then .ok ()
        else .error (.overflow (.balance address asset) (found.getD 0) amount))
      (if (found.getD 0).toNat + amount.toNat < UInt64.size
        then store.put (key address asset) (storedAmount (found.getD 0 + amount)) else store) := by
  refine (yields_getDecoded_ok hFound).bind ?_
  cases found with
  | none =>
      cases create with
      | false => simp at hCreate
      | true => exact yields_checked_write _ _ store _ _
  | some current => exact yields_checked_write _ _ store _ _

theorem yields_sub {found : Option UInt64}
    (hFound : Reply.decoded decode (.ok store[key address asset]?) = .ok found) :
    (sub address asset amount).Yields store
      (if amount ≤ found.getD 0 then .ok ()
        else .error (.underflow (.balance address asset) (found.getD 0) amount))
      (if amount ≤ found.getD 0
        then store.put (key address asset) (storedAmount (found.getD 0 - amount)) else store) :=
  (yields_getDecoded_ok hFound).bind (yields_checked_write _ _ store _ _)

end Balance

namespace Loan

variable (asset destination : Identifier) (amount : UInt64) {store : Store}

/-- A loan without a record is a loan of zero. -/
theorem yields_get (store : Store) :
    (get asset destination).Yields store
      ((Reply.decoded decode (.ok store[key asset destination]?)).map (·.getD 0)) store := by
  refine (Action.yields_get (key asset destination) store).bind ?_
  cases store[key asset destination]? with
  | none => exact yields_pure 0 store
  | some value =>
      rw [Reply.map_getD_decoded]
      exact yields_ofResult (decode value) store

theorem yields_get_ok {found : Option UInt64}
    (hFound : Reply.decoded decode (.ok store[key asset destination]?) = .ok found) :
    (get asset destination).Yields store (.ok (found.getD 0)) store := by
  have hGet := yields_get asset destination store
  rw [hFound] at hGet
  exact hGet

theorem yields_add {found : Option UInt64}
    (hFound : Reply.decoded decode (.ok store[key asset destination]?) = .ok found) :
    (add asset destination amount).Yields store
      (if (found.getD 0).toNat + amount.toNat < UInt64.size then .ok ()
        else .error (.overflow (.loan asset destination) (found.getD 0) amount))
      (if (found.getD 0).toNat + amount.toNat < UInt64.size
        then store.put (key asset destination) (storedAmount (found.getD 0 + amount))
        else store) :=
  (yields_get_ok asset destination hFound).bind (Balance.yields_checked_write _ _ store _ _)

theorem yields_sub {found : Option UInt64}
    (hFound : Reply.decoded decode (.ok store[key asset destination]?) = .ok found) :
    (sub asset destination amount).Yields store
      (if amount ≤ found.getD 0 then .ok ()
        else .error (.underflow (.loan asset destination) (found.getD 0) amount))
      (if amount ≤ found.getD 0
        then store.put (key asset destination) (storedAmount (found.getD 0 - amount))
        else store) :=
  (yields_get_ok asset destination hFound).bind (Balance.yields_checked_write _ _ store _ _)

end Loan

end DeviceLedger
