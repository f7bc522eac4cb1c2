import DeviceLedger.Proofs.Effects
import DeviceLedger.Proofs.KeySpace
import DeviceLedger.Proofs.Operations

/-! What a step does to one amount, be it a balance or a loan. The step sets the amount,
adds to it or subtracts from it, or the amount stays as it is. Nothing is asked of the
other records in the store. -/

namespace DeviceLedger

open DeviceLedger.Action

namespace AmountTarget

/-- The entity whose record holds an amount. -/
def entity : AmountTarget → Entity
  | balance address held => .balance address held
  | loan lent destination => .loan lent destination

def key (target : AmountTarget) : Bytes := target.entity.key

/-- The operation that reads an amount, which is zero where there is no record. -/
def reading : AmountTarget → Operation
  | balance address held => .balanceAmount address held
  | loan lent destination => .loanGet lent destination

theorem entity_injective : Function.Injective entity := by
  intro first second hEntity
  cases first <;> cases second <;> simp_all [entity]

theorem key_ne {first second : AmountTarget} (hTarget : first ≠ second) :
    first.key ≠ second.key := fun hKey =>
  hTarget (entity_injective (Entity.key_injective hKey))

end AmountTarget

/-- What a step asks to be done to an amount. An addition may be barred from creating a
record. -/
inductive Movement where
  | reset (base : UInt64)
  | add (more : UInt64) (create : Bool)
  | sub (less : UInt64)

/-- What is decided about a movement: there is nothing to do, an amount is to be written, or
the movement is refused. -/
def Movement.decision (target : AmountTarget) (current : UInt64) :
    Movement → Except StorageError (Option UInt64)
  | reset base => .ok (some base)
  | add more create =>
    if create = false ∧ current = 0 then .ok none
    else if current.toNat + more.toNat < UInt64.size then .ok (some (current + more))
    else .error (.overflow target current more)
  | sub less =>
    if less ≤ current then .ok (some (current - less))
    else .error (.underflow target current less)

/-- The amount that is there afterwards. -/
def Movement.after (target : AmountTarget) (current : UInt64) (movement : Movement) : UInt64 :=
  match movement.decision target current with
  | .ok (some amount) => amount
  | _ => current

/-- The amount that an operation moves, and how. -/
def Operation.movement? : Operation → Option (AmountTarget × Movement)
  | balanceSet address held balance => some (.balance address held, .reset balance)
  | balanceDelete address held => some (.balance address held, .reset 0)
  | balanceAdd address held amount create => some (.balance address held, .add amount create)
  | balanceSub address held amount => some (.balance address held, .sub amount)
  | loanSet lent destination amount => some (.loan lent destination, .reset amount)
  | loanAdd lent destination amount => some (.loan lent destination, .add amount true)
  | loanSub lent destination amount => some (.loan lent destination, .sub amount)
  | _ => none

/-- The amount that the last allocation for an account gives it. -/
def Genesis.balance? (genesis : Genesis) (target : AmountTarget) : Option UInt64 :=
  genesis.allocations.reverse.findSome? fun allocation =>
    if .balance allocation.address Identifier.native = target
    then some allocation.balance else none

/-- How a step moves an amount, if it does. -/
def LedgerStep.movement? (step : LedgerStep) (target : AmountTarget) : Option Movement :=
  match step with
  | operate operation =>
    operation.movement?.bind fun moved => if moved.1 = target then some moved.2 else none
  | found genesis => (genesis.balance? target).map .reset

/-- How many calls were made that write. -/
def View.writes (view : View) : Nat := view.count .insert + view.count .remove

theorem View.writes_record (view : View) (kind : CallKind) (key : Bytes) :
    (view.record kind key).writes = view.writes + if kind = .get then 0 else 1 := by
  cases kind <;> simp [writes, count] <;> omega

namespace Action

variable {key : Bytes} {store : Store}

theorem Reads.writes_eq {α : Type} {action : Action α} (hReads : Reads key action) (view : View) :
    (action view).2.writes = view.writes := by
  induction hReads generalizing view with
  | result result => rfl
  | get next hNext ih =>
      rw [get_bind_apply]
      cases view.nextFailure .get with
      | some failure => exact view.writes_record .get key
      | none => exact (ih _ (view.record .get key)).trans (view.writes_record .get key)

/-- Without failures an action makes so many calls that write. -/
def Writes (action : Action Unit) (before : Store) (number : Nat) : Prop :=
  ∀ view : View, view.schedule = Schedule.faultless → view.store = before →
    (action view).2.writes = view.writes + number

/-- Without failures an action carries out what was decided about the amount at a key. It
writes with one call, or with none. -/
def CarriesOut (action : Action Unit) (key : Bytes) (store : Store) :
    Except StorageError (Option UInt64) → Prop
  | .ok none => action.Yields store (.ok ()) store ∧ action.Writes store 0
  | .ok (some amount) =>
    action.Yields store (.ok ()) (store.put key (storedAmount amount)) ∧ action.Writes store 1
  | .error error => action.Yields store (.error error) store

theorem carriesOut_nothing : (pure () : Action Unit).CarriesOut key store (.ok none) :=
  ⟨yields_pure () store, fun _ _ _ => rfl⟩

theorem carriesOut_remove : (remove key).CarriesOut key store (.ok (some 0)) := by
  refine ⟨yields_remove key store, fun view hSchedule _ => ?_⟩
  simp only [remove, ofCall, View.remove, View.nextFailure_of_faultless hSchedule]
  exact view.writes_record .remove key

theorem carriesOut_write (amount : UInt64) :
    (Balance.write key amount).CarriesOut key store (.ok (some amount)) := by
  rw [Balance.write]
  split
  · rename_i hZero
    rw [hZero]
    exact carriesOut_remove
  · rename_i hAmount
    have hStored : storedAmount amount = some (encodeAmount amount) := if_neg hAmount
    rw [CarriesOut, hStored]
    refine ⟨yields_insert key (encodeAmount amount) store, fun view hSchedule _ => ?_⟩
    simp only [insert, ofCall, View.insert, View.nextFailure_of_faultless hSchedule]
    exact view.writes_record .insert key

/-- An amount that passes its check is written, one that does not is refused. -/
theorem carriesOut_checked_write {passes : Prop} [Decidable passes] (amount : UInt64)
    (error : StorageError) :
    (if passes then Balance.write key amount else throw error).CarriesOut key store
      (if passes then .ok (some amount) else .error error) := by
  split
  · exact carriesOut_write amount
  · exact yields_throw error store

/-- Reading first changes nothing. -/
theorem CarriesOut.after_read {α : Type} {reading : Action α} (hReads : Reads key reading)
    {found : α} (hFound : reading.Yields store (.ok found) store) {next : α → Action Unit}
    {decision : Except StorageError (Option UInt64)}
    (hNext : (next found).CarriesOut key store decision) :
    (reading >>= next).CarriesOut key store decision := by
  have hWrites : ∀ {number : Nat}, (next found).Writes store number →
      (reading >>= next).Writes store number := by
    intro number hNumber view hSchedule hStore
    obtain ⟨hOk, hQuiet, hSame⟩ := hFound view hSchedule hStore
    have hPair : reading view = (.ok found, (reading view).2) := Prod.ext hOk rfl
    rw [Fallible.bind_apply, hPair]
    exact (hNumber _ hQuiet hSame).trans (by rw [hReads.writes_eq view])
  -- the read makes no call that writes, so the rest makes all of them
  match decision, hNext with
  | .ok none, ⟨hYields, hNumber⟩ => exact ⟨hFound.bind hYields, hWrites hNumber⟩
  | .ok (some amount), ⟨hYields, hNumber⟩ => exact ⟨hFound.bind hYields, hWrites hNumber⟩
  | .error error, hYields => exact hFound.bind hYields

end Action

/-- What is found where an amount is stored: nothing for zero. -/
def foundAmount (amount : UInt64) : Option UInt64 :=
  if amount = 0 then none else some amount

@[simp] theorem getD_foundAmount (amount : UInt64) : (foundAmount amount).getD 0 = amount := by
  rw [foundAmount]
  split
  · rename_i hZero
    rw [hZero]
    rfl
  · rfl

theorem decoded_storedAmount (kind : String) (amount : UInt64) :
    Reply.decoded (decodeAmount kind) (.ok (storedAmount amount)) = .ok (foundAmount amount) := by
  rw [storedAmount, foundAmount]
  split
  · rfl
  · rw [Reply.decoded, decodeAmount_encodeAmount]
    rfl

section

variable {store : Store} {current : UInt64}

namespace Balance

variable {address : Address} {held : Identifier}
  (hStored : store[key address held]? = storedAmount current)
include hStored

theorem decoded_key :
    Reply.decoded decode (.ok store[key address held]?) = .ok (foundAmount current) := by
  rw [hStored]
  exact decoded_storedAmount "balance" current

theorem carriesOut_add (more : UInt64) (create : Bool) :
    (add address held more create).CarriesOut (key address held) store
      (Movement.decision (.balance address held) current (.add more create)) := by
  refine .after_read (Reads.getDecoded decode) (yields_getDecoded_ok (decoded_key hStored)) ?_
  rw [Movement.decision, foundAmount]
  by_cases hZero : current = 0
  · rw [if_pos hZero]
    cases create with
    | false =>
        rw [if_pos ⟨rfl, hZero⟩]
        exact carriesOut_nothing
    | true =>
        rw [if_neg (by simp), hZero]
        exact carriesOut_checked_write _ _
  · rw [if_neg hZero, if_neg fun hSkip => hZero hSkip.2]
    exact carriesOut_checked_write _ _

theorem carriesOut_sub (less : UInt64) :
    (sub address held less).CarriesOut (key address held) store
      (Movement.decision (.balance address held) current (.sub less)) := by
  refine .after_read (Reads.getDecoded decode) (yields_getDecoded_ok (decoded_key hStored)) ?_
  simp only [Movement.decision, getD_foundAmount]
  exact carriesOut_checked_write _ _

end Balance

namespace Loan

variable {lent destination : Identifier}
  (hStored : store[key lent destination]? = storedAmount current)
include hStored

theorem yields_get_current : (get lent destination).Yields store (.ok current) store := by
  have hFound := decoded_storedAmount "loan" current
  rw [← hStored] at hFound
  have hGet := yields_get_ok lent destination hFound
  rw [getD_foundAmount] at hGet
  exact hGet

theorem carriesOut_add (more : UInt64) :
    (add lent destination more).CarriesOut (key lent destination) store
      (Movement.decision (.loan lent destination) current (.add more true)) := by
  refine .after_read (Operation.reads_loanGet lent destination) (yields_get_current hStored) ?_
  have hCreate : ¬ (true = false ∧ current = 0) := by simp
  rw [Movement.decision, if_neg hCreate]
  exact carriesOut_checked_write _ _

theorem carriesOut_sub (less : UInt64) :
    (sub lent destination less).CarriesOut (key lent destination) store
      (Movement.decision (.loan lent destination) current (.sub less)) :=
  .after_read (Operation.reads_loanGet lent destination) (yields_get_current hStored)
    (carriesOut_checked_write _ _)

end Loan

namespace Operation

variable {operation : Operation} {target : AmountTarget} {movement : Movement}

theorem target_of_movement (hMoves : operation.movement? = some (target, movement)) :
    operation.target = target.entity := by
  cases operation <;> cases hMoves <;> rfl

/-- An operation that moves an amount carries out what is decided about the movement. -/
theorem exists_carriesOut (hMoves : operation.movement? = some (target, movement)) :
    ∃ action, operation.run = writing action ∧
      ∀ (store : Store) (current : UInt64), store[target.key]? = storedAmount current →
        action.CarriesOut target.key store (movement.decision target current) := by
  cases operation with
  | balanceSet address held balance =>
      cases hMoves
      exact ⟨_, rfl, fun _ _ _ => carriesOut_write balance⟩
  | balanceDelete address held =>
      cases hMoves
      exact ⟨_, rfl, fun _ _ _ => carriesOut_remove⟩
  | balanceAdd address held amount create =>
      cases hMoves
      exact ⟨_, rfl, fun _ _ hStored => Balance.carriesOut_add hStored amount create⟩
  | balanceSub address held amount =>
      cases hMoves
      exact ⟨_, rfl, fun _ _ hStored => Balance.carriesOut_sub hStored amount⟩
  | loanSet lent destination amount =>
      cases hMoves
      exact ⟨_, rfl, fun _ _ _ => carriesOut_write amount⟩
  | loanAdd lent destination amount =>
      cases hMoves
      exact ⟨_, rfl, fun _ _ hStored => Loan.carriesOut_add hStored amount⟩
  | loanSub lent destination amount =>
      cases hMoves
      exact ⟨_, rfl, fun _ _ hStored => Loan.carriesOut_sub hStored amount⟩
  | _ => cases hMoves

/-- An operation on the record of an amount that does not move it reads it. -/
theorem reads_of_no_movement (hTarget : operation.target = target.entity)
    (hMoves : operation.movement? = none) : Reads target.key operation.run := by
  rw [AmountTarget.key, ← hTarget]
  cases operation with
  | balanceGet address held => exact (Reads.getDecoded Balance.decode).map _
  | balanceAmount address held => exact ((Reads.getDecoded Balance.decode).map _).map _
  | loanGet lent destination => exact (reads_loanGet lent destination).map _
  | balanceSet address held balance => cases hMoves
  | balanceDelete address held => cases hMoves
  | balanceAdd address held amount create => cases hMoves
  | balanceSub address held amount => cases hMoves
  | loanSet lent destination amount => cases hMoves
  | loanAdd lent destination amount => cases hMoves
  | loanSub lent destination amount => cases hMoves
  | counterGet counter => cases counter <;> cases target <;> cases hTarget
  | counterPut counter number => cases counter <;> cases target <;> cases hTarget
  -- records of the other kinds hold no amount
  | _ => cases target <;> cases hTarget

/-- What an operation that moves an amount comes to, and which amount it leaves. One that
succeeds without a call that writes had nothing to do. -/
theorem run_of_movement (hMoves : operation.movement? = some (target, movement)) {view : View}
    (hSchedule : view.schedule = Schedule.faultless)
    (hStored : view.store[target.key]? = storedAmount current) :
    (operation.run view).1 = (movement.decision target current).map (fun _ => .done) ∧
      (operation.run view).2.store[target.key]? = storedAmount (movement.after target current) ∧
      ((operation.run view).1.isOk ∧ (operation.run view).2.writes = view.writes ↔
        movement.decision target current = .ok none) := by
  obtain ⟨action, hRun, hAction⟩ := exists_carriesOut hMoves
  have hCarries := hAction view.store current hStored
  rw [hRun, writing_apply, Movement.after]
  match hDecision : movement.decision target current with
  | .ok none =>
      rw [hDecision] at hCarries
      obtain ⟨hYields, hWrites⟩ := hCarries
      obtain ⟨hResult, -, hStore⟩ := hYields view hSchedule rfl
      have hCalls := hWrites view hSchedule rfl
      simp [hResult, hStore, hCalls, hStored, Except.map, Except.isOk, Except.toBool]
  | .ok (some amount) =>
      rw [hDecision] at hCarries
      obtain ⟨hYields, hWrites⟩ := hCarries
      obtain ⟨hResult, -, hStore⟩ := hYields view hSchedule rfl
      have hCalls := hWrites view hSchedule rfl
      simp [hResult, hStore, hCalls, Except.map]
  | .error error =>
      rw [hDecision] at hCarries
      obtain ⟨hResult, -, hStore⟩ := hCarries view hSchedule rfl
      simp [hResult, hStore, hStored, Except.map, Except.isOk, Except.toBool]

/-- An amount that an operation does not move stays as it is. -/
theorem run_of_no_movement
    (hMoves : ∀ movement, operation.movement? ≠ some (target, movement)) (view : View) :
    (operation.run view).2.store[target.key]? = view.store[target.key]? := by
  by_cases hTarget : operation.target = target.entity
  · cases hMovement : operation.movement? with
    | none => rw [(reads_of_no_movement hTarget hMovement).store_eq]
    | some moved =>
        -- it would move the amount of its own record, which is this one
        obtain ⟨other, movement⟩ := moved
        have hEntity := (target_of_movement hMovement).symm.trans hTarget
        rw [AmountTarget.entity_injective hEntity] at hMovement
        exact absurd hMovement (hMoves movement)
  · exact operation.edits.getElem?_of_ne (fun hKey => hTarget (Entity.key_injective hKey)) view

end Operation

namespace Genesis

/-- The store after one first balance is given out. -/
def grant (store : Store) (allocation : Allocation) : Store :=
  store.put (Balance.key allocation.address Identifier.native) (storedAmount allocation.balance)

theorem yields_apply (allocations : List Allocation) (store : Store) :
    (apply ⟨allocations⟩).Yields store (.ok ()) (allocations.foldl grant store) := by
  induction allocations generalizing store with
  | nil => exact yields_pure () store
  | cons allocation allocations ih =>
      rw [apply_cons]
      exact (Balance.yields_write allocation.balance _ store).bind (ih (grant store allocation))

/-- An allocation counts if no later one is for the same account. -/
theorem balance?_cons (allocation : Allocation) (allocations : List Allocation)
    (target : AmountTarget) :
    balance? ⟨allocation :: allocations⟩ target =
      (balance? ⟨allocations⟩ target).or
        (if .balance allocation.address Identifier.native = target
          then some allocation.balance else none) := by
  simp [balance?, List.findSome?_append]

theorem getElem?_foldl_grant (allocations : List Allocation) (target : AmountTarget)
    (store : Store) :
    (allocations.foldl grant store)[target.key]? =
      ((balance? ⟨allocations⟩ target).map storedAmount).getD store[target.key]? := by
  induction allocations generalizing store with
  | nil => rfl
  | cons allocation allocations ih =>
      rw [List.foldl_cons, ih, balance?_cons]
      cases balance? ⟨allocations⟩ target with
      -- a later allocation for the account decides, whatever this one is
      | some base => rfl
      | none =>
          by_cases hTarget : .balance allocation.address Identifier.native = target
          · rw [if_pos hTarget, ← hTarget]
            exact store.getElem?_put_self _ _
          · rw [if_neg hTarget]
            exact store.getElem?_put_of_ne _ (AmountTarget.key_ne hTarget) _

end Genesis

namespace LedgerStep

variable {step : LedgerStep} {target : AmountTarget} {movement : Movement}

theorem movement?_operate {operation : Operation}
    (hMoves : operation.movement? = some (target, movement)) :
    (operate operation).movement? target = some movement := by
  simp [movement?, hMoves]

/-- An amount is moved by an operation, or set when first balances are given out. -/
theorem movement_cases (hMoves : step.movement? target = some movement) :
    (∃ operation, step = .operate operation ∧ operation.movement? = some (target, movement)) ∨
    ∃ genesis base, step = .found genesis ∧ genesis.balance? target = some base ∧
      movement = .reset base := by
  cases step with
  | operate operation =>
      obtain ⟨moved, hOperation, hMoved⟩ := Option.bind_eq_some_iff.mp hMoves
      obtain ⟨rfl, hMovement⟩ := Option.ite_none_right_eq_some.mp hMoved
      cases hMovement
      exact .inl ⟨operation, rfl, hOperation⟩
  | found genesis =>
      obtain ⟨base, hBase, rfl⟩ := Option.map_eq_some_iff.mp hMoves
      exact .inr ⟨genesis, base, rfl, hBase, rfl⟩

theorem yields_found (genesis : Genesis) (store : Store) :
    (found genesis).run.Yields store (.ok .done) (genesis.allocations.foldl Genesis.grant store) :=
  (Genesis.yields_apply genesis.allocations store).writing

variable {view : View} (hSchedule : view.schedule = Schedule.faultless)
include hSchedule

theorem run_schedule : (step.run view).2.schedule = Schedule.faultless := by
  cases step with
  | operate operation => exact (operation.edits.schedule_eq view).trans hSchedule
  | found genesis => exact (yields_found genesis view.store view hSchedule rfl).2.1

/-- A step that moves an amount leaves the amount that was decided. -/
theorem run_of_movement (hMoves : step.movement? target = some movement) {current : UInt64}
    (hStored : view.store[target.key]? = storedAmount current) :
    (step.run view).2.store[target.key]? = storedAmount (movement.after target current) := by
  obtain ⟨operation, rfl, hOperation⟩ | ⟨genesis, base, rfl, hBase, rfl⟩ := movement_cases hMoves
  · exact (Operation.run_of_movement hOperation hSchedule hStored).2.1
  · have hStore := (yields_found genesis view.store view hSchedule rfl).2.2
    rw [hStore, Genesis.getElem?_foldl_grant, hBase]
    rfl

theorem run_of_no_movement (hMoves : step.movement? target = none) :
    (step.run view).2.store[target.key]? = view.store[target.key]? := by
  cases step with
  | operate operation =>
      apply Operation.run_of_no_movement
      intro movement hMovement
      simp [movement?, hMovement] at hMoves
  | found genesis =>
      have hStore := (yields_found genesis view.store view hSchedule rfl).2.2
      rw [hStore, Genesis.getElem?_foldl_grant, Option.map_eq_none_iff.mp hMoves]
      rfl

end LedgerStep

end

end DeviceLedger
