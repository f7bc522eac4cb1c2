import DeviceLedger.Proofs.Movements

/-! The contract that balances and loans share. Both ledgers change an amount in the same
way; they differ only in where the amount lies and in how errors name it. So a loan and a
balance that begin with the same bytes stay in step, whatever these bytes are and whichever
calls of the store fail. -/

namespace DeviceLedger

open DeviceLedger.Action Fallible

/-- What can be asked of an amount of either ledger. -/
inductive AmountStep where
  | set (amount : UInt64)
  | add (amount : UInt64)
  | sub (amount : UInt64)

namespace AmountTarget

/-- The operation that takes a step on an amount. An addition to a balance may create it. -/
def operation : AmountTarget → AmountStep → Operation
  | balance address held, .set amount => .balanceSet address held amount
  | balance address held, .add amount => .balanceAdd address held amount true
  | balance address held, .sub amount => .balanceSub address held amount
  | loan lent destination, .set amount => .loanSet lent destination amount
  | loan lent destination, .add amount => .loanAdd lent destination amount
  | loan lent destination, .sub amount => .loanSub lent destination amount

/-- The word for the kind of an amount in errors. -/
def kindName (target : AmountTarget) : String := target.entity.kind.name

/-- Read an amount, which is zero where there is no record. -/
def current (target : AmountTarget) : Action UInt64 := do
  match ← Action.get target.key with
  | some value => Action.ofResult (decodeAmount target.kindName value)
  | none => return 0

/-- Take a step on an amount, wherever it lies. -/
def change (target : AmountTarget) : AmountStep → Action Unit
  | .set amount => Balance.write target.key amount
  | .add amount => do
    let current ← target.current
    if current.toNat + amount.toNat < UInt64.size then
      Balance.write target.key (current + amount)
    else
      throw (.overflow target current amount)
  | .sub amount => do
    let current ← target.current
    if amount ≤ current then
      Balance.write target.key (current - amount)
    else
      throw (.underflow target current amount)

end AmountTarget

section

variable (address : Address) (held : Identifier)

/-- The balance is read in two stages, of which the first keeps apart that nothing is there. -/
theorem Balance.amount_eq_current :
    Balance.amount address held = (AmountTarget.balance address held).current := by
  rw [Balance.amount, Balance.get, getDecoded, bind_assoc, AmountTarget.current]
  apply congrArg
  funext found
  cases found with
  | none => rfl
  | some value =>
      change (do return (← (do return some (← ofResult (Balance.decode value)))).getD 0) =
        ofResult (Balance.decode value)
      cases Balance.decode value <;> rfl

/-- An addition that may create the record does not care whether there is one. -/
theorem Balance.add_create_eq_change (more : UInt64) :
    Balance.add address held more true =
      (AmountTarget.balance address held).change (.add more) := by
  rw [Balance.add, AmountTarget.change, ← Balance.amount_eq_current, Balance.amount, bind_assoc]
  apply congrArg
  funext found
  cases found <;> rfl

theorem Balance.sub_eq_change (less : UInt64) :
    Balance.sub address held less = (AmountTarget.balance address held).change (.sub less) := by
  rw [AmountTarget.change, ← Balance.amount_eq_current, Balance.amount, bind_assoc]
  rfl

end

namespace AmountTarget

/-- Both ledgers take each step in the same way. -/
theorem operation_run (target : AmountTarget) (step : AmountStep) :
    (target.operation step).run = Operation.writing (target.change step) := by
  cases target with
  | balance address held =>
      cases step with
      | set amount => rfl
      | add more =>
          rw [← Balance.add_create_eq_change]
          rfl
      | sub less =>
          rw [← Balance.sub_eq_change]
          rfl
  | loan lent destination => cases step <;> rfl

end AmountTarget

/-- Results that say the same of two amounts: what was found, the failure of a call, or the
same error with each amount under its own name. No other errors arise. -/
inductive AmountTarget.Agree {α : Type} (first second : AmountTarget) :
    Except StorageError α → Except StorageError α → Prop where
  | ok (found : α) : Agree first second (.ok found) (.ok found)
  | state (failure : StateError) :
      Agree first second (.error (.state failure)) (.error (.state failure))
  | overflow (current amount : UInt64) : Agree first second
      (.error (.overflow first current amount)) (.error (.overflow second current amount))
  | underflow (current amount : UInt64) : Agree first second
      (.error (.underflow first current amount)) (.error (.underflow second current amount))
  | malformed (reason : Malformation) : Agree first second
      (.error (.malformed first.kindName reason)) (.error (.malformed second.kindName reason))

/-- Two views with the same value at one key each, and the same failures to come. -/
structure View.InStep (first second : Bytes) (view view' : View) : Prop where
  value : view.store[first]? = view'.store[second]?
  schedule : view.schedule = view'.schedule
  counts : ∀ kind, view.count kind = view'.count kind

namespace View.InStep

variable {first second : Bytes} {view view' : View}

theorem nextFailure_eq (hInStep : view.InStep first second view') (kind : CallKind) :
    view.nextFailure kind = view'.nextFailure kind := by
  simp [nextFailure, hInStep.schedule, hInStep.counts]

/-- A call that reads or fails, made of both. -/
theorem record (hInStep : view.InStep first second view') (kind : CallKind) :
    (view.record kind first).InStep first second (view'.record kind second) := by
  refine ⟨hInStep.value, hInStep.schedule, fun other => ?_⟩
  have hCount := hInStep.counts other
  simp only [count] at hCount
  simp only [count, record_calls, List.countP_cons, hCount]

end View.InStep

namespace Action

variable {α β : Type} {first second : AmountTarget}

/-- Actions on two amounts that make the same calls, each at the key of its own amount. -/
inductive Mirrors (first second : AmountTarget) : Action α → Action α → Prop where
  | result {result result' : Except StorageError α} (hAgree : first.Agree second result result') :
      Mirrors first second (ofResult result) (ofResult result')
  | get (next next' : Option Bytes → Action α)
      (hNext : ∀ value, Mirrors first second (next value) (next' value)) :
      Mirrors first second (Action.get first.key >>= next) (Action.get second.key >>= next')
  | insert (value : Bytes) (found : α) : Mirrors first second
      (Action.insert first.key value >>= fun _ => pure found)
      (Action.insert second.key value >>= fun _ => pure found)
  | remove (found : α) : Mirrors first second
      (Action.remove first.key >>= fun _ => pure found)
      (Action.remove second.key >>= fun _ => pure found)

/-- Where the results agree on an error, nothing comes after it. -/
theorem Mirrors.bind_result {result result' : Except StorageError α}
    (hAgree : first.Agree second result result') {next next' : α → Action β}
    (hNext : ∀ found, Mirrors first second (next found) (next' found)) :
    Mirrors first second (ofResult result >>= next) (ofResult result' >>= next') := by
  cases hAgree with
  | ok found => exact hNext found
  | state failure => exact .result (.state failure)
  | overflow current amount => exact .result (.overflow current amount)
  | underflow current amount => exact .result (.underflow current amount)
  | malformed reason => exact .result (.malformed reason)

/-- Presenting what was found changes nothing else. -/
theorem Mirrors.map {action action' : Action α} (hMirrors : Mirrors first second action action')
    (present : α → β) :
    Mirrors first second (action >>= fun found => pure (present found))
      (action' >>= fun found => pure (present found)) := by
  induction hMirrors with
  | result hAgree => exact .bind_result hAgree fun found => .result (.ok (present found))
  | get next next' hNext ih =>
      rw [bind_assoc, bind_assoc]
      exact .get _ _ ih
  | insert value found =>
      rw [bind_assoc, bind_assoc]
      exact .insert value (present found)
  | remove found =>
      rw [bind_assoc, bind_assoc]
      exact .remove (present found)

/-- Mirrored actions come to results that agree, and leave the views in step. By induction on
the actions: the same call fails in both, or in neither. -/
theorem Mirrors.run {action action' : Action α} (hMirrors : Mirrors first second action action')
    {view view' : View} (hInStep : view.InStep first.key second.key view') :
    first.Agree second (action view).1 (action' view').1 ∧
      (action view).2.InStep first.key second.key (action' view').2 := by
  induction hMirrors generalizing view view' with
  | result hAgree => exact ⟨hAgree, hInStep⟩
  | get next next' hNext ih =>
      rw [get_bind_apply, get_bind_apply, ← hInStep.nextFailure_eq, ← hInStep.value]
      cases view.nextFailure .get with
      | some failure => exact ⟨.state failure, hInStep.record .get⟩
      | none => exact ih _ (hInStep.record .get)
  | insert value found =>
      rw [insert_bind_pure_apply, insert_bind_pure_apply, ← hInStep.nextFailure_eq]
      cases view.nextFailure .insert with
      | some failure => exact ⟨.state failure, hInStep.record .insert⟩
      | none =>
          have hRecord := hInStep.record .insert
          exact ⟨.ok found, by simp, hRecord.schedule, hRecord.counts⟩
  | remove found =>
      rw [remove_bind_pure_apply, remove_bind_pure_apply, ← hInStep.nextFailure_eq]
      cases view.nextFailure .remove with
      | some failure => exact ⟨.state failure, hInStep.record .remove⟩
      | none =>
          have hRecord := hInStep.record .remove
          exact ⟨.ok found, by simp, hRecord.schedule, hRecord.counts⟩

end Action

/-- A value is an amount, or it is none for the same reason under any name. -/
theorem decodeAmount_cases (value : Bytes) :
    (∃ amount, ∀ entity, decodeAmount entity value = .ok amount) ∨
      ∃ reason, ∀ entity, decodeAmount entity value = .error (.malformed entity reason) := by
  simp only [decodeAmount_eq]
  by_cases hShort : value.length < 8
  · simp [hShort]
  · by_cases hLong : 8 < value.length <;> simp [hShort, hLong]

namespace AmountTarget

variable (first second : AmountTarget)

theorem mirrors_write (amount : UInt64) :
    Mirrors first second (Balance.write first.key amount) (Balance.write second.key amount) := by
  rw [Balance.write, Balance.write]
  split
  · rw [← bind_pure_unit (x := Action.remove first.key),
      ← bind_pure_unit (x := Action.remove second.key)]
    exact .remove ()
  · rw [← bind_pure_unit (x := Action.insert first.key _),
      ← bind_pure_unit (x := Action.insert second.key _)]
    exact .insert _ ()

/-- Both read the same amount, or stop for the same reason. -/
theorem mirrors_current_bind {α : Type} {next next' : UInt64 → Action α}
    (hNext : ∀ amount, Mirrors first second (next amount) (next' amount)) :
    Mirrors first second (first.current >>= next) (second.current >>= next') := by
  rw [current, current, bind_assoc, bind_assoc]
  refine .get _ _ fun found => ?_
  cases found with
  | none => exact hNext 0
  | some value =>
      refine .bind_result ?_ hNext
      rcases decodeAmount_cases value with ⟨amount, hDecode⟩ | ⟨reason, hDecode⟩
      · rw [hDecode, hDecode]
        exact .ok amount
      · rw [hDecode, hDecode]
        exact .malformed reason

theorem mirrors_current : Mirrors first second first.current second.current := by
  have hMirrors : Mirrors first second (first.current >>= pure) (second.current >>= pure) :=
    mirrors_current_bind first second fun amount => .result (.ok amount)
  rwa [bind_pure, bind_pure] at hMirrors

theorem mirrors_change (step : AmountStep) :
    Mirrors first second (first.change step) (second.change step) := by
  cases step with
  | set amount => exact mirrors_write first second amount
  | add more =>
      refine mirrors_current_bind first second fun amount => ?_
      split
      · exact mirrors_write first second _
      · exact .result (.overflow amount more)
  | sub less =>
      refine mirrors_current_bind first second fun amount => ?_
      split
      · exact mirrors_write first second _
      · exact .result (.underflow amount less)

theorem mirrors_operation (step : AmountStep) :
    Mirrors first second (first.operation step).run (second.operation step).run := by
  rw [operation_run, operation_run]
  exact (mirrors_change first second step).map fun _ => Outcome.done

/-- Two amounts that begin in step stay in step over a whole run. -/
theorem runAll_agree (steps : List AmountStep) {view view' : View}
    (hInStep : view.InStep first.key second.key view') :
    let run (target : AmountTarget) (view : View) :=
      runAll (steps.map fun step => (target.operation step).run) view
    List.Forall₂ (first.Agree second) (run first view).1 (run second view').1 ∧
      (run first view).2.InStep first.key second.key (run second view').2 :=
  runAll_relates (View.InStep first.key second.key) (first.Agree second)
    (fun step _ _ _ hBefore => (mirrors_operation first second step).run hBefore) hInStep

/-- An amount is read from what lies at its key, be it foreign or not. -/
theorem yields_current (target : AmountTarget) (store : Store) :
    target.current.Yields store
      (store[target.key]?.elim (.ok 0) (decodeAmount target.kindName)) store := by
  refine (yields_get target.key store).bind ?_
  cases store[target.key]? with
  | none => exact yields_pure 0 store
  | some value => exact yields_ofResult (decodeAmount target.kindName value) store

/-- What is read of an amount when no call fails. -/
theorem current_ofStore (target : AmountTarget) (store : Store) :
    (target.current (View.ofStore store)).1 =
      store[target.key]?.elim (.ok 0) (decodeAmount target.kindName) :=
  (target.yields_current store (View.ofStore store) rfl rfl).1

/-- Where the same bytes lie, the same amount is read, or none for the same reason. -/
theorem current_ofStore_cases {store store' : Store}
    (hSame : store[first.key]? = store'[second.key]?) :
    (∃ amount, (first.current (View.ofStore store)).1 = .ok amount ∧
      (second.current (View.ofStore store')).1 = .ok amount) ∨
    ∃ reason,
      (first.current (View.ofStore store)).1 = .error (.malformed first.kindName reason) ∧
      (second.current (View.ofStore store')).1 = .error (.malformed second.kindName reason) := by
  rw [current_ofStore, current_ofStore, ← hSame]
  cases store[first.key]? with
  | none => exact .inl ⟨0, rfl, rfl⟩
  | some value =>
      rcases decodeAmount_cases value with ⟨amount, hDecode⟩ | ⟨reason, hDecode⟩
      · exact .inl ⟨amount, hDecode _, hDecode _⟩
      · exact .inr ⟨reason, hDecode _, hDecode _⟩

end AmountTarget

/-- Loans share the contract of balances. Take a loan and a balance whose records hold the
same bytes, or are both absent, in any two stores, and the same steps on both under the same
schedule of failures; additions to the balance may create it. Then every step comes to the
same in both: it is done, fails with the same call, is refused with the same numbers, or finds
a record that is malformed for the same reason. Afterwards the records hold the same bytes
again, or are both absent, and reading them comes to the same, too; when no call fails, the
same amount is read or the same reason is given. Since every beginning of a run is a run, this
holds after every step. -/
theorem loans_share_balance_contract (lent destination : Identifier) (address : Address)
    (held : Identifier) (store store' : Store) (schedule : Schedule) (steps : List AmountStep)
    (hSame : store[Loan.key lent destination]? = store'[Balance.key address held]?) :
    let loan : AmountTarget := .loan lent destination
    let balance : AmountTarget := .balance address held
    let run (target : AmountTarget) (store : Store) :=
      runAll (steps.map fun step => (target.operation step).run) ⟨store, schedule, []⟩
    let now := (run loan store).2
    let now' := (run balance store').2
    List.Forall₂ (loan.Agree balance) (run loan store).1 (run balance store').1 ∧
    now.store[Loan.key lent destination]? = now'.store[Balance.key address held]? ∧
    loan.Agree balance (Loan.get lent destination now).1 (Balance.amount address held now').1 ∧
    let found := (Loan.get lent destination (View.ofStore now.store)).1
    let found' := (Balance.amount address held (View.ofStore now'.store)).1
    (∃ amount, found = .ok amount ∧ found' = .ok amount) ∨
      ∃ reason, found = .error (.malformed "loan" reason) ∧
        found' = .error (.malformed "balance" reason) := by
  intro loan balance
  have hStart : View.InStep loan.key balance.key ⟨store, schedule, []⟩ ⟨store', schedule, []⟩ :=
    ⟨hSame, rfl, fun _ => rfl⟩
  obtain ⟨hResults, hNow⟩ := loan.runAll_agree balance steps hStart
  have hGet : Loan.get lent destination = loan.current := rfl
  have hAmount : Balance.amount address held = balance.current :=
    Balance.amount_eq_current address held
  rw [hGet, hAmount]
  exact ⟨hResults, hNow.value, ((loan.mirrors_current balance).run hNow).1,
    loan.current_ofStore_cases balance hNow.value⟩

/-- A loan and a balance that begin with a foreign record of zero: the first call that inserts
fails, a sum does not fit, and more is taken than is there. -/
theorem foreign_zeros_in_step :
    let loan : AmountTarget := .loan default default
    let balance : AmountTarget := .balance default default
    let zero : Bytes := [0, 0, 0, 0, 0, 0, 0, 0]
    let lent : Store := (∅ : Store).put (Loan.key default default) (some zero)
    let held : Store := (∅ : Store).put (Balance.key default default) (some zero)
    let schedule : Schedule := fun kind number =>
      if kind = .insert ∧ number = 0 then some .poisoned else none
    let steps : List AmountStep := [.add 5, .add 3, .add 18446744073709551615, .sub 4, .sub 3]
    let run (target : AmountTarget) (store : Store) :=
      runAll (steps.map fun step => (target.operation step).run) ⟨store, schedule, []⟩
    (run loan lent).1 =
      [.error (.state .poisoned), .ok .done, .error (.overflow loan 3 18446744073709551615),
        .error (.underflow loan 3 4), .ok .done] ∧
    List.Forall₂ (loan.Agree balance) (run loan lent).1 (run balance held).1 ∧
    (run loan lent).2.store[Loan.key default default]? =
      (run balance held).2.store[Balance.key default default]? := by
  dsimp only
  refine ⟨by rfl, ?_⟩
  obtain ⟨hResults, hValue, -⟩ :=
    loans_share_balance_contract default default default default
      ((∅ : Store).put (Loan.key default default) (some [0, 0, 0, 0, 0, 0, 0, 0]))
      ((∅ : Store).put (Balance.key default default) (some [0, 0, 0, 0, 0, 0, 0, 0]))
      (fun kind number => if kind = .insert ∧ number = 0 then some .poisoned else none)
      [.add 5, .add 3, .add 18446744073709551615, .sub 4, .sub 3]
      (by rw [Store.getElem?_put_self, Store.getElem?_put_self])
  exact ⟨hResults, hValue⟩

end DeviceLedger
