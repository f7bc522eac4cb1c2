import DeviceLedger.Proofs.Movements

/-! The history law of balances and loans. An amount is what its last reset set, with
everything that was added since and without everything that was taken away since. The sums
are unbounded; that they stay within 64 bits is a consequence. -/

namespace DeviceLedger

open DeviceLedger.Action Fallible

/-- A step of a run, and the view that it starts from. -/
structure LedgerEntry where
  step : LedgerStep
  before : View

namespace LedgerEntry

/-- The steps of a run from a view, in their order. -/
def history : List LedgerStep → View → List LedgerEntry
  | [], _ => []
  | step :: steps, view => ⟨step, view⟩ :: history steps (step.run view).2

variable (entry : LedgerEntry) (target : AmountTarget)

def result : Except StorageError Outcome := (entry.step.run entry.before).1

def after : View := (entry.step.run entry.before).2

/-- A step that succeeds without a call that writes. -/
def IsNoOp : Prop := entry.result.isOk ∧ entry.after.writes = entry.before.writes

instance : Decidable entry.IsNoOp := inferInstanceAs (Decidable (_ ∧ _))

/-- The amount that a reset sets. -/
def reset? : Option UInt64 :=
  match entry.step.movement? target with
  | some (.reset base) => some base
  | _ => none

/-- What an entry adds to an amount. Additions that fail and those without an effect do not
count. -/
def credited : Nat :=
  match entry.step.movement? target with
  | some (.add more _) => if entry.result.isOk ∧ ¬ entry.IsNoOp then more.toNat else 0
  | _ => 0

/-- What an entry takes away from an amount. Subtractions that fail do not count. -/
def debited : Nat :=
  match entry.step.movement? target with
  | some (.sub less) => if entry.result.isOk then less.toNat else 0
  | _ => 0

end LedgerEntry

namespace AmountTarget

variable (target : AmountTarget) (past : List LedgerEntry)

/-- The amount that the last reset set, or zero if there was none. -/
def base : UInt64 := (past.reverse.findSome? fun entry => entry.reset? target).getD 0

/-- The entries after the last reset, the latest first. -/
def sinceReset : List LedgerEntry :=
  past.reverse.takeWhile fun entry => (entry.reset? target).isNone

/-- The amount that a history gives. -/
def amountAfter : ℤ :=
  (target.base past).toNat + ((target.sinceReset past).map fun entry => entry.credited target).sum -
    ((target.sinceReset past).map fun entry => entry.debited target).sum

theorem amountAfter_concat_reset {entry : LedgerEntry} {base : UInt64}
    (hReset : entry.reset? target = some base) :
    target.amountAfter (past ++ [entry]) = base.toNat := by
  simp [amountAfter, AmountTarget.base, sinceReset, hReset]

theorem amountAfter_concat {entry : LedgerEntry} (hReset : entry.reset? target = none) :
    target.amountAfter (past ++ [entry]) =
      target.amountAfter past + entry.credited target - entry.debited target := by
  simp [amountAfter, AmountTarget.base, sinceReset, hReset]
  omega

end AmountTarget

namespace Movement

variable {target : AmountTarget} {current : UInt64}

theorem decision_add_eq_nothing_iff {more : UInt64} {create : Bool} :
    (add more create).decision target current = .ok none ↔ create = false ∧ current = 0 := by
  rw [decision]
  by_cases hSkip : create = false ∧ current = 0
  · rw [if_pos hSkip]
    exact iff_of_true rfl hSkip
  · rw [if_neg hSkip]
    split <;> simp [hSkip]

/-- An addition that is not left out is refused if the sum needs more than 64 bits. -/
theorem outcome_add {more : UInt64} {create : Bool} (hAdds : ¬ (create = false ∧ current = 0)) :
    ((add more create).decision target current).map (fun _ => Outcome.done) =
      if current.toNat + more.toNat > 2 ^ 64 - 1 then .error (.overflow target current more)
      else .ok .done := by
  rw [decision, if_neg hAdds]
  by_cases hFits : current.toNat + more.toNat < UInt64.size
  · have hBelow : ¬ current.toNat + more.toNat > 2 ^ 64 - 1 := by
      rw [UInt64.size] at hFits
      omega
    rw [if_pos hFits, if_neg hBelow]
    rfl
  · have hAbove : current.toNat + more.toNat > 2 ^ 64 - 1 := by
      rw [UInt64.size] at hFits
      omega
    rw [if_neg hFits, if_pos hAbove]
    rfl

/-- A subtraction is refused if it is not covered. -/
theorem outcome_sub {less : UInt64} :
    ((sub less).decision target current).map (fun _ => Outcome.done) =
      if less.toNat > current.toNat then .error (.underflow target current less)
      else .ok .done := by
  rw [decision]
  by_cases hLess : less ≤ current
  · rw [if_pos hLess, if_neg (Nat.not_lt.mpr (UInt64.le_iff_toNat_le.mp hLess))]
    rfl
  · have hAbove : less.toNat > current.toNat :=
      Nat.lt_of_not_le fun hNat => hLess (UInt64.le_iff_toNat_le.mpr hNat)
    rw [if_neg hLess, if_pos hAbove]
    rfl

end Movement

namespace LedgerEntry

theorem movement_of_reset {entry : LedgerEntry} {target : AmountTarget} {base : UInt64}
    (hReset : entry.reset? target = some base) :
    entry.step.movement? target = some (.reset base) := by
  rw [reset?] at hReset
  split at hReset
  · rename_i hMoves
    cases hReset
    exact hMoves
  · cases hReset

variable {target : AmountTarget} {operation : Operation} {view : View} {current : UInt64}
  (hSchedule : view.schedule = Schedule.faultless)
  (hStored : view.store[target.key]? = storedAmount current)
include hSchedule hStored

theorem of_movement {movement : Movement}
    (hMoves : operation.movement? = some (target, movement)) :
    result ⟨.operate operation, view⟩ =
        (movement.decision target current).map (fun _ => .done) ∧
      (IsNoOp ⟨.operate operation, view⟩ ↔ movement.decision target current = .ok none) := by
  obtain ⟨hResult, -, hNoOp⟩ := Operation.run_of_movement hMoves hSchedule hStored
  exact ⟨hResult, hNoOp⟩

/-- What is added is credited, and the sum does not wrap around. -/
theorem toNat_after_add {more : UInt64} {create : Bool}
    (hMoves : operation.movement? = some (target, .add more create)) :
    ((Movement.add more create).after target current).toNat =
      current.toNat + credited ⟨.operate operation, view⟩ target := by
  obtain ⟨hResult, hNoOp⟩ := of_movement hSchedule hStored hMoves
  have hMovement := LedgerStep.movement?_operate hMoves
  -- the result and the calls are those of the decision, so its three cases remain
  simp only [credited, hMovement, hResult, hNoOp, Movement.after]
  rw [Movement.decision]
  by_cases hSkip : create = false ∧ current = 0
  · simp [if_pos hSkip]
  · rw [if_neg hSkip]
    by_cases hFits : current.toNat + more.toNat < UInt64.size
    · have hSum : (current + more).toNat = current.toNat + more.toNat := by
        rw [UInt64.toNat_add, Nat.mod_eq_of_lt hFits]
      simp [if_pos hFits, hSum, Except.map, Except.isOk, Except.toBool]
    · simp [if_neg hFits, Except.map, Except.isOk, Except.toBool]

/-- What is taken away is debited, and was there. -/
theorem toNat_after_sub {less : UInt64} (hMoves : operation.movement? = some (target, .sub less)) :
    ((Movement.sub less).after target current).toNat +
      debited ⟨.operate operation, view⟩ target = current.toNat := by
  obtain ⟨hResult, -⟩ := of_movement hSchedule hStored hMoves
  have hMovement := LedgerStep.movement?_operate hMoves
  simp only [debited, hMovement, hResult, Movement.after]
  rw [Movement.decision]
  by_cases hLess : less ≤ current
  · have hNat := UInt64.le_iff_toNat_le.mp hLess
    have hRest : (current - less).toNat = current.toNat - less.toNat :=
      UInt64.toNat_sub_of_le _ _ hLess
    simp [if_pos hLess, hRest, Except.map, Except.isOk, Except.toBool]
    omega
  · simp [if_neg hLess, Except.map, Except.isOk, Except.toBool]

/-- A step without a reset takes an amount to the one that its entry gives. -/
theorem exists_after {step : LedgerStep} (hReset : reset? ⟨step, view⟩ target = none) :
    ∃ next, (step.run view).2.store[target.key]? = storedAmount next ∧
      next.toNat + debited ⟨step, view⟩ target = current.toNat + credited ⟨step, view⟩ target := by
  cases hMoves : step.movement? target with
  | none =>
      refine ⟨current, (LedgerStep.run_of_no_movement hSchedule hMoves).trans hStored, ?_⟩
      simp [credited, debited, hMoves]
  | some movement =>
      refine ⟨movement.after target current,
        LedgerStep.run_of_movement hSchedule hMoves hStored, ?_⟩
      obtain ⟨operation, rfl, hOperation⟩ | ⟨genesis, base, rfl, -, rfl⟩ :=
        LedgerStep.movement_cases hMoves
      · cases movement with
        | reset base => simp [reset?, hMoves] at hReset
        | add more create =>
            have hDebited : debited ⟨.operate operation, view⟩ target = 0 := by
              simp [debited, hMoves]
            rw [toNat_after_add hSchedule hStored hOperation, hDebited]
            rfl
        | sub less =>
            have hCredited : credited ⟨.operate operation, view⟩ target = 0 := by
              simp [credited, hMoves]
            rw [toNat_after_sub hSchedule hStored hOperation, hCredited]
            rfl
      -- first balances are resets
      · simp [reset?, hMoves] at hReset

end LedgerEntry

namespace AmountTarget

/-- No call will fail, and the record of an amount holds what the history gives. -/
structure Recorded (target : AmountTarget) (past : List LedgerEntry) (view : View) : Prop where
  quiet : view.schedule = Schedule.faultless
  recorded : ∃ current : UInt64, (current.toNat : ℤ) = target.amountAfter past ∧
    view.store[target.key]? = storedAmount current

namespace Recorded

variable {target : AmountTarget} {past : List LedgerEntry} {view : View}

theorem start (target : AmountTarget) : target.Recorded [] (View.ofStore ∅) := by
  refine ⟨rfl, 0, rfl, ?_⟩
  simp [View.ofStore, storedAmount]

/-- One more step. A reset starts the sums anew, every other movement goes into them. -/
theorem step (hPast : target.Recorded past view) (step : LedgerStep) :
    target.Recorded (past ++ [⟨step, view⟩]) (step.run view).2 := by
  obtain ⟨hQuiet, current, hCurrent, hStored⟩ := hPast
  refine ⟨LedgerStep.run_schedule hQuiet, ?_⟩
  cases hReset : LedgerEntry.reset? ⟨step, view⟩ target with
  | some base =>
      have hMoves := LedgerEntry.movement_of_reset hReset
      refine ⟨base, ?_, LedgerStep.run_of_movement hQuiet hMoves hStored⟩
      rw [amountAfter_concat_reset _ _ hReset]
  | none =>
      obtain ⟨next, hNext, hSums⟩ := LedgerEntry.exists_after hQuiet hStored hReset
      refine ⟨next, ?_, hNext⟩
      rw [amountAfter_concat _ _ hReset, ← hCurrent]
      omega

/-- A whole run, by induction on its steps; what came before it is part of the history. -/
theorem run (steps : List LedgerStep) (hPast : target.Recorded past view) :
    target.Recorded (past ++ LedgerEntry.history steps view)
      (runAll (steps.map LedgerStep.run) view).2 := by
  induction steps generalizing past view with
  | nil =>
      rw [LedgerEntry.history, List.append_nil]
      exact hPast
  | cons step steps ih =>
      have hRun := ih (hPast.step step)
      rw [List.append_assoc] at hRun
      exact hRun

end Recorded

/-- An amount that is stored is read. -/
theorem reading_run (target : AmountTarget) {view : View}
    (hSchedule : view.schedule = Schedule.faultless) {current : UInt64}
    (hStored : view.store[target.key]? = storedAmount current) :
    (target.reading.run view).1 = .ok (.amount (some current)) := by
  cases target with
  | balance address held =>
      have hYields := Balance.yields_amount address held (Balance.decoded_key hStored)
      rw [getD_foundAmount] at hYields
      exact (hYields.map _ view hSchedule rfl).1
  | loan lent destination =>
      exact ((Loan.yields_get_current hStored).map _ view hSchedule rfl).1

end AmountTarget

/-- The history law of balances and loans. Take any run from the empty store in which no
call fails, with other records in between. An amount then is what its last reset set, with
all additions since that succeeded and were no no-ops, and without all subtractions since
that succeeded; these sums are unbounded. It lies within 64 bits, it is what is read, and
its record is there exactly if it is not zero. The next addition is a no-op exactly if it
must not create a record and the amount is zero; any other overflows exactly if the sum
does not fit, and a subtraction underflows exactly if it is not covered. A step that fails
leaves the store as it was. Since every beginning of a run is a run, this holds at every
point. -/
theorem amount_follows_history (steps : List LedgerStep) (target : AmountTarget) :
    let now := (runAll (steps.map LedgerStep.run) (View.ofStore ∅)).2
    let amount := target.amountAfter (LedgerEntry.history steps (View.ofStore ∅))
    ∃ current : UInt64, current.toNat = amount ∧ 0 ≤ amount ∧ amount ≤ 2 ^ 64 - 1 ∧
      (target.reading.run now).1 = .ok (.amount (some current)) ∧
      (now.store[target.key]? = none ↔ amount = 0) ∧
      (amount ≠ 0 → now.store[target.key]? = some (encodeAmount current)) ∧
      (∀ (operation : Operation) (more : UInt64) (create : Bool),
        operation.movement? = some (target, .add more create) →
          let entry : LedgerEntry := ⟨.operate operation, now⟩
          (entry.IsNoOp ↔ create = false ∧ amount = 0) ∧
          (¬ (create = false ∧ amount = 0) → entry.result =
            if amount + more.toNat > 2 ^ 64 - 1 then .error (.overflow target current more)
            else .ok .done)) ∧
      (∀ (operation : Operation) (less : UInt64),
        operation.movement? = some (target, .sub less) → (operation.run now).1 =
          if less.toNat > amount then .error (.underflow target current less) else .ok .done) ∧
      ∀ (step : LedgerStep) (error : StorageError),
        (step.run now).1 = .error error → (step.run now).2.store = now.store := by
  intro now amount
  obtain ⟨hQuiet, current, hCurrent, hStored⟩ := (AmountTarget.Recorded.start target).run steps
  change (current.toNat : ℤ) = amount at hCurrent
  have hBound := current.toNat_lt
  have hZero : amount = 0 ↔ current = 0 := by
    rw [← UInt64.toNat_inj, UInt64.toNat_zero]
    omega
  refine ⟨current, hCurrent, by omega, by omega, target.reading_run hQuiet hStored, ?_, ?_, ?_, ?_,
    ?_⟩
  · rw [hZero, hStored]
    exact storedAmount_eq_none_iff current
  · intro hAmount
    exact hStored.trans (if_neg fun hCurrentZero => hAmount (hZero.mpr hCurrentZero))
  · intro operation more create hMoves entry
    obtain ⟨hResult, hNoOp⟩ := LedgerEntry.of_movement hQuiet hStored hMoves
    rw [hZero]
    refine ⟨hNoOp.trans Movement.decision_add_eq_nothing_iff, fun hAdds => ?_⟩
    refine (hResult.trans (Movement.outcome_add hAdds)).trans (if_congr ?_ rfl rfl)
    omega
  · intro operation less hMoves
    obtain ⟨hResult, -⟩ := LedgerEntry.of_movement hQuiet hStored hMoves
    refine (hResult.trans Movement.outcome_sub).trans (if_congr ?_ rfl rfl)
    omega
  · intro step error hError
    cases step with
    | operate operation => exact operation.edits.store_eq_of_error hError
    | found genesis =>
        have hResult := (LedgerStep.yields_found genesis _ _ hQuiet rfl).1
        cases hResult.symm.trans hError

/-- After a removal an addition that must not create a record is a no-op. -/
example :
    AmountTarget.amountAfter (.balance default Identifier.native) (LedgerEntry.history
      [.found ⟨[⟨default, 7⟩]⟩, .operate (.balanceDelete default Identifier.native),
        .operate (.balanceAdd default Identifier.native 5 false),
        .operate (.balanceAdd default Identifier.native 3 true),
        .operate (.balanceSub default Identifier.native 4),
        .operate (.balanceSub default Identifier.native 1)] (View.ofStore ∅)) = 2 := by
  rfl

end DeviceLedger
