import DeviceLedger.Proofs.AmountContract

/-! Additions and subtractions of the same amount cancel, whichever comes first, and leave the
store as it was. A refund that must not create a record is the exception: after a charge that
took everything it is dropped. -/

namespace DeviceLedger

/-- No call of a view will fail, and it holds an amount. -/
structure View.Holds (view : View) (target : AmountTarget) (current : UInt64) : Prop where
  quiet : view.schedule = Schedule.faultless
  stored : view.store[target.key]? = storedAmount current

namespace Movement

variable {target : AmountTarget} {current amount : UInt64} {written : Option UInt64}

/-- An addition that may create the record is decided by whether the sum fits. -/
theorem decision_create :
    (add amount true).decision target current =
      if current.toNat + amount.toNat < UInt64.size then .ok (some (current + amount))
      else .error (.overflow target current amount) := by
  rw [decision, if_neg (by simp)]

theorem decision_sub :
    (sub amount).decision target current =
      if amount ≤ current then .ok (some (current - amount))
      else .error (.underflow target current amount) := rfl

/-- What was added can be taken back. -/
theorem sub_cancels_add (hAdd : (add amount true).decision target current = .ok written) :
    ∃ next, written = some next ∧ (sub amount).decision target next = .ok (some current) := by
  rw [decision_create] at hAdd
  split at hAdd
  · rename_i hFits
    have hSum : (current + amount).toNat = current.toNat + amount.toNat := by
      rw [UInt64.toNat_add, Nat.mod_eq_of_lt hFits]
    have hCovered : amount ≤ current + amount := by
      rw [UInt64.le_iff_toNat_le, hSum]
      omega
    cases hAdd
    refine ⟨_, rfl, ?_⟩
    rw [decision_sub, if_pos hCovered, UInt64.add_sub_cancel]
  · cases hAdd

/-- What was taken away can be given back, since the sum was there before. -/
theorem add_cancels_sub (hSub : (sub amount).decision target current = .ok written) :
    ∃ next, written = some next ∧ (add amount true).decision target next = .ok (some current) := by
  rw [decision_sub] at hSub
  split at hSub
  · rename_i hCovered
    have hRest := UInt64.toNat_sub_of_le current amount hCovered
    have hBelow := UInt64.le_iff_toNat_le.mp hCovered
    have hBound := current.toNat_lt_size
    have hFits : (current - amount).toNat + amount.toNat < UInt64.size := by omega
    cases hSub
    refine ⟨_, rfl, ?_⟩
    rw [decision_create, if_pos hFits, UInt64.sub_add_cancel]
  · cases hSub

/-- After a charge, a refund of no more than the fee is given unless the charge took everything;
then there is nothing to do. -/
theorem refund_after_charge {fee refund : UInt64} (hRefund : refund ≤ fee)
    (hCharge : (sub fee).decision target current = .ok written) :
    ∃ next, written = some next ∧
      ((fee < current ∧ ∃ left : UInt64, (add refund false).decision target next = .ok (some left) ∧
          left.toNat = current.toNat - fee.toNat + refund.toNat) ∨
        (fee = current ∧ next = 0 ∧ (add refund false).decision target next = .ok none)) := by
  rw [decision_sub] at hCharge
  split at hCharge
  · rename_i hCovered
    have hRest := UInt64.toNat_sub_of_le current fee hCovered
    cases hCharge
    refine ⟨_, rfl, ?_⟩
    rcases UInt64.lt_or_eq_of_le hCovered with hLess | hAll
    · have hBelow := UInt64.lt_iff_toNat_lt.mp hLess
      have hNoMore := UInt64.le_iff_toNat_le.mp hRefund
      have hBound := current.toNat_lt_size
      have hLeft : current - fee ≠ 0 := by
        intro hZero
        rw [hZero, UInt64.toNat_zero] at hRest
        omega
      have hFits : (current - fee).toNat + refund.toNat < UInt64.size := by omega
      refine .inl ⟨hLess, current - fee + refund, ?_, ?_⟩
      · rw [decision, if_neg fun hSkip => hLeft hSkip.2, if_pos hFits]
      · rw [UInt64.toNat_add, Nat.mod_eq_of_lt hFits, hRest]
    · have hZero : current - fee = 0 := by rw [hAll, UInt64.sub_self]
      exact .inr ⟨hAll, hZero, by rw [decision, if_pos ⟨rfl, hZero⟩]⟩
  · cases hCharge

end Movement

namespace Operation

variable {operation first second : Operation} {target : AmountTarget} {movement : Movement}
  {view : View} {current : UInt64} {written : Option UInt64}

/-- What was decided about a movement is what lies in the store afterwards. -/
theorem run_of_decision (hMoves : operation.movement? = some (target, movement))
    (hView : view.Holds target current)
    (hDecision : movement.decision target current = .ok written) :
    (operation.run view).1 = .ok .done ∧
      (operation.run view).2.Holds target (written.getD current) ∧
      (operation.run view).2.store =
        view.store.put target.key (storedAmount (written.getD current)) := by
  obtain ⟨hResult, hStored, -⟩ := run_of_movement hMoves hView.quiet hView.stored
  have hAfter : movement.after target current = written.getD current := by
    rw [Movement.after, hDecision]
    cases written <;> rfl
  rw [hDecision] at hResult
  rw [hAfter] at hStored
  refine ⟨hResult, ⟨(operation.edits.schedule_eq view).trans hView.quiet, hStored⟩, ?_⟩
  ext other value
  rw [Store.getElem?_put]
  split
  · rename_i hKey
    rw [← hKey, hStored]
  · rename_i hKey
    have hTarget : operation.target.key ≠ other := by
      rw [target_of_movement hMoves]
      exact hKey
    rw [operation.edits.getElem?_of_ne hTarget view]

/-- A success is what was decided about the movement. -/
theorem exists_decision_of_ok (hMoves : operation.movement? = some (target, movement))
    (hView : view.Holds target current) (hOk : (operation.run view).1 = .ok .done) :
    ∃ written, movement.decision target current = .ok written := by
  obtain ⟨hResult, -, -⟩ := run_of_movement hMoves hView.quiet hView.stored
  rw [hResult] at hOk
  cases hDecision : movement.decision target current with
  | ok written => exact ⟨written, rfl⟩
  | error error =>
      rw [hDecision] at hOk
      cases hOk

/-- Of two movements of one amount, only what the second one leaves is in the store. -/
theorem run_twice {movement' : Movement} {next : UInt64} {written' : Option UInt64}
    (hFirst : first.movement? = some (target, movement))
    (hSecond : second.movement? = some (target, movement')) (hView : view.Holds target current)
    (hDecision : movement.decision target current = .ok (some next))
    (hDecision' : movement'.decision target next = .ok written') :
    (second.run (first.run view).2).1 = .ok .done ∧
      (second.run (first.run view).2).2.store =
        view.store.put target.key (storedAmount (written'.getD next)) := by
  obtain ⟨-, hBetween, hStore⟩ := run_of_decision hFirst hView hDecision
  obtain ⟨hDone, -, hStore'⟩ := run_of_decision hSecond hBetween hDecision'
  refine ⟨hDone, ?_⟩
  rw [hStore', hStore, Store.put_put]
  rfl

/-- A movement that takes back what another one did restores the store. -/
theorem run_cancels {movement' : Movement} (hFirst : first.movement? = some (target, movement))
    (hSecond : second.movement? = some (target, movement'))
    (hBack : ∀ written, movement.decision target current = .ok written →
      ∃ next, written = some next ∧ movement'.decision target next = .ok (some current))
    (hView : view.Holds target current) (hOk : (first.run view).1 = .ok .done) :
    (second.run (first.run view).2).1 = .ok .done ∧
      (second.run (first.run view).2).2.store = view.store := by
  obtain ⟨written, hDecision⟩ := exists_decision_of_ok hFirst hView hOk
  obtain ⟨next, rfl, hTakesBack⟩ := hBack written hDecision
  obtain ⟨hDone, hStore⟩ := run_twice hFirst hSecond hView hDecision hTakesBack
  refine ⟨hDone, ?_⟩
  rw [hStore, Option.getD_some, ← hView.stored, Store.put_getElem?]

end Operation

namespace AmountTarget

theorem movement?_add (target : AmountTarget) (amount : UInt64) :
    (target.operation (.add amount)).movement? = some (target, .add amount true) := by
  cases target <;> rfl

theorem movement?_sub (target : AmountTarget) (amount : UInt64) :
    (target.operation (.sub amount)).movement? = some (target, .sub amount) := by
  cases target <;> rfl

end AmountTarget

/-- Additions and subtractions of the same amount cancel. Take any store in which no call fails,
with a balance or a loan whose record is absent or holds an amount that is not zero. If an
addition that may create the record succeeds, the subtraction of the same amount succeeds and
restores the whole store, and the other way round. A refund of no more than the fee that was
charged always succeeds, also if it must not create the record: it is added to what the charge
has left, but dropped if the charge took everything, and the record stays absent. -/
theorem additions_and_subtractions_cancel (store : Store) (target : AmountTarget)
    (current : UInt64) (hStored : store[target.key]? = storedAmount current) :
    let view := View.ofStore store
    (∀ amount : UInt64,
      let added := (target.operation (.add amount)).run view
      let restored := (target.operation (.sub amount)).run added.2
      added.1 = .ok .done → restored.1 = .ok .done ∧ restored.2.store = store) ∧
    (∀ amount : UInt64,
      let taken := (target.operation (.sub amount)).run view
      let restored := (target.operation (.add amount)).run taken.2
      taken.1 = .ok .done → restored.1 = .ok .done ∧ restored.2.store = store) ∧
    ∀ (address : Address) (held : Identifier), target = .balance address held →
      ∀ fee refund : UInt64, refund ≤ fee →
        let charged := (Operation.balanceSub address held fee).run view
        let refunded := (Operation.balanceAdd address held refund false).run charged.2
        charged.1 = .ok .done → refunded.1 = .ok .done ∧
          ((fee < current ∧ ∃ left : UInt64,
              left.toNat = current.toNat - fee.toNat + refund.toNat ∧
              refunded.2.store = store.put target.key (some (encodeAmount left))) ∨
            (fee = current ∧ refunded.2.store = store.put target.key none)) := by
  intro view
  have hView : view.Holds target current := ⟨rfl, hStored⟩
  refine ⟨?_, ?_, ?_⟩
  · intro amount added restored hOk
    exact Operation.run_cancels (target.movement?_add amount) (target.movement?_sub amount)
      (fun _ => Movement.sub_cancels_add) hView hOk
  · intro amount taken restored hOk
    exact Operation.run_cancels (target.movement?_sub amount) (target.movement?_add amount)
      (fun _ => Movement.add_cancels_sub) hView hOk
  · rintro address held rfl fee refund hRefund charged refunded hOk
    have hCharge : (Operation.balanceSub address held fee).movement? =
      some (.balance address held, .sub fee) := rfl
    have hGive : (Operation.balanceAdd address held refund false).movement? =
      some (.balance address held, .add refund false) := rfl
    obtain ⟨written, hDecision⟩ := Operation.exists_decision_of_ok hCharge hView hOk
    obtain ⟨next, rfl, hCases⟩ := Movement.refund_after_charge hRefund hDecision
    rcases hCases with ⟨hLess, left, hGiven, hLeft⟩ | ⟨hAll, rfl, hDropped⟩
    · obtain ⟨hDone, hRefunded⟩ := Operation.run_twice hCharge hGive hView hDecision hGiven
      have hNonzero : left ≠ 0 := by
        have hBelow := UInt64.lt_iff_toNat_lt.mp hLess
        rintro rfl
        rw [UInt64.toNat_zero] at hLeft
        omega
      have hRecord : storedAmount left = some (encodeAmount left) := if_neg hNonzero
      rw [Option.getD_some, hRecord] at hRefunded
      exact ⟨hDone, .inl ⟨hLess, left, hLeft, hRefunded⟩⟩
    · obtain ⟨hDone, hRefunded⟩ := Operation.run_twice hCharge hGive hView hDecision hDropped
      exact ⟨hDone, .inr ⟨hAll, hRefunded⟩⟩

/-- The greatest balance is taken and given back. A charge of all of it is not refunded, one
that leaves a single unit is. -/
theorem greatest_balance_restored :
    let greatest : UInt64 := 18446744073709551615
    let target : AmountTarget := .balance default default
    let store : Store := (∅ : Store).put target.key (some (encodeAmount greatest))
    let taken : View := ((target.operation (.sub greatest)).run (View.ofStore store)).2
    let refunded (fee : UInt64) : Store :=
      ((Operation.balanceAdd default default 5 false).run
        ((Operation.balanceSub default default fee).run (View.ofStore store)).2).2.store
    ((target.operation (.add greatest)).run taken).2.store = store ∧
    refunded greatest = store.put target.key none ∧
    refunded (greatest - 1) = store.put target.key (some (encodeAmount 6)) := by
  intro greatest target store taken refunded
  dsimp only [taken, refunded]
  have hStored : store[target.key]? = storedAmount greatest := Store.getElem?_put_self _ _ _
  have hSub {operation : Operation} {less : UInt64} (hLess : less ≤ greatest)
      (hMoves : operation.movement? = some (target, .sub less)) :
      (operation.run (View.ofStore store)).1 = .ok .done :=
    (Operation.run_of_decision hMoves ⟨rfl, hStored⟩
      (Movement.decision_sub.trans (if_pos hLess))).1
  obtain ⟨-, hRestores, hRefunds⟩ := additions_and_subtractions_cancel store target greatest hStored
  refine ⟨?_, ?_, ?_⟩
  · exact (hRestores greatest (hSub (by decide) (target.movement?_sub greatest))).2
  · obtain ⟨-, ⟨hLess, -⟩ | ⟨-, hDropped⟩⟩ :=
      hRefunds default default rfl greatest 5 (by decide) (hSub (by decide) rfl)
    · exact absurd hLess (by decide)
    · exact hDropped
  · obtain ⟨-, ⟨-, left, hLeft, hRefunded⟩ | ⟨hAll, -⟩⟩ :=
      hRefunds default default rfl (greatest - 1) 5 (by decide) (hSub (by decide) rfl)
    · have hSix : left = 6 := UInt64.toNat_inj.mp (hLeft.trans (by decide))
      rw [hSix] at hRefunded
      exact hRefunded
    · exact absurd hAll (by decide)

end DeviceLedger
