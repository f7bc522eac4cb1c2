import DeviceLedger.Proofs.KeySpace
import DeviceLedger.Proofs.Operations
import DeviceLedger.Proofs.Readings
import Mathlib.Data.Set.Basic

/-! Refunds never bring an account back. What is added without creating is lost on an account
that has no record, and no other operation writes a balance record where none is, setting and
creating apart. So the accounts with a record only become fewer in a run without these. -/

namespace DeviceLedger

open DeviceLedger.Action Fallible

namespace Action

variable {α : Type} {key : Bytes}

/-- An action that leaves a key without a value if it finds none there, also if it fails. -/
def KeepsAbsent (key : Bytes) (action : Action α) : Prop :=
  ∀ view : View, view.store[key]? = none → (action view).2.store[key]? = none

/-- An action on the record at a key that can write no value there. -/
theorem Edits.keepsAbsent {action : Action α} (hEdits : Edits key (fun _ => False) action) :
    KeepsAbsent key action := by
  intro view hAbsent
  rcases hEdits.store_cases view with hSame | ⟨found, written, -, hWritten, hPut⟩
  · rw [hSame, hAbsent]
  · rw [hPut, Store.getElem?_put_self]
    cases written with
    | none => rfl
    | some value => exact absurd rfl (hWritten value)

/-- After a read that finds nothing, only what comes then matters. -/
theorem keepsAbsent_get_bind {next : Option Bytes → Action α}
    (hNone : KeepsAbsent key (next none)) : KeepsAbsent key (Action.get key >>= next) := by
  intro view hAbsent
  rw [get_bind_apply]
  cases view.nextFailure .get with
  | some failure => exact hAbsent
  | none =>
      rw [hAbsent]
      exact hNone (view.record .get key) hAbsent

theorem KeepsAbsent.writing {action : Action Unit} (hKeeps : KeepsAbsent key action) :
    KeepsAbsent key (Operation.writing action) := by
  intro view hAbsent
  rw [Operation.writing_apply]
  exact hKeeps view hAbsent

end Action

namespace Balance

variable (address : Address) (held : Identifier)

/-- What is added without creating does nothing where no record is, but read the key. -/
theorem add_of_absent (more : UInt64) {view : View}
    (hAbsent : view.store[key address held]? = none) :
    add address held more false view =
      (Reply.unlessFailed (view.get (key address held)).1 (.ok ()),
        view.record .get (key address held)) := by
  rw [add, get, getDecoded, bind_assoc, get_bind_apply, View.get]
  cases view.nextFailure .get with
  | some failure => rfl
  | none =>
      rw [hAbsent]
      rfl

theorem keepsAbsent_add (more : UInt64) :
    KeepsAbsent (key address held) (add address held more false) := by
  intro view hAbsent
  rw [add_of_absent address held more hAbsent]
  exact hAbsent

/-- From nothing only nothing can be taken, which removes the record again. -/
theorem keepsAbsent_sub (less : UInt64) :
    KeepsAbsent (key address held) (sub address held less) := by
  rw [sub, get, getDecoded, bind_assoc]
  apply keepsAbsent_get_bind
  change KeepsAbsent _ (if less ≤ 0 then write (key address held) (0 - less) else throw _)
  split
  · rename_i hLess
    have hZero : 0 - less = 0 := by
      rw [UInt64.le_zero_iff.mp hLess]
      rfl
    rw [hZero]
    exact Edits.of_remove.keepsAbsent
  · exact (Edits.throw _).keepsAbsent

end Balance

/-- A step that may give a record to an account that has none: it sets a balance, or adds to
one that it may create, or gives out first balances. -/
def LedgerStep.MayOpenAccount : LedgerStep → Prop
  | operate (.balanceSet _ _ _) => True
  | operate (.balanceAdd _ _ _ create) => create = true
  | operate _ => False
  | found _ => True

/-- The accounts that have a balance record. -/
def Store.accounts (store : Store) : Set (Address × Identifier) :=
  {account | store[Balance.key account.1 account.2]? ≠ none}

/-- Without such a step an account that has no record has none afterwards. -/
theorem LedgerStep.keepsAbsent {step : LedgerStep} (hStep : ¬step.MayOpenAccount)
    (address : Address) (held : Identifier) :
    KeepsAbsent (Balance.key address held) step.run := by
  cases step with
  | found genesis => exact absurd trivial hStep
  | operate operation =>
      by_cases hTarget : operation.target = .balance address held
      · cases operation with
        | balanceGet _ _ =>
            cases hTarget
            exact ((Reads.getDecoded Balance.decode).map _).edits.keepsAbsent
        | balanceAmount _ _ =>
            cases hTarget
            exact (((Reads.getDecoded Balance.decode).map _).map _).edits.keepsAbsent
        | balanceSet _ _ balance => exact absurd trivial hStep
        | balanceDelete _ _ =>
            cases hTarget
            exact Edits.of_remove.keepsAbsent.writing
        | balanceAdd _ _ amount create =>
            cases hTarget
            cases create with
            | false => exact (Balance.keepsAbsent_add address held amount).writing
            | true => exact absurd rfl hStep
        | balanceSub _ _ amount =>
            cases hTarget
            exact (Balance.keepsAbsent_sub address held amount).writing
        | counterGet counter => cases counter <;> cases hTarget
        | counterPut counter number => cases counter <;> cases hTarget
        | _ => cases hTarget
      · intro view hAbsent
        have hKey : operation.target.key ≠ Balance.key address held := fun hKey =>
          hTarget (Entity.key_injective hKey)
        exact (operation.edits.getElem?_of_ne hKey view).trans hAbsent

/-- An account that has no record has none after a run without such steps. -/
theorem runAll_keepsAbsent {steps : List LedgerStep} (hSteps : ∀ step ∈ steps, ¬step.MayOpenAccount)
    (address : Address) (held : Identifier) {view : View}
    (hAbsent : view.store[Balance.key address held]? = none) :
    (runAll (steps.map LedgerStep.run) view).2.store[Balance.key address held]? = none := by
  apply runAll_preserves fun view : View => view.store[Balance.key address held]? = none
  · intro computation hMem before hBefore
    obtain ⟨step, hStep, rfl⟩ := List.mem_map.mp hMem
    exact LedgerStep.keepsAbsent (hSteps step hStep) address held before hBefore
  · exact hAbsent

/-- The operation that refunds does as little. -/
theorem Operation.run_refund_of_absent {address : Address} {held : Identifier} (amount : UInt64)
    {view : View} (hAbsent : view.store[Balance.key address held]? = none) :
    (balanceAdd address held amount false).run view =
      (Reply.unlessFailed (view.get (Balance.key address held)).1 (.ok .done),
        view.record .get (Balance.key address held)) := by
  rw [run, writing_apply, Balance.add_of_absent address held amount hAbsent]
  cases (view.get (Balance.key address held)).1 <;> rfl

/-- Refunds never bring an account back. Take any store, any schedule of failures and any run
up to some point. If no later step sets a balance, adds to one that it may create or gives out
first balances, the accounts with a record only become fewer after that point. To an account
that had none there, anything may be added without creating: it leaves the store as it is, and
succeeds unless its read of the store fails. -/
theorem refunds_never_resurrect (start : View) (earlier later : List LedgerStep)
    (hLater : ∀ step ∈ later, ¬step.MayOpenAccount) :
    let before := (runAll (earlier.map LedgerStep.run) start).2
    let now := (runAll ((earlier ++ later).map LedgerStep.run) start).2
    now.store.accounts ⊆ before.store.accounts ∧
    ∀ (address : Address) (held : Identifier), (address, held) ∉ before.store.accounts →
      ∀ amount : UInt64,
        let refund := Operation.run (.balanceAdd address held amount false)
        (refund now).2.store = now.store ∧
        (refund now).1 = Reply.unlessFailed (now.get (Balance.key address held)).1 (.ok .done) := by
  intro before now
  have hNow : now = (runAll (later.map LedgerStep.run) before).2 := by
    simp only [now, before, List.map_append, runAll_append]
  refine ⟨?_, ?_⟩
  · rintro ⟨address, held⟩ hAccount hBefore
    apply hAccount
    rw [hNow]
    exact runAll_keepsAbsent hLater address held hBefore
  · intro address held hAccount amount refund
    have hAbsent : now.store[Balance.key address held]? = none := by
      rw [hNow]
      exact runAll_keepsAbsent hLater address held (not_not.mp hAccount)
    have hRefund := Operation.run_refund_of_absent amount hAbsent
    exact ⟨congrArg (fun pair => pair.2.store) hRefund, congrArg Prod.fst hRefund⟩

/-- An account that was spent stays closed, although a loan of the same asset is made, a call
fails and the greatest amount is refunded. -/
theorem spent_account_stays_closed :
    let schedule : Schedule := fun kind number =>
      if kind = .insert ∧ number = 1 then some .poisoned else none
    let now := (runAll (List.map LedgerStep.run
      [.found ⟨[⟨default, 7⟩]⟩, .operate (.balanceSub default Identifier.native 7),
        .operate (.loanAdd Identifier.native Identifier.native 5),
        .operate (.loanAdd Identifier.native Identifier.native 5),
        .operate (.balanceAdd default Identifier.native 3 false)]) ⟨∅, schedule, []⟩).2
    (default, Identifier.native) ∉ now.store.accounts ∧
    (Operation.run (.balanceAdd default Identifier.native 18446744073709551615 false) now).1 =
      .ok .done := by
  intro schedule now
  have hLater : ∀ step ∈ [LedgerStep.operate (.loanAdd Identifier.native Identifier.native 5),
      .operate (.loanAdd Identifier.native Identifier.native 5),
      .operate (.balanceAdd default Identifier.native 3 false)], ¬step.MayOpenAccount := by
    simp [LedgerStep.MayOpenAccount]
  obtain ⟨hFewer, hRefunds⟩ := refunds_never_resurrect ⟨∅, schedule, []⟩
    [.found ⟨[⟨default, 7⟩]⟩, .operate (.balanceSub default Identifier.native 7)] _ hLater
  have hSpent : (default, Identifier.native) ∉
      (runAll (List.map LedgerStep.run [.found ⟨[⟨default, 7⟩]⟩,
        .operate (.balanceSub default Identifier.native 7)]) ⟨∅, schedule, []⟩).2.store.accounts :=
    not_not.mpr (by rfl)
  obtain ⟨-, hRefund⟩ := hRefunds default Identifier.native hSpent 18446744073709551615
  exact ⟨fun hAccount => hSpent (hFewer hAccount), hRefund⟩

end DeviceLedger
