import DeviceLedger.Proofs.KeySpace
import DeviceLedger.Proofs.Operations

/-! What a store can hold. Every value that is ever stored lies at the key of an entity
and has the canonical form of its kind, whichever calls failed on the way. -/

namespace DeviceLedger

open Fallible

/-- Every stored value lies at the key of some entity, in canonical form. -/
def Store.Canonical (store : Store) : Prop :=
  ∀ key value, store[key]? = some value →
    ∃ entity : Entity, entity.key = key ∧ entity.kind.Canonical value

theorem Store.canonical_empty : (∅ : Store).Canonical := by
  intro key value hStored
  simp at hStored

theorem Store.Canonical.put {store : Store} (hStore : store.Canonical) {entity : Entity}
    {written : Option Bytes}
    (hWritten : ∀ value, written = some value → entity.kind.Canonical value) :
    (store.put entity.key written).Canonical := by
  intro key value hStored
  rw [Store.getElem?_put] at hStored
  split at hStored
  · rename_i hKey
    exact ⟨entity, hKey, hWritten value hStored⟩
  · exact hStore key value hStored

/-- An action on the record of an entity that writes canonical values only keeps the store
canonical, also if it fails. -/
theorem Action.Edits.canonical {α : Type} {entity : Entity} {action : Action α}
    (hEdits : Action.Edits entity.key entity.kind.Canonical action) {view : View}
    (hStore : view.store.Canonical) : (action view).2.store.Canonical := by
  rcases hEdits.store_cases view with hSame | ⟨found, written, -, hWritten, hPut⟩
  · rw [hSame]
    exact hStore
  · rw [hPut]
    exact hStore.put hWritten

theorem Genesis.apply_canonical (allocations : List Allocation) {view : View}
    (hStore : view.store.Canonical) :
    (Genesis.apply ⟨allocations⟩ view).2.store.Canonical := by
  induction allocations generalizing view with
  | nil => exact hStore
  | cons allocation allocations ih =>
      have hEdits : Action.Edits (Entity.balance allocation.address Identifier.native).key
          EntityKind.balance.Canonical
          (Balance.set allocation.address Identifier.native allocation.balance) :=
        Operation.edits_write Operation.canonical_balance
      have hSet := hEdits.canonical hStore
      rw [Genesis.apply_cons, bind_apply]
      cases hResult : Balance.set allocation.address Identifier.native allocation.balance view with
      | mk result after =>
          rw [hResult] at hSet
          cases result with
          | ok _ => exact ih hSet
          | error error => exact hSet

/-- A step keeps the store canonical, also if it fails or is interrupted. -/
theorem LedgerStep.run_canonical {step : LedgerStep} (hTexts : step.WritesTexts) {view : View}
    (hStore : view.store.Canonical) : (step.run view).2.store.Canonical := by
  cases step with
  | operate operation =>
      have hEdits := operation.edits.mono fun value hValue => hValue hTexts
      exact hEdits.canonical hStore
  | found genesis =>
      have hApply := Genesis.apply_canonical genesis.allocations hStore
      rw [run, Operation.writing, bind_apply]
      cases hResult : genesis.apply view with
      | mk result after =>
          rw [hResult] at hApply
          cases result <;> exact hApply

/-- The representation invariant of the raw store. Whatever steps are run from the empty
store and whichever of their calls fail, every stored key is classified as a kind other
than those of warp messages and carries its number of chunks; the value is accepted by the
decoder of that kind and encoded to the same bytes again; and no stored balance or loan
is zero. -/
theorem stored_pair_canonical (steps : List LedgerStep) (schedule : Schedule)
    (hTexts : ∀ step ∈ steps, step.WritesTexts) (key value : Bytes)
    (hStored : (runAll (steps.map LedgerStep.run) ⟨∅, schedule, []⟩).2.store[key]? = some value) :
    ∃ kind, EntityKind.ofKey? key = some kind ∧ kind ≠ .incomingWarp ∧ kind ≠ .outgoingWarp ∧
      writtenChunks key = kind.chunks ∧ kind.Canonical value := by
  have hRun : (runAll (steps.map LedgerStep.run) ⟨∅, schedule, []⟩).2.store.Canonical := by
    apply runAll_preserves fun view : View => view.store.Canonical
    · intro action hAction view hView
      obtain ⟨step, hStep, rfl⟩ := List.mem_map.mp hAction
      exact LedgerStep.run_canonical (hTexts step hStep) hView
    · exact Store.canonical_empty
  obtain ⟨entity, rfl, hValue⟩ := hRun key value hStored
  refine ⟨entity.kind, entity.ofKey?_key, ?_, ?_, entity.writtenChunks_key, hValue⟩
  · intro hKind
    rw [hKind] at hValue
    exact hValue
  · intro hKind
    rw [hKind] at hValue
    exact hValue

/-- A counter that is put stays, although the subtraction behind it fails. -/
theorem stored_height_canonical :
    ∃ kind, EntityKind.ofKey? [4] = some kind ∧ kind ≠ .incomingWarp ∧ kind ≠ .outgoingWarp ∧
      writtenChunks [4] = kind.chunks ∧ kind.Canonical [0, 0, 0, 0, 0, 0, 0, 7] :=
  stored_pair_canonical
    [.operate (.counterPut .height 7), .operate (.balanceSub default default 1)]
    Schedule.faultless (by simp [LedgerStep.WritesTexts, Operation.WritesTexts])
    [4] [0, 0, 0, 0, 0, 0, 0, 7] (by decide)

end DeviceLedger
