import DeviceLedger.Proofs.Operations

/-! Records that are created under a policy: those of projects, updates and assets. A creation
reads its key first, under either policy, and writes unless the policy forbids to write over
what is there. Any call may fail. -/

namespace DeviceLedger

open DeviceLedger.Action Fallible

/-- A record to be created at the key of an entity, under a policy, in its bytes or with the
reason why it has none. -/
structure Creation where
  policy : OverwritePolicy
  entity : Entity
  value : Except StorageError Bytes

namespace Creation

variable (creation : Creation)

/-- The write alone, whatever is there. -/
def write : Action Unit := do
  let value ← Action.ofResult creation.value
  Action.insert creation.entity.key value

/-- The write if the policy permits it. -/
def attempt : Action Unit := do
  creation.policy.permit creation.entity.key creation.entity.kind.name
  creation.write

/-- The error of a creation that the policy forbids. -/
def refusal : StorageError := .alreadyExists creation.entity.kind.name creation.entity.key

/-- The policy forbids to write over what a store holds. -/
def IsRefused (store : Store) : Prop :=
  creation.policy = .reject ∧ store[creation.entity.key]?.isSome

instance (store : Store) : Decidable (creation.IsRefused store) :=
  inferInstanceAs (Decidable (_ ∧ _))

/-- The key is read first. If that succeeds and the policy does not forbid the write, all
else is the write alone. -/
theorem attempt_apply (view : View) :
    creation.attempt view = match view.nextFailure .get with
      | some failure => (.error (.state failure), view.record .get creation.entity.key)
      | none =>
        if creation.IsRefused view.store then
          (.error creation.refusal, view.record .get creation.entity.key)
        else creation.write (view.record .get creation.entity.key) := by
  rw [attempt, OverwritePolicy.permit, bind_assoc, get_bind_apply]
  cases view.nextFailure .get with
  | some failure => rfl
  | none =>
      cases hStored : view.store[creation.entity.key]? with
      | none =>
          rw [if_neg (by simp [IsRefused, hStored])]
          rfl
      | some value =>
          cases hPolicy : creation.policy with
          | allowCollision =>
              rw [if_neg (by simp [IsRefused, hPolicy])]
              rfl
          | reject =>
              rw [if_pos ⟨hPolicy, by simp [hStored]⟩]
              rfl

/-- A write that succeeds had bytes to write, and they lie at the key afterwards. -/
theorem stored_of_write_ok {view : View} {found : Unit}
    (hOk : (creation.write view).1 = .ok found) :
    ∃ value, creation.value = .ok value ∧
      (creation.write view).2.store[creation.entity.key]? = some value := by
  rw [write] at hOk ⊢
  cases hValue : creation.value with
  | error error =>
      rw [hValue] at hOk
      cases hOk
  | ok value =>
      rw [hValue, ofResult_ok_bind] at hOk
      rw [ofResult_ok_bind]
      refine ⟨value, rfl, ?_⟩
      simp only [Action.insert, ofCall, View.insert] at hOk ⊢
      cases hFailure : view.nextFailure .insert with
      | some failure =>
          rw [hFailure] at hOk
          cases hOk
      | none => simp

/-- A creation that succeeds leaves its bytes at its key. -/
theorem stored_of_attempt_ok {view : View} {found : Unit}
    (hOk : (creation.attempt view).1 = .ok found) :
    ∃ value, creation.value = .ok value ∧
      (creation.attempt view).2.store[creation.entity.key]? = some value := by
  rw [attempt_apply] at hOk ⊢
  cases hFailure : view.nextFailure .get with
  | some failure =>
      rw [hFailure] at hOk
      cases hOk
  | none =>
      rw [hFailure] at hOk
      by_cases hRefused : creation.IsRefused view.store
      · simp only [if_pos hRefused] at hOk
        cases hOk
      · simp only [if_neg hRefused] at hOk ⊢
        exact creation.stored_of_write_ok hOk

end Creation

namespace Operation

/-- The record that an operation creates, if it asks a policy. -/
def creation? : Operation → Option Creation
  | projectSet policy id record => some ⟨policy, .project id, .ok record.encode⟩
  | updateSet policy id record => some ⟨policy, .update id, .ok record.encode⟩
  | assetCreate id record policy => some ⟨policy, .asset id, record.encode⟩
  | _ => none

/-- An operation that writes or removes the record of an entity whatever is there, although
such records are created under a policy. Only assets have such operations. -/
def Replaces (entity : Entity) : Operation → Prop
  | assetSet id _ => entity = .asset id
  | assetDelete id => entity = .asset id
  | _ => False

/-- An operation that can change a record that is created under a policy. -/
def Changes (operation : Operation) (entity : Entity) : Prop :=
  (∃ creation, operation.creation? = some creation ∧ creation.entity = entity) ∨
    operation.Replaces entity

variable {operation : Operation} {creation : Creation}

theorem run_of_creation (hCreates : operation.creation? = some creation) :
    operation.run = writing creation.attempt := by
  cases operation with
  | projectSet policy id record =>
      cases hCreates
      rfl
  | updateSet policy id record =>
      cases hCreates
      rfl
  | assetCreate id record policy =>
      cases hCreates
      rfl
  | _ => cases hCreates

/-- What an operation has created lies at the key of its entity. -/
theorem stored_of_creation_ok (hCreates : operation.creation? = some creation) {view : View}
    {found : Outcome} (hOk : (operation.run view).1 = .ok found) :
    ∃ value, creation.value = .ok value ∧
      (operation.run view).2.store[creation.entity.key]? = some value := by
  rw [run_of_creation hCreates, writing_apply] at hOk ⊢
  cases hResult : (creation.attempt view).1 with
  | error error =>
      rw [hResult] at hOk
      cases hOk
  | ok found => exact creation.stored_of_attempt_ok hResult

end Operation

/-- The kinds of the records that are created under a policy. -/
def EntityKind.IsCreated (kind : EntityKind) : Prop :=
  kind = .project ∨ kind = .update ∨ kind = .asset

/-- An operation on a record that is created under a policy reads it, creates it or replaces
it. -/
theorem Operation.reads_or_changes {operation : Operation} {entity : Entity}
    (hKind : entity.kind.IsCreated) (hTarget : operation.target = entity) :
    Reads entity.key operation.run ∨ operation.Changes entity := by
  subst hTarget
  cases operation with
  | projectGet id => exact .inl ((Reads.getDecoded ProjectRecord.decode).map _)
  | updateGet id => exact .inl ((Reads.getDecoded UpdateRecord.decode).map _)
  | assetGet id => exact .inl ((Reads.getDecoded AssetRecord.decode).map _)
  | projectSet policy id record => exact .inr (.inl ⟨_, rfl, rfl⟩)
  | updateSet policy id record => exact .inr (.inl ⟨_, rfl, rfl⟩)
  | assetCreate id record policy => exact .inr (.inl ⟨_, rfl, rfl⟩)
  | assetSet id record => exact .inr (.inr rfl)
  | assetDelete id => exact .inr (.inr rfl)
  | counterGet counter => cases counter <;> rcases hKind with hKind | hKind | hKind <;> cases hKind
  | counterPut counter number =>
      cases counter <;> rcases hKind with hKind | hKind | hKind <;> cases hKind
  -- the records of all other kinds are written without asking a policy
  | _ => rcases hKind with hKind | hKind | hKind <;> cases hKind

end DeviceLedger
