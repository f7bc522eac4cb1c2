import DeviceLedger.Proofs.Creation
import DeviceLedger.Proofs.Movements

/-! One run under either policy for records that are there already. The two runs are the
same up to the first collision, that is up to the first step that finds something at the key
of a record that it creates. There the policy that rejects stops the step, and the other one
lets it write as if nobody had asked. -/

namespace DeviceLedger

open DeviceLedger.Action Fallible

namespace Creation

variable {creation : Creation} {view : View}

/-- Where nothing is, the policy does not matter. -/
theorem attempt_under (policy : OverwritePolicy)
    (hAbsent : view.store[creation.entity.key]? = none) :
    { creation with policy }.attempt view = creation.attempt view := by
  have hPermitted (policy : OverwritePolicy) : ¬{ creation with policy }.IsRefused view.store := by
    rintro ⟨-, hPresent⟩
    simp [hAbsent] at hPresent
  rw [attempt_apply, attempt_apply, if_neg (hPermitted policy), if_neg (hPermitted creation.policy)]
  rfl

/-- The store after a write alone. -/
def written (creation : Creation) (store : Store) : Store :=
  match creation.value with
  | .ok value => store.insert creation.entity.key value
  | .error _ => store

theorem yields_write (creation : Creation) (store : Store) :
    (Operation.writing creation.write).Yields store (creation.value.map fun _ => .done)
      (creation.written store) := by
  rw [write, written]
  cases creation.value with
  | ok value => exact ((yields_ofResult _ store).bind (yields_insert _ value store)).writing
  | error error => exact ((yields_ofResult _ store).bind_error _).writing

/-- A creation that nothing refuses writes as if nobody had asked. -/
theorem yields_attempt {store : Store} (hPermitted : ¬creation.IsRefused store) :
    (Operation.writing creation.attempt).Yields store (creation.value.map fun _ => .done)
      (creation.written store) := by
  have hPermit := creation.policy.yields_permit creation.entity.key creation.entity.kind.name store
  rw [IsRefused] at hPermitted
  rw [if_neg hPermitted] at hPermit
  rw [attempt, Operation.writing, bind_assoc]
  exact hPermit.bind (creation.yields_write store)

theorem yields_refusal {store : Store} (hRefused : creation.IsRefused store) :
    creation.attempt.Yields store (.error creation.refusal) store := by
  have hPermit := creation.policy.yields_permit creation.entity.key creation.entity.kind.name store
  rw [IsRefused] at hRefused
  rw [if_pos hRefused] at hPermit
  exact hPermit.bind_error _

end Creation

namespace Operation

variable {operation : Operation}

/-- The operation under another policy, if it asks one. -/
def under (policy : OverwritePolicy) : Operation → Operation
  | projectSet _ id record => projectSet policy id record
  | updateSet _ id record => updateSet policy id record
  | assetCreate id record _ => assetCreate id record policy
  | operation => operation

theorem creation?_under (policy : OverwritePolicy) :
    (operation.under policy).creation? =
      operation.creation?.map fun creation => { creation with policy } := by
  cases operation <;> rfl

theorem under_of_no_creation (policy : OverwritePolicy) (hCreates : operation.creation? = none) :
    operation.under policy = operation := by
  cases operation <;> first | rfl | cases hCreates

end Operation

namespace LedgerStep

variable {step : LedgerStep} {creation : Creation} {view : View}

/-- The step under another policy, if it asks one. -/
def under (policy : OverwritePolicy) : LedgerStep → LedgerStep
  | operate operation => operate (operation.under policy)
  | found genesis => found genesis

/-- The record that a step creates, if it asks a policy. -/
def creation? : LedgerStep → Option Creation
  | operate operation => operation.creation?
  | found _ => none

/-- A step that creates a record finds something at its key. -/
def Collides (step : LedgerStep) (store : Store) : Prop :=
  ∃ creation, step.creation? = some creation ∧ store[creation.entity.key]?.isSome

theorem run_under_of_creation (policy : OverwritePolicy)
    (hCreates : step.creation? = some creation) :
    (step.under policy).run = Operation.writing { creation with policy }.attempt := by
  cases step with
  | operate operation =>
      have hOperation : operation.creation? = some creation := hCreates
      apply Operation.run_of_creation
      rw [Operation.creation?_under, hOperation]
      rfl
  | found genesis => cases hCreates

theorem run_of_creation (hCreates : step.creation? = some creation) :
    step.run = Operation.writing creation.attempt := by
  cases step with
  | operate operation => exact Operation.run_of_creation hCreates
  | found genesis => cases hCreates

theorem under_of_no_creation (policy : OverwritePolicy) (hCreates : step.creation? = none) :
    step.under policy = step := by
  cases step with
  | operate operation => exact congrArg operate (Operation.under_of_no_creation policy hCreates)
  | found genesis => rfl

/-- Without a collision, the policy does not matter to a step. -/
theorem run_under_of_not_collides (policy : OverwritePolicy) (hFree : ¬step.Collides view.store) :
    (step.under policy).run view = step.run view := by
  cases hCreates : step.creation? with
  | none => rw [under_of_no_creation policy hCreates]
  | some creation =>
      have hAbsent : view.store[creation.entity.key]? = none := by
        rw [← Option.not_isSome_iff_eq_none]
        exact fun hPresent => hFree ⟨creation, hCreates, hPresent⟩
      rw [run_under_of_creation policy hCreates, run_of_creation hCreates,
        Operation.writing_apply, Operation.writing_apply, Creation.attempt_under policy hAbsent]

section

variable {store : Store} (hCreates : step.creation? = some creation)
include hCreates

/-- At a collision, the policy that rejects stops the step. -/
theorem yields_reject_of_present (hPresent : store[creation.entity.key]?.isSome) :
    (step.under .reject).run.Yields store (.error creation.refusal) store := by
  have hRefused : { creation with policy := .reject }.IsRefused store := ⟨rfl, hPresent⟩
  rw [run_under_of_creation .reject hCreates]
  exact (Creation.yields_refusal hRefused).writing

/-- The policy that allows collisions lets a step write, whatever is there. -/
theorem yields_allow :
    (step.under .allowCollision).run.Yields store (creation.value.map fun _ => .done)
      (creation.written store) := by
  have hPermitted : ¬{ creation with policy := .allowCollision }.IsRefused store := by
    rintro ⟨hPolicy, -⟩
    cases hPolicy
  rw [run_under_of_creation .allowCollision hCreates]
  exact Creation.yields_attempt hPermitted

end

end LedgerStep

/-- A run of steps that all ask the same policy. -/
def runUnder (policy : OverwritePolicy) (steps : List LedgerStep) (view : View) :
    List (Except StorageError Outcome) × View :=
  runAll (steps.map fun step => (step.under policy).run) view

/-- No step of a run finds something at the key of a record that it creates. -/
def CollisionFree : List LedgerStep → View → Prop
  | [], _ => True
  | step :: steps, view =>
    ¬step.Collides view.store ∧ CollisionFree steps ((step.under .reject).run view).2

theorem runUnder_append (policy : OverwritePolicy) (first second : List LedgerStep) (view : View) :
    runUnder policy (first ++ second) view =
      ((runUnder policy first view).1 ++ (runUnder policy second (runUnder policy first view).2).1,
        (runUnder policy second (runUnder policy first view).2).2) := by
  rw [runUnder, List.map_append, runAll_append]
  rfl

/-- A run without collisions is the same under both policies, also where calls fail. -/
theorem runUnder_of_collisionFree {steps : List LedgerStep} {view : View}
    (hFree : CollisionFree steps view) :
    runUnder .reject steps view = runUnder .allowCollision steps view := by
  induction steps generalizing view with
  | nil => rfl
  | cons step steps ih =>
      obtain ⟨hStep, hRest⟩ := hFree
      have hSame : (step.under .reject).run view = (step.under .allowCollision).run view := by
        rw [LedgerStep.run_under_of_not_collides _ hStep,
          LedgerStep.run_under_of_not_collides _ hStep]
      have hRuns := ih hRest
      rw [runUnder, runUnder] at hRuns ⊢
      rw [List.map_cons, List.map_cons, runAll_cons, runAll_cons, hRuns, hSame]

/-- A run that has a collision has a first one. -/
theorem exists_first_collision {steps : List LedgerStep} {view : View}
    (hCollides : ¬CollisionFree steps view) :
    ∃ earlier step later, steps = earlier ++ step :: later ∧ CollisionFree earlier view ∧
      step.Collides (runUnder .reject earlier view).2.store := by
  induction steps generalizing view with
  | nil => exact absurd trivial hCollides
  | cons step steps ih =>
      by_cases hStep : step.Collides view.store
      · exact ⟨[], step, steps, rfl, trivial, hStep⟩
      · have hRest : ¬CollisionFree steps ((step.under .reject).run view).2 :=
          fun hRest => hCollides ⟨hStep, hRest⟩
        obtain ⟨earlier, collided, later, rfl, hFree, hLater⟩ := ih hRest
        exact ⟨step :: earlier, collided, later, rfl, ⟨hStep, hFree⟩, hLater⟩

theorem runUnder_schedule (policy : OverwritePolicy) (steps : List LedgerStep) {view : View}
    (hSchedule : view.schedule = Schedule.faultless) :
    (runUnder policy steps view).2.schedule = Schedule.faultless := by
  refine runAll_preserves (fun view : View => view.schedule = Schedule.faultless) ?_ hSchedule
  intro computation hMem before hBefore
  obtain ⟨step, -, rfl⟩ := List.mem_map.mp hMem
  exact LedgerStep.run_schedule hBefore

/-- One more step, which comes to something known in the store that the run has left. -/
theorem runUnder_concat (policy : OverwritePolicy) (steps : List LedgerStep) {step : LedgerStep}
    {view : View} (hSchedule : view.schedule = Schedule.faultless)
    {result : Except StorageError Outcome} {after : Store}
    (hStep : (step.under policy).run.Yields (runUnder policy steps view).2.store result after) :
    (runUnder policy (steps ++ [step]) view).1 = (runUnder policy steps view).1 ++ [result] ∧
      (runUnder policy (steps ++ [step]) view).2.store = after := by
  obtain ⟨hResult, -, hAfter⟩ := hStep _ (runUnder_schedule policy steps hSchedule) rfl
  rw [runUnder_append]
  exact ⟨congrArg (fun last => (runUnder policy steps view).1 ++ [last]) hResult, hAfter⟩

/-- A run in which nothing is refused has no collision. -/
theorem collisionFree_of_not_refused {steps : List LedgerStep} {view : View}
    (hSchedule : view.schedule = Schedule.faultless)
    (hRefused : ∀ entity key,
      .error (.alreadyExists entity key) ∉ (runUnder .reject steps view).1) :
    CollisionFree steps view := by
  by_contra hCollides
  obtain ⟨earlier, step, later, rfl, -, creation, hCreates, hPresent⟩ :=
    exists_first_collision hCollides
  have hStep := LedgerStep.yields_reject_of_present hCreates hPresent
  have hResults := (runUnder_concat .reject earlier hSchedule hStep).1
  apply hRefused creation.entity.kind.name creation.entity.key
  rw [List.append_cons, runUnder_append, hResults]
  simp [Creation.refusal]

/-- The policies differ on collisions only. Take any run without failures, from any store.
As long as no step finds something at the key of a record that it creates, the runs under
both policies are the same. A next step that does is refused under the policy that rejects,
which leaves its store as it is. Under the other policy it writes as if nobody had asked, and
fails if the record has no bytes; for an asset this is what writing it without asking comes
to. So a run in which nothing is refused is the same under both policies. -/
theorem policies_differ_on_collisions (store : Store) (steps : List LedgerStep) :
    let start := View.ofStore store
    (CollisionFree steps start →
      let (results, now) := runUnder .reject steps start
      runUnder .allowCollision steps start = (results, now) ∧
      ∀ (step : LedgerStep) (creation : Creation), step.creation? = some creation →
        now.store[creation.entity.key]?.isSome →
        let (rejected, kept) := runUnder .reject (steps ++ [step]) start
        let (allowed, replaced) := runUnder .allowCollision (steps ++ [step]) start
        rejected = results ++
          [.error (.alreadyExists creation.entity.kind.name creation.entity.key)] ∧
        kept.store = now.store ∧
        allowed = results ++ [creation.value.map fun _ => .done] ∧
        replaced.store = creation.written now.store ∧
        ∀ id record policy, step = .operate (.assetCreate id record policy) →
          let (unasked, after) :=
            runUnder .allowCollision (steps ++ [.operate (.assetSet id record)]) start
          allowed = unasked ∧ replaced.store = after.store) ∧
    ((∀ entity key, .error (.alreadyExists entity key) ∉ (runUnder .reject steps start).1) →
      runUnder .reject steps start = runUnder .allowCollision steps start) := by
  intro start
  have hQuiet : start.schedule = Schedule.faultless := rfl
  refine ⟨fun hFree => ⟨(runUnder_of_collisionFree hFree).symm, ?_⟩, fun hRefused => ?_⟩
  · intro step creation hCreates hPresent
    have hReject := LedgerStep.yields_reject_of_present hCreates hPresent
    obtain ⟨hRejected, hKept⟩ := runUnder_concat .reject steps hQuiet hReject
    obtain ⟨hAllowed, hReplaced⟩ := runUnder_concat .allowCollision steps hQuiet
      (LedgerStep.yields_allow hCreates)
    rw [← runUnder_of_collisionFree hFree] at hAllowed hReplaced
    refine ⟨hRejected, hKept, hAllowed, hReplaced, ?_⟩
    rintro id record policy rfl
    cases hCreates
    -- writing an asset without asking is the write alone of its creation
    have hWrite (now : Store) : ((LedgerStep.operate (.assetSet id record)).under
        .allowCollision).run.Yields now (record.encode.map fun _ => .done) _ :=
      Creation.yields_write ⟨policy, .asset id, record.encode⟩ now
    obtain ⟨hSet, hAfter⟩ := runUnder_concat .allowCollision steps hQuiet (hWrite _)
    rw [← runUnder_of_collisionFree hFree] at hSet hAfter
    exact ⟨hAllowed.trans hSet.symm, hReplaced.trans hAfter.symm⟩
  · exact runUnder_of_collisionFree (collisionFree_of_not_refused hQuiet hRefused)

/-- An asset that is created twice is kept as it was first or replaced. Each of the two
creations alone is the same under both policies. -/
theorem asset_collision :
    let start := View.ofStore ∅
    let first : LedgerStep :=
      .operate (.assetCreate default ⟨[80], 0, [], 5, default, false⟩ .reject)
    let second : LedgerStep :=
      .operate (.assetCreate default ⟨[81], 0, [], 6, default, true⟩ .reject)
    (runUnder .reject [first, second] start).1 =
      [.ok .done, .error (.alreadyExists "asset" (Asset.key default))] ∧
    (runUnder .reject [first, second] start).2.store = (runUnder .reject [first] start).2.store ∧
    (runUnder .allowCollision [first, second] start).1 = [.ok .done, .ok .done] ∧
    runUnder .reject [second] start = runUnder .allowCollision [second] start := by
  intro start first second
  have hFree : CollisionFree [first] start := by
    refine ⟨?_, trivial⟩
    rintro ⟨creation, -, hPresent⟩
    simp [start, View.ofStore] at hPresent
  obtain ⟨hRejected, hKept, hAllowed, -⟩ := ((policies_differ_on_collisions ∅ [first]).1 hFree).2
    second ⟨.reject, .asset default, _⟩ rfl (by rfl)
  have hSecond := (policies_differ_on_collisions ∅ [second]).2 (by
    rintro entity key hRefused
    cases List.mem_singleton.mp hRefused)
  exact ⟨hRejected, hKept, hAllowed, hSecond⟩

end DeviceLedger
