import DeviceLedger.Proofs.Creation
import DeviceLedger.Proofs.KeySpace
import DeviceLedger.Proofs.Readings

/-! A record that is created under the policy that rejects is written once. The first
creation that succeeds decides what is read ever after, whatever else is written under the
same identifier and whichever calls fail; an asset may still be replaced. -/

namespace DeviceLedger

open DeviceLedger.Action Fallible

namespace Operation

variable {operation : Operation} {entity : Entity}

theorem Replaces.exists_writing (hReplaces : operation.Replaces entity) :
    ∃ action, operation.run = writing action := by
  cases operation with
  | assetSet id record => exact ⟨_, rfl⟩
  | assetDelete id => exact ⟨_, rfl⟩
  | _ => cases hReplaces

theorem Changes.exists_writing (hChanges : operation.Changes entity) :
    ∃ action, operation.run = writing action := by
  rcases hChanges with ⟨creation, hCreates, -⟩ | hReplaces
  · exact ⟨_, run_of_creation hCreates⟩
  · exact hReplaces.exists_writing

/-- Projects and updates cannot be replaced. -/
theorem eq_asset_of_replaces (hReplaces : operation.Replaces entity) :
    ∃ id, entity = .asset id := by
  cases operation with
  | assetSet id record => exact ⟨id, hReplaces⟩
  | assetDelete id => exact ⟨id, hReplaces⟩
  | _ => cases hReplaces

/-- Only a creation can change a project. -/
theorem Changes.exists_projectSet {id : Identifier} (hChanges : operation.Changes (.project id)) :
    ∃ policy record, operation = .projectSet policy id record := by
  rcases hChanges with ⟨creation, hCreates, hEntity⟩ | hReplaces
  · cases operation <;> cases hCreates <;> cases hEntity
    exact ⟨_, _, rfl⟩
  · cases operation <;> cases hReplaces

/-- Only a creation can change an update. -/
theorem Changes.exists_updateSet {id : Identifier} (hChanges : operation.Changes (.update id)) :
    ∃ policy record, operation = .updateSet policy id record := by
  rcases hChanges with ⟨creation, hCreates, hEntity⟩ | hReplaces
  · cases operation <;> cases hCreates <;> cases hEntity
    exact ⟨_, _, rfl⟩
  · cases operation <;> cases hReplaces

/-- A record that is created under a policy stays as it is, unless an operation that can
change it succeeds. -/
theorem getElem?_of_not_changes (hKind : entity.kind.IsCreated) {view : View}
    (hChanges : operation.Changes entity → (operation.run view).1 ≠ .ok .done) :
    (operation.run view).2.store[entity.key]? = view.store[entity.key]? := by
  by_cases hTarget : operation.target = entity
  · rcases reads_or_changes hKind hTarget with hReads | hMayChange
    · rw [hReads.store_eq]
    · obtain ⟨action, hRun⟩ := Changes.exists_writing hMayChange
      have hFails := hChanges hMayChange
      rw [hRun, writing_apply] at hFails
      cases hResult : (action view).1 with
      | ok found => exact absurd (by rw [hResult]; rfl) hFails
      | error error =>
          have hError : (operation.run view).1 = .error error := by
            rw [hRun, writing_apply, hResult]
            rfl
          rw [operation.edits.store_eq_of_error hError]
  · exact operation.edits.getElem?_of_ne (fun hKey => hTarget (Entity.key_injective hKey)) view

end Operation

/-- First balances touch balances only, also if a call fails half-way. -/
theorem Genesis.apply_getElem?_of_kind_ne {entity : Entity} (hKind : entity.kind ≠ .balance)
    (allocations : List Allocation) (view : View) :
    (Genesis.apply ⟨allocations⟩ view).2.store[entity.key]? = view.store[entity.key]? := by
  induction allocations generalizing view with
  | nil => rfl
  | cons allocation allocations ih =>
      have hEdits : Edits (Balance.key allocation.address Identifier.native) (fun _ => True)
          (Balance.set allocation.address Identifier.native allocation.balance) :=
        Operation.edits_write fun _ => trivial
      have hKey : Balance.key allocation.address Identifier.native ≠ entity.key := by
        intro hKey
        rw [← Entity.key_injective hKey] at hKind
        exact hKind rfl
      have hSet := hEdits.getElem?_of_ne hKey view
      rw [Genesis.apply_cons, bind_apply]
      cases hResult : Balance.set allocation.address Identifier.native allocation.balance view with
      | mk result after =>
          rw [hResult] at hSet
          cases result with
          | ok _ => exact (ih after).trans hSet
          | error error => exact hSet

namespace LedgerStep

/-- Whatever a step creates of a kind, it creates under the policy that rejects. -/
def Rejects (kind : EntityKind) : LedgerStep → Prop
  | operate operation => ∀ creation, operation.creation? = some creation →
      creation.entity.kind = kind → creation.policy = .reject
  | found _ => True

variable {step : LedgerStep} {entity : Entity}

theorem getElem?_of_not_changes (hKind : entity.kind.IsCreated) {view : View}
    (hChanges : ∀ operation, step = .operate operation → operation.Changes entity →
      (step.run view).1 ≠ .ok .done) :
    (step.run view).2.store[entity.key]? = view.store[entity.key]? := by
  cases step with
  | operate operation =>
      exact Operation.getElem?_of_not_changes hKind (hChanges operation rfl)
  | found genesis =>
      have hBalance : entity.kind ≠ .balance := by
        rcases hKind with hKind | hKind | hKind <;> rw [hKind] <;> decide
      rw [run, Operation.writing_apply]
      exact Genesis.apply_getElem?_of_kind_ne hBalance genesis.allocations view

end LedgerStep

/-- A creation that the policy forbids is refused, unless reading the key fails. Either way
it changes nothing. -/
theorem Creation.attempt_of_refused {creation : Creation} {view : View}
    (hRefused : creation.IsRefused view.store) :
    (creation.attempt view).1 =
        Reply.unlessFailed (view.get creation.entity.key).1 (.error creation.refusal) ∧
      (creation.attempt view).2.store = view.store := by
  rw [attempt_apply, View.get]
  cases view.nextFailure .get with
  | some failure => exact ⟨rfl, rfl⟩
  | none =>
      simp only [if_pos hRefused]
      exact ⟨rfl, rfl⟩

theorem Creation.exists_error_of_refused {creation : Creation} {view : View}
    (hRefused : creation.IsRefused view.store) :
    ∃ cause, (creation.attempt view).1 = .error cause := by
  rw [(attempt_of_refused hRefused).1]
  cases (view.get creation.entity.key).1 with
  | ok found => exact ⟨_, rfl⟩
  | error failure => exact ⟨_, rfl⟩

section

variable {entity : Entity} (hKind : entity.kind.IsCreated) (steps : List LedgerStep) {view : View}
include hKind

/-- A record stays as it is in a run in which no operation that can change it succeeds. -/
theorem runAll_getElem?_of_not_changes
    (hPast : ∀ operation : Operation, operation.Changes entity → (.operate operation, .ok .done) ∉
      steps.zip (runAll (steps.map LedgerStep.run) view).1) :
    (runAll (steps.map LedgerStep.run) view).2.store[entity.key]? = view.store[entity.key]? := by
  induction steps generalizing view with
  | nil => rfl
  | cons step steps ih =>
      simp only [List.map_cons, runAll_cons, List.zip_cons_cons, List.mem_cons, not_or] at hPast ⊢
      rw [ih fun operation hChanges => (hPast operation hChanges).2]
      apply LedgerStep.getElem?_of_not_changes hKind
      rintro operation rfl hChanges hOk
      exact (hPast operation hChanges).1 (by rw [hOk])

/-- A record that is there stays as it is in a run in which whatever is created of its kind
is created under the policy that rejects, and in which it is not replaced. -/
theorem runAll_getElem?_of_present (hRejects : ∀ step ∈ steps, step.Rejects entity.kind)
    {value : Bytes} (hStored : view.store[entity.key]? = some value)
    (hPast : ∀ operation : Operation, operation.Replaces entity → (.operate operation, .ok .done) ∉
      steps.zip (runAll (steps.map LedgerStep.run) view).1) :
    (runAll (steps.map LedgerStep.run) view).2.store[entity.key]? = some value := by
  induction steps generalizing view with
  | nil => exact hStored
  | cons step steps ih =>
      obtain ⟨hFirst, hRest⟩ := List.forall_mem_cons.mp hRejects
      simp only [List.map_cons, runAll_cons, List.zip_cons_cons, List.mem_cons, not_or] at hPast ⊢
      have hStep : (step.run view).2.store[entity.key]? = view.store[entity.key]? := by
        apply LedgerStep.getElem?_of_not_changes hKind
        rintro operation rfl (⟨creation, hCreates, rfl⟩ | hReplaces) hOk
        -- another creation is refused, since something is there
        · have hRefused : creation.IsRefused view.store :=
            ⟨hFirst creation hCreates rfl, by rw [hStored]; rfl⟩
          obtain ⟨cause, hCause⟩ := Creation.exists_error_of_refused hRefused
          rw [LedgerStep.run, Operation.run_of_creation hCreates, Operation.writing_apply,
            hCause] at hOk
          cases hOk
        · exact (hPast operation hReplaces).1 (by rw [hOk])
      exact ih hRest (hStep.trans hStored) fun operation hReplaces =>
        (hPast operation hReplaces).2

/-- Nothing lies at the key of a record that nothing has changed since the store was empty. -/
theorem runAll_empty_getElem? (schedule : Schedule)
    (hPast : ∀ operation : Operation, operation.Changes entity → (.operate operation, .ok .done) ∉
      steps.zip (runAll (steps.map LedgerStep.run) ⟨∅, schedule, []⟩).1) :
    (runAll (steps.map LedgerStep.run) ⟨∅, schedule, []⟩).2.store[entity.key]? = none := by
  rw [runAll_getElem?_of_not_changes hKind steps hPast]
  exact Std.ExtTreeMap.getElem?_empty

/-- What a creation has written is there as long as it is not replaced. -/
theorem stored_after_creation (hRejects : ∀ step ∈ steps, step.Rejects entity.kind)
    {operation : Operation} {creation : Creation}
    (hCreates : operation.creation? = some creation) (hEntity : creation.entity = entity)
    {earlier later : List (LedgerStep × Except StorageError Outcome)}
    (hPast : steps.zip (runAll (steps.map LedgerStep.run) view).1 =
      earlier ++ (.operate operation, .ok .done) :: later)
    (hLater : ∀ other : Operation, other.Replaces entity → (.operate other, .ok .done) ∉ later) :
    ∃ value, creation.value = .ok value ∧
      (runAll (steps.map LedgerStep.run) view).2.store[entity.key]? = some value := by
  obtain ⟨before, following, hOk, hMem, rfl, hLast⟩ := runAll_split hPast
  subst hEntity
  obtain ⟨value, hValue, hStored⟩ := Operation.stored_of_creation_ok hCreates hOk
  refine ⟨value, hValue, ?_⟩
  rw [hLast]
  exact runAll_getElem?_of_present hKind following
    (fun other hOther => hRejects other (hMem other hOther)) hStored hLater

/-- What a creation has written is there as long as no operation that can change it succeeds. -/
theorem stored_while_not_changed {operation : Operation} {policy : OverwritePolicy}
    {value : Bytes} (hCreates : operation.creation? = some ⟨policy, entity, .ok value⟩)
    {earlier later : List (LedgerStep × Except StorageError Outcome)}
    (hPast : steps.zip (runAll (steps.map LedgerStep.run) view).1 =
      earlier ++ (.operate operation, .ok .done) :: later)
    (hLater : ∀ other : Operation, other.Changes entity → (.operate other, .ok .done) ∉ later) :
    (runAll (steps.map LedgerStep.run) view).2.store[entity.key]? = some value := by
  obtain ⟨before, following, hOk, -, rfl, hLast⟩ := runAll_split hPast
  obtain ⟨written, hWritten, hStored⟩ := Operation.stored_of_creation_ok hCreates hOk
  cases hWritten
  rw [hLast, runAll_getElem?_of_not_changes hKind following hLater]
  exact hStored

end

section

variable {steps : List LedgerStep} {view : View} {policy : OverwritePolicy} {id : Identifier}
  {earlier later : List (LedgerStep × Except StorageError Outcome)}

/-- The bytes of a project stay until another is published under its identifier. -/
theorem stored_until_next_project {record : ProjectRecord}
    (hPast : steps.zip (runAll (steps.map LedgerStep.run) view).1 =
      earlier ++ (.operate (.projectSet policy id record), .ok .done) :: later)
    (hLater : ∀ policy other, (.operate (.projectSet policy id other), .ok .done) ∉ later) :
    (runAll (steps.map LedgerStep.run) view).2.store[Project.key id]? = some record.encode := by
  apply stored_while_not_changed (.inl rfl) steps rfl hPast
  intro operation hChanges
  obtain ⟨_, _, rfl⟩ := hChanges.exists_projectSet
  exact hLater _ _

/-- The bytes of an update stay until another is published under its identifier. -/
theorem stored_until_next_update {record : UpdateRecord}
    (hPast : steps.zip (runAll (steps.map LedgerStep.run) view).1 =
      earlier ++ (.operate (.updateSet policy id record), .ok .done) :: later)
    (hLater : ∀ policy other, (.operate (.updateSet policy id other), .ok .done) ∉ later) :
    (runAll (steps.map LedgerStep.run) view).2.store[Update.key id]? = some record.encode := by
  apply stored_while_not_changed (.inr (.inl rfl)) steps rfl hPast
  intro operation hChanges
  obtain ⟨_, _, rfl⟩ := hChanges.exists_updateSet
  exact hLater _ _

end

/-- Whatever reads the record of an entity comes to the same outcome, unless its call of the
store fails: the operation that reads through the view, and the lookup that asks a reader. -/
def View.ReadsAs (now : View) (entity : Entity) (reading : Operation) (lookup : Lookup)
    (outcome : Outcome) : Prop :=
  (reading.run now).1 = Reply.unlessFailed (now.get entity.key).1 (.ok outcome) ∧
    ∀ reader : Reader, reader.Honest now.store →
      lookup.run reader = (reader.one entity.key).unlessFailed (.ok outcome)

/-- An operation is refused with an error, unless its read of the key fails, and changes
nothing. -/
def View.Refuses (now : View) (entity : Entity) (operation : Operation) (error : StorageError) :
    Prop :=
  (operation.run now).1 = Reply.unlessFailed (now.get entity.key).1 (.error error) ∧
    (operation.run now).2.store = now.store

namespace View.ReadsAs

variable {now : View} {entity : Entity} {reading : Operation} {lookup : Lookup}
  {outcome : Outcome} (hReads : now.ReadsAs entity reading lookup outcome)
include hReads

/-- A reader of the store finds the outcome. -/
theorem run_ofStore : lookup.run (Reader.ofStore now.store) = .ok outcome :=
  hReads.2 _ (Reader.honest_ofStore now.store)

/-- A reader of the store whose replies are distorted finds the outcome or fails. -/
theorem run_distort (distortion : Reader.Distortion) :
    let found := lookup.run ((Reader.ofStore now.store).distort distortion)
    found = .ok outcome ∨ ∃ failure, found = .error (.state failure) := by
  intro found
  have hFound := hReads.2 _ (Reader.honest_distort now.store distortion)
  cases hReply : ((Reader.ofStore now.store).distort distortion).one entity.key with
  | ok value =>
      left
      rw [hReply] at hFound
      exact hFound
  | error failure =>
      right
      rw [hReply] at hFound
      exact ⟨failure, hFound⟩

end View.ReadsAs

section

variable {now : View} {entity : Entity}

/-- A record is read as what its value is decoded to. -/
theorem View.readsAs_of_decoded {α : Type} {decode : Bytes → Except StorageError α}
    {present : Option α → Outcome} {reading : Operation} {lookup : Lookup}
    (hReading : reading.run = present <$> getDecoded decode entity.key)
    (hLookup : ∀ reader, lookup.run reader = (reader.decoded decode entity.key).map present)
    {found : Option α} (hFound : Reply.decoded decode (.ok now.store[entity.key]?) = .ok found) :
    now.ReadsAs entity reading lookup (present found) := by
  refine ⟨?_, fun reader hHonest => ?_⟩
  · have hResult : (reading.run now).1 = ((getDecoded decode entity.key now).1).map present := by
      rw [hReading, map_eq_pure_bind, bind_apply]
      cases getDecoded decode entity.key now with
      | mk result after => cases result <;> rfl
    rw [hResult, getDecoded_result]
    refine Reply.map_decoded_eq (fun value hReply => ?_) present
    rw [View.get_honest hReply, hFound]
  · rw [hLookup, Reader.decoded]
    refine Reply.map_decoded_eq (fun value hReply => ?_) present
    rw [hHonest _ _ hReply, hFound]

section

variable {α : Type} {decode : Bytes → Except StorageError α} {present : Option α → Outcome}
  {reading : Operation} {lookup : Lookup}
  (hReading : reading.run = present <$> getDecoded decode entity.key)
  (hLookup : ∀ reader, lookup.run reader = (reader.decoded decode entity.key).map present)
include hReading hLookup

theorem View.readsAs_of_missing (hMissing : now.store[entity.key]? = none) :
    now.ReadsAs entity reading lookup (present none) :=
  readsAs_of_decoded hReading hLookup (by rw [hMissing]; rfl)

theorem View.readsAs_of_stored {value : Bytes} (hStored : now.store[entity.key]? = some value)
    {record : α} (hDecode : decode value = .ok record) :
    now.ReadsAs entity reading lookup (present (some record)) :=
  readsAs_of_decoded hReading hLookup (by rw [hStored, Reply.decoded, hDecode]; rfl)

end

/-- A creation under the policy that rejects is refused where something is. -/
theorem View.refuses_of_stored {operation : Operation} {creation : Creation}
    (hCreates : operation.creation? = some creation) (hEntity : creation.entity = entity)
    (hPolicy : creation.policy = .reject) {value : Bytes}
    (hStored : now.store[entity.key]? = some value) :
    now.Refuses entity operation (.alreadyExists entity.kind.name entity.key) := by
  subst hEntity
  have hRefused : creation.IsRefused now.store := ⟨hPolicy, by rw [hStored]; rfl⟩
  obtain ⟨hResult, hStore⟩ := Creation.attempt_of_refused hRefused
  rw [View.Refuses, Operation.run_of_creation hCreates, Operation.writing_apply, hResult]
  refine ⟨?_, hStore⟩
  cases (now.get creation.entity.key).1 <;> rfl

end

section

variable {ρ : Type} {entity : Entity} (create : OverwritePolicy → ρ → Operation)
  {encode : ρ → Bytes} {decode : Bytes → Except StorageError ρ} {Fills : ρ → Prop}
  {present : Option ρ → Outcome} {reading : Operation} {lookup : Lookup}

/-- The records of a registry that only creations change are written once under the policy
that rejects. -/
theorem registry_written_once (hKind : entity.kind.IsCreated)
    (hCreates : ∀ policy record,
      (create policy record).creation? = some ⟨policy, entity, .ok (encode record)⟩)
    (hOnly : ∀ operation : Operation, operation.Changes entity →
      ∃ policy record, operation = create policy record)
    (hNotAsset : entity.kind ≠ .asset)
    (hReadBack : ∀ record, Fills record → decode (encode record) = .ok record)
    (hReading : reading.run = present <$> getDecoded decode entity.key)
    (hLookup : ∀ reader, lookup.run reader = (reader.decoded decode entity.key).map present)
    (steps : List LedgerStep) (schedule : Schedule)
    (hRejects : ∀ step ∈ steps, step.Rejects entity.kind) :
    let (results, now) := runAll (steps.map LedgerStep.run) ⟨∅, schedule, []⟩
    let past := steps.zip results
    ((∀ record, (.operate (create .reject record), .ok .done) ∉ past) →
      now.ReadsAs entity reading lookup (present none)) ∧
    ∀ record, (.operate (create .reject record), .ok .done) ∈ past →
      (Fills record → now.ReadsAs entity reading lookup (present (some record))) ∧
      ∀ other, now.Refuses entity (create .reject other)
        (.alreadyExists entity.kind.name entity.key) := by
  refine ⟨fun hNone => ?_, fun record hMem => ?_⟩
  · refine View.readsAs_of_missing hReading hLookup (runAll_empty_getElem? hKind _ _ ?_)
    intro operation hChanges hOk
    obtain ⟨policy, record, rfl⟩ := hOnly operation hChanges
    obtain rfl : policy = .reject :=
      hRejects _ (List.of_mem_zip hOk).1 _ (hCreates policy record) rfl
    exact hNone record hOk
  · obtain ⟨earlier, later, hPast⟩ := List.append_of_mem hMem
    have hNotReplaced : ∀ other : Operation, other.Replaces entity →
        (.operate other, .ok .done) ∉ later := by
      intro other hReplaces
      obtain ⟨id, rfl⟩ := Operation.eq_asset_of_replaces hReplaces
      exact absurd rfl hNotAsset
    obtain ⟨value, hValue, hStored⟩ := stored_after_creation hKind steps hRejects
      (hCreates .reject record) rfl hPast hNotReplaced
    cases hValue
    exact ⟨fun hFills => View.readsAs_of_stored hReading hLookup hStored (hReadBack record hFills),
      fun other => View.refuses_of_stored (hCreates .reject other) rfl rfl hStored⟩

end

/-- Assets that are only created under the policy that rejects are written once, until they
are written or removed without asking the policy. -/
theorem asset_written_once (steps : List LedgerStep) (schedule : Schedule)
    (hRejects : ∀ step ∈ steps, step.Rejects .asset) (id : Identifier) (record : AssetRecord)
    (earlier later : List (LedgerStep × Except StorageError Outcome)) :
    let (results, now) := runAll (steps.map LedgerStep.run) ⟨∅, schedule, []⟩
    let past := steps.zip results
    past = earlier ++ (.operate (.assetCreate id record .reject), .ok .done) :: later →
    (∀ other, (.operate (.assetSet id other), .ok .done) ∉ later) →
    (.operate (.assetDelete id), .ok .done) ∉ later →
      now.ReadsAs (.asset id) (.assetGet id) (.asset id) (.asset (some record)) ∧
      ∀ other, now.Refuses (.asset id) (.assetCreate id other .reject)
        (.alreadyExists "asset" (Asset.key id)) := by
  intro hPast hSets hDeletes
  have hNotReplaced : ∀ other : Operation, other.Replaces (.asset id) →
      (.operate other, .ok .done) ∉ later := by
    intro other hReplaces
    cases other with
    | assetSet _ written =>
        cases hReplaces
        exact hSets written
    | assetDelete _ =>
        cases hReplaces
        exact hDeletes
    | _ => cases hReplaces
  have hKind : (Entity.asset id).kind.IsCreated := .inr (.inr rfl)
  obtain ⟨value, hValue, hStored⟩ := stored_after_creation hKind steps hRejects rfl rfl hPast
    hNotReplaced
  exact ⟨View.readsAs_of_stored rfl (fun _ => rfl) hStored (AssetRecord.decode_of_encode hValue),
    fun other => View.refuses_of_stored rfl rfl rfl hStored⟩

/-- Projects, updates and assets are written once if what creates them rejects. Take any run
from the empty store, whichever calls fail in it, with any other records in between. As long
as no project was created under an identifier, reads find none. Once one was, reads find it
if its fields have the widths of their slots, and another is refused and changes nothing.
The same holds for updates. An asset that was created is found, and another is refused,
until it is written or removed without asking the policy. Only a failing call keeps a read
from its record, or a creation from its refusal. Since every beginning of a run is a run,
this holds at every later point. -/
theorem written_once (steps : List LedgerStep) (schedule : Schedule) :
    let (results, now) := runAll (steps.map LedgerStep.run) ⟨∅, schedule, []⟩
    let past := steps.zip results
    ((∀ step ∈ steps, step.Rejects .project) → ∀ id : Identifier,
      ((∀ record, (.operate (.projectSet .reject id record), .ok .done) ∉ past) →
        now.ReadsAs (.project id) (.projectGet id) (.project id) (.project none)) ∧
      ∀ record, (.operate (.projectSet .reject id record), .ok .done) ∈ past →
        (record.FillsSlots →
          now.ReadsAs (.project id) (.projectGet id) (.project id) (.project (some record))) ∧
        ∀ other, now.Refuses (.project id) (.projectSet .reject id other)
          (.alreadyExists "project" (Project.key id))) ∧
    ((∀ step ∈ steps, step.Rejects .update) → ∀ id : Identifier,
      ((∀ record, (.operate (.updateSet .reject id record), .ok .done) ∉ past) →
        now.ReadsAs (.update id) (.updateGet id) (.update id) (.update none)) ∧
      ∀ record, (.operate (.updateSet .reject id record), .ok .done) ∈ past →
        (record.FillsSlots →
          now.ReadsAs (.update id) (.updateGet id) (.update id) (.update (some record))) ∧
        ∀ other, now.Refuses (.update id) (.updateSet .reject id other)
          (.alreadyExists "update" (Update.key id))) ∧
    ((∀ step ∈ steps, step.Rejects .asset) →
      ∀ (id : Identifier) (record : AssetRecord)
        (earlier later : List (LedgerStep × Except StorageError Outcome)),
      past = earlier ++ (.operate (.assetCreate id record .reject), .ok .done) :: later →
      (∀ other, (.operate (.assetSet id other), .ok .done) ∉ later) →
      (.operate (.assetDelete id), .ok .done) ∉ later →
        now.ReadsAs (.asset id) (.assetGet id) (.asset id) (.asset (some record)) ∧
        ∀ other, now.Refuses (.asset id) (.assetCreate id other .reject)
          (.alreadyExists "asset" (Asset.key id))) := by
  refine ⟨fun hRejects id => ?_, fun hRejects id => ?_, fun hRejects => ?_⟩
  · exact registry_written_once (Operation.projectSet · id) (.inl rfl) (fun _ _ => rfl)
      (fun _ => Operation.Changes.exists_projectSet) nofun
      (fun _ => ProjectRecord.decode_encode) rfl (fun _ => rfl) steps schedule hRejects
  · exact registry_written_once (Operation.updateSet · id) (.inr (.inl rfl)) (fun _ _ => rfl)
      (fun _ => Operation.Changes.exists_updateSet) nofun
      (fun _ => UpdateRecord.decode_encode) rfl (fun _ => rfl) steps schedule hRejects
  · exact asset_written_once steps schedule hRejects

/-- Where the store fails the first creation of a project, the second one decides. A reader of the
store finds it, and a distorted one finds the asset or fails. -/
theorem created_after_failure :
    let project := ProjectRecord.ofTexts [80] [] [] []
    let asset : AssetRecord := ⟨[80], 0, [], 5, default, false⟩
    let steps : List LedgerStep := [.operate (.projectSet .reject default (.ofTexts [81] [] [] [])),
      .operate (.projectSet .reject default project),
      .operate (.projectSet .reject default (.ofTexts [82] [] [] [])),
      .operate (.assetCreate default asset .reject)]
    let schedule : Schedule := fun kind number =>
      if kind = .insert ∧ number = 0 then some .poisoned else none
    let now := (runAll (steps.map LedgerStep.run) ⟨∅, schedule, []⟩).2
    now.ReadsAs (.project default) (.projectGet default) (.project default)
      (.project (some project)) ∧
    now.ReadsAs (.update default) (.updateGet default) (.update default) (.update none) ∧
    now.ReadsAs (.asset default) (.assetGet default) (.asset default) (.asset (some asset)) ∧
    now.Refuses (.asset default) (.assetCreate default asset .reject)
      (.alreadyExists "asset" (Asset.key default)) ∧
    (Lookup.project default).run (Reader.ofStore now.store) = .ok (.project (some project)) ∧
    ∀ distortion : Reader.Distortion,
      let found := (Lookup.asset default).run ((Reader.ofStore now.store).distort distortion)
      found = .ok (.asset (some asset)) ∨ ∃ failure, found = .error (.state failure) := by
  intro project asset steps schedule now
  have hRejects (kind : EntityKind) : ∀ step ∈ steps, step.Rejects kind := by
    simp [steps, LedgerStep.Rejects, Operation.creation?]
  -- the run is short enough to be evaluated where the parts are taken
  obtain ⟨hProjects, hUpdates, hAssets⟩ := written_once steps schedule
  obtain ⟨-, hProject⟩ := hProjects (hRejects _) default
  obtain ⟨hUpdate, -⟩ := hUpdates (hRejects _) default
  obtain ⟨hAsset, hRefuses⟩ := hAssets (hRejects _) default asset
    ((steps.take 3).zip [.error (.state .poisoned), .ok .done,
      .error (.alreadyExists "project" (Project.key default))]) [] rfl (by simp) (by simp)
  have hFound := (hProject project (by simp [steps])).1 (ProjectRecord.ofTexts_fillsSlots _ _ _ _)
  have hMissing := hUpdate (by simp [steps])
  exact ⟨hFound, hMissing, hAsset, hRefuses asset, hFound.run_ofStore, hAsset.run_distort⟩

end DeviceLedger
