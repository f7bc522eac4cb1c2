import DeviceLedger.Proofs.Effects
import DeviceLedger.Proofs.KeySpace
import DeviceLedger.Proofs.Operations

/-! Accesses to different records commute. Without failures an access is a function of what
lies at its own key; so what happens to one record in a run is the run of its own accesses
on its own value, and an order that keeps these in order changes nothing. -/

namespace DeviceLedger

open DeviceLedger.Action Fallible

/-- Without failures an action does to any store what is done here to the value at one key:
the result and the new value there depend on the old value there, and nothing else
changes. -/
def Action.ActsAt {α : Type} (key : Bytes) (action : Action α)
    (act : Fallible StorageError (Option Bytes) α) : Prop :=
  ∀ store : Store, action.Yields store (act store[key]?).1 (store.put key (act store[key]?).2)

/-- An action on one record acts on the value at its key. -/
theorem Action.Edits.exists_actsAt {α : Type} {key : Bytes} {Writable : Bytes → Prop}
    {action : Action α} (hEdits : Edits key Writable action) : ∃ act, ActsAt key action act := by
  induction hEdits with
  | result result =>
      refine ⟨fun value => (result, value), fun store => ?_⟩
      rw [store.put_getElem? key]
      exact yields_ofResult result store
  | get next hNext ih =>
      choose act hAct using ih
      exact ⟨fun value => act value value, fun store =>
        (yields_get key store).bind (hAct store[key]? store)⟩
  | insert value found hValue =>
      exact ⟨fun _ => (.ok found, some value), fun store =>
        (yields_insert key value store).bind (yields_pure found _)⟩
  | remove found =>
      exact ⟨fun _ => (.ok found, none), fun store =>
        (yields_remove key store).bind (yields_pure found _)⟩

/-- The entity whose record a question is about, unless it is about several. -/
def Lookup.target? : Lookup → Option Entity
  | balance address held => some (.balance address held)
  | balances _ => none
  | loan lent destination => some (.loan lent destination)
  | asset id => some (.asset id)
  | order id => some (.order id)
  | project id => some (.project id)
  | update id => some (.update id)
  | hashMatches id _ => some (.update id)
  | counter which => some which.entity

/-- The answer to a question about one record depends on the reply to its key. -/
theorem Lookup.run_congr {lookup : Lookup} {entity : Entity}
    (hTarget : lookup.target? = some entity) {reader other : Reader}
    (hOne : reader.one entity.key = other.one entity.key) :
    lookup.run reader = lookup.run other := by
  cases lookup with
  | balances accounts => cases hTarget
  | balance address held =>
      cases hTarget
      simp only [run, Balance.read, Reader.decoded, Balance.key, hOne]
  | loan lent destination =>
      cases hTarget
      simp only [run, Loan.read, Loan.key, hOne]
  | asset id =>
      cases hTarget
      simp only [run, Asset.read, Reader.decoded, Asset.key, hOne]
  | order id =>
      cases hTarget
      simp only [run, Order.read, Reader.decoded, Order.key, hOne]
  | project id =>
      cases hTarget
      simp only [run, Project.read, Reader.decoded, Project.key, hOne]
  | update id =>
      cases hTarget
      simp only [run, Update.read, Reader.decoded, Update.key, hOne]
  | hashMatches id candidate =>
      cases hTarget
      simp only [run, Update.hashMatches, Update.read, Reader.decoded, Update.key, hOne]
  | counter which =>
      cases hTarget
      simp only [run, Counter.read, Reader.decoded, Counter.key, hOne]

/-- The answer of a truthful reader depends on the record that is asked for. -/
theorem Lookup.run_ofStore_congr {lookup : Lookup} {entity : Entity}
    (hTarget : lookup.target? = some entity) {store other : Store}
    (hSame : store[entity.key]? = other[entity.key]?) :
    lookup.run (Reader.ofStore store) = lookup.run (Reader.ofStore other) :=
  run_congr hTarget (congrArg Except.ok hSame)

/-- An access to the record of one entity: an operation, or a question to a truthful reader
of the store. -/
inductive Access where
  | operate (operation : Operation)
  | look (lookup : Lookup) (entity : Entity) (hTarget : lookup.target? = some entity)

namespace Access

/-- The entity whose record is read or written. -/
def target : Access → Entity
  | operate operation => operation.target
  | look _ entity _ => entity

def run : Access → Action Outcome
  | operate operation => operation.run
  | look lookup _ _ => fun view => (lookup.run (Reader.ofStore view.store), view)

/-- The access on a store that holds nothing but the record it is about. -/
def onRecord (access : Access) : Fallible StorageError (Option Bytes) Outcome := fun value =>
  let (result, after) := access.run (View.ofStore ((∅ : Store).put access.target.key value))
  (result, after.store[access.target.key]?)

/-- An access acts on its own record alone. -/
theorem actsAt (access : Access) : ActsAt access.target.key access.run access.onRecord := by
  have hExists : ∃ act, ActsAt access.target.key access.run act := by
    cases access with
    | operate operation => exact operation.edits.exists_actsAt
    | look lookup entity hTarget =>
        refine ⟨fun value => (lookup.run (Reader.ofStore ((∅ : Store).put entity.key value)),
          value), fun store view hSchedule hStore => ⟨?_, hSchedule, ?_⟩⟩
        · refine Lookup.run_ofStore_congr hTarget ?_
          rw [hStore, Store.getElem?_put_self]
          rfl
        · exact hStore.trans (store.put_getElem? entity.key).symm
  obtain ⟨act, hAct⟩ := hExists
  have hOnRecord : access.onRecord = act := by
    funext value
    obtain ⟨hResult, -, hStore⟩ :=
      hAct ((∅ : Store).put access.target.key value) (View.ofStore _) rfl rfl
    rw [Store.getElem?_put_self] at hResult hStore
    have hValue := congrArg (fun store : Store => store[access.target.key]?) hStore
    simp only [Store.getElem?_put_self] at hValue
    exact Prod.ext hResult hValue
  rw [hOnRecord]
  exact hAct

section

variable (access : Access) {view : View} (hSchedule : view.schedule = Schedule.faultless)
include hSchedule

theorem run_result : (access.run view).1 = (access.onRecord view.store[access.target.key]?).1 :=
  (access.actsAt view.store view hSchedule rfl).1

theorem run_schedule : (access.run view).2.schedule = Schedule.faultless :=
  (access.actsAt view.store view hSchedule rfl).2.1

theorem run_store : (access.run view).2.store =
    view.store.put access.target.key (access.onRecord view.store[access.target.key]?).2 :=
  (access.actsAt view.store view hSchedule rfl).2.2

theorem run_getElem?_of_ne {key : Bytes} (hKey : access.target.key ≠ key) :
    (access.run view).2.store[key]? = view.store[key]? := by
  rw [access.run_store hSchedule, Store.getElem?_put_of_ne _ _ hKey]

/-- An access to another record does not change what an access comes to. -/
theorem run_result_after {other : Access} (hTarget : other.target ≠ access.target) :
    (access.run (other.run view).2).1 = (access.run view).1 := by
  have hKey : other.target.key ≠ access.target.key := fun hKey =>
    hTarget (Entity.key_injective hKey)
  rw [access.run_result (other.run_schedule hSchedule), access.run_result hSchedule,
    other.run_getElem?_of_ne hSchedule hKey]

end

/-- The accesses to the record of one entity, in their order. -/
def ofEntity (accesses : List Access) (entity : Entity) : List Access :=
  accesses.filter fun access => access.target = entity

/-- The results of the accesses to the record of one entity, in their order. -/
def resultsOf (accesses : List Access) (results : List (Except StorageError Outcome))
    (entity : Entity) : List (Access × Except StorageError Outcome) :=
  (accesses.zip results).filter fun pair => pair.1.target = entity

/-- What happens to one record in a run is the run of its own accesses on its own value. By
induction on the run: an access to another record leaves the value as it is. -/
theorem runAll_onRecord (accesses : List Access) (entity : Entity) {view : View}
    (hSchedule : view.schedule = Schedule.faultless) :
    let (results, after) := runAll (accesses.map run) view
    let (ownResults, value) :=
      runAll ((ofEntity accesses entity).map onRecord) view.store[entity.key]?
    resultsOf accesses results entity = (ofEntity accesses entity).zip ownResults ∧
      after.store[entity.key]? = value := by
  induction accesses generalizing view with
  | nil => exact ⟨rfl, rfl⟩
  | cons access accesses ih =>
      have hNext := ih (access.run_schedule hSchedule)
      by_cases hTarget : access.target = entity
      -- both runs make this access, and on the same value
      · have hValue : (access.run view).2.store[entity.key]? =
            (access.onRecord view.store[entity.key]?).2 := by
          rw [access.run_store hSchedule, ← hTarget, Store.getElem?_put_self]
        have hResult : (access.run view).1 = (access.onRecord view.store[entity.key]?).1 := by
          rw [access.run_result hSchedule, hTarget]
        rw [hValue] at hNext
        obtain ⟨hResults, hAfter⟩ := hNext
        simp only [ofEntity, resultsOf, List.map_cons, runAll_cons, List.zip_cons_cons,
          List.filter_cons, hTarget, decide_true, ↓reduceIte, hResult]
        exact ⟨congrArg _ hResults, hAfter⟩
      -- only the run on the store makes this one
      · have hKey : access.target.key ≠ entity.key := fun hKey =>
          hTarget (Entity.key_injective hKey)
        rw [access.run_getElem?_of_ne hSchedule hKey] at hNext
        simpa only [ofEntity, resultsOf, List.map_cons, runAll_cons, List.zip_cons_cons,
          List.filter_cons, hTarget, decide_false, Bool.false_eq_true, ↓reduceIte] using hNext

/-- A key that belongs to no entity keeps its value. -/
theorem runAll_foreign (accesses : List Access) {key : Bytes}
    (hKey : ∀ entity : Entity, entity.key ≠ key) {view : View}
    (hSchedule : view.schedule = Schedule.faultless) :
    (runAll (accesses.map run) view).2.store[key]? = view.store[key]? := by
  have hRun : (runAll (accesses.map run) view).2.schedule = Schedule.faultless ∧
      (runAll (accesses.map run) view).2.store[key]? = view.store[key]? := by
    apply runAll_preserves fun after : View =>
      after.schedule = Schedule.faultless ∧ after.store[key]? = view.store[key]?
    · rintro action hAction after ⟨hAfter, hSame⟩
      obtain ⟨access, -, rfl⟩ := List.mem_map.mp hAction
      exact ⟨access.run_schedule hAfter, (access.run_getElem?_of_ne hAfter (hKey _)).trans hSame⟩
    · exact ⟨hSchedule, rfl⟩
  exact hRun.2

/-- Two runs from one store in which every record sees the same accesses in the same order
end in the same store, and every access comes to the same result. -/
theorem runAll_reordered {accesses reordered : List Access}
    (hOrder : ∀ entity, ofEntity reordered entity = ofEntity accesses entity) (store : Store) :
    (runAll (reordered.map run) (View.ofStore store)).2.store =
        (runAll (accesses.map run) (View.ofStore store)).2.store ∧
      ∀ entity, resultsOf reordered (runAll (reordered.map run) (View.ofStore store)).1 entity =
        resultsOf accesses (runAll (accesses.map run) (View.ofStore store)).1 entity := by
  have hQuiet : (View.ofStore store).schedule = Schedule.faultless := rfl
  have hRecord : ∀ entity : Entity,
      resultsOf reordered (runAll (reordered.map run) (View.ofStore store)).1 entity =
        resultsOf accesses (runAll (accesses.map run) (View.ofStore store)).1 entity ∧
      (runAll (reordered.map run) (View.ofStore store)).2.store[entity.key]? =
        (runAll (accesses.map run) (View.ofStore store)).2.store[entity.key]? := by
    intro entity
    obtain ⟨hResults, hValue⟩ := runAll_onRecord accesses entity hQuiet
    obtain ⟨hResults', hValue'⟩ := runAll_onRecord reordered entity hQuiet
    rw [hOrder] at hResults' hValue'
    exact ⟨hResults'.trans hResults.symm, hValue'.trans hValue.symm⟩
  refine ⟨?_, fun entity => (hRecord entity).1⟩
  apply Std.ExtTreeMap.ext_getElem?
  intro key
  by_cases hKey : ∃ entity : Entity, entity.key = key
  · obtain ⟨entity, rfl⟩ := hKey
    exact (hRecord entity).2
  · have hForeign : ∀ entity : Entity, entity.key ≠ key := fun entity hEntity =>
      hKey ⟨entity, hEntity⟩
    rw [runAll_foreign accesses hForeign hQuiet, runAll_foreign reordered hForeign hQuiet]

/-- Only the order of the two accesses is left to be seen. -/
theorem ofEntity_swap {first second : Access} (hTarget : first.target ≠ second.target)
    (entity : Entity) : ofEntity [second, first] entity = ofEntity [first, second] entity := by
  by_cases hFirst : first.target = entity
  · have hSecond : second.target ≠ entity := fun hSecond => hTarget (hFirst.trans hSecond.symm)
    simp [ofEntity, hFirst, hSecond]
  · by_cases hSecond : second.target = entity <;> simp [ofEntity, hFirst, hSecond]

end Access

open Access

/-- Accesses to different records commute, whatever the store holds: reads and writes, with
or without a policy, of any entity. In either order two of them leave the same store and
come to the same results. Hence any reordering of a run that keeps the accesses to each
record in their order ends in the same store, and each access comes to the same result as
before; it is found again by its record and its place among the accesses to that record. -/
theorem different_records_commute :
    (∀ (first second : Access) (store : Store), first.target ≠ second.target →
      ∃ result result' after after',
        runAll [first.run, second.run] (View.ofStore store) = ([result, result'], after) ∧
        runAll [second.run, first.run] (View.ofStore store) = ([result', result], after') ∧
        after'.store = after.store) ∧
    (∀ (accesses reordered : List Access) (store : Store),
      (∀ entity, (reordered.filter fun access => access.target = entity) =
        accesses.filter fun access => access.target = entity) →
      let (results, after) := runAll (accesses.map Access.run) (View.ofStore store)
      let (results', after') := runAll (reordered.map Access.run) (View.ofStore store)
      after'.store = after.store ∧
        ∀ entity, ((reordered.zip results').filter fun pair => pair.1.target = entity) =
          (accesses.zip results).filter fun pair => pair.1.target = entity) := by
  refine ⟨?_, ?_⟩
  · intro first second store hTarget
    have hQuiet : (View.ofStore store).schedule = Schedule.faultless := rfl
    have hFirst := first.run_result_after hQuiet hTarget.symm
    have hSecond := second.run_result_after hQuiet hTarget
    refine ⟨(first.run (View.ofStore store)).1, (second.run (View.ofStore store)).1, _, _, ?_, ?_,
      (runAll_reordered (ofEntity_swap hTarget) store).1⟩
    · rw [← hSecond]
      rfl
    · rw [← hFirst]
      rfl
  · intro accesses reordered store hOrder
    exact runAll_reordered hOrder store

end DeviceLedger
