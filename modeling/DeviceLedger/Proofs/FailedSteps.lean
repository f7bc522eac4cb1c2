import DeviceLedger.Proofs.Operations

/-! Failed steps can be erased from a run. An operation writes last and at most once, so a
failure leaves the store as it was; what succeeded under a schedule of failures does the
same without them. -/

namespace DeviceLedger

open Fallible

/-- The operations whose results are successes. -/
def succeeding (operations : List Operation) (results : List (Except StorageError Outcome)) :
    List Operation :=
  ((operations.zip results).filter fun pair => pair.2.isOk).map Prod.fst

/-- A run without failures of the operations that succeed gives their results and the same
store. By induction on the run: the quiet view follows the store of the faulty one. -/
theorem runAll_succeeding (operations : List Operation) {view quiet : View}
    (hSchedule : quiet.schedule = Schedule.faultless) (hStore : quiet.store = view.store) :
    let (results, after) := runAll (operations.map Operation.run) view
    let (quietResults, quietAfter) :=
      runAll ((succeeding operations results).map Operation.run) quiet
    quietResults = results.filter (fun result => result.isOk) ∧ quietAfter.store = after.store := by
  induction operations generalizing view quiet with
  | nil => exact ⟨rfl, hStore⟩
  | cons operation operations ih =>
      have hEdits := operation.edits
      simp only [List.map_cons, runAll_cons, succeeding, List.zip_cons_cons, List.filter_cons]
      cases hResult : (operation.run view).1 with
      | error error =>
          have hSame := hEdits.store_eq_of_error hResult
          exact ih hSchedule (hStore.trans hSame.symm)
      | ok found =>
          obtain ⟨hFound, hNext⟩ := hEdits.replay hResult hSchedule hStore
          have hQuiet : (operation.run quiet).2.schedule = Schedule.faultless :=
            (hEdits.schedule_eq quiet).trans hSchedule
          obtain ⟨hResults, hLast⟩ := ih hQuiet hNext
          simp only [Except.isOk, Except.toBool, ↓reduceIte, List.map_cons, runAll_cons, hFound]
          exact ⟨congrArg _ hResults, hLast⟩

/-- Failed steps are erasable, whatever the store holds and whichever calls fail. An
operation that fails leaves the store as it was. A call that fails is the operation's last
one and decides its error; `made` lists its calls, the latest first. Hence a run has the
final store, and its successful steps the results, of the run without failures from which
all failed steps are left out. -/
theorem failed_steps_erasable :
    (∀ (operation : Operation) (view : View) (error : StorageError),
      (operation.run view).1 = .error error → (operation.run view).2.store = view.store) ∧
    (∀ (operation : Operation) (view : View),
      ∃ made, (operation.run view).2.calls = made ++ view.calls ∧
        ∀ (later : List Call) (failed : Call) (earlier : List Call) (failure : StateError),
          made = later ++ failed :: earlier → failed.failure = some failure →
            later = [] ∧ (operation.run view).1 = .error (.state failure)) ∧
    (∀ (operations : List Operation) (store : Store) (schedule : Schedule) (calls : List Call),
      let (results, after) := runAll (operations.map Operation.run) ⟨store, schedule, calls⟩
      let (quietResults, quietAfter) :=
        runAll ((succeeding operations results).map Operation.run) (View.ofStore store)
      quietResults = results.filter (fun result => result.isOk) ∧
        quietAfter.store = after.store) := by
  refine ⟨?_, ?_, ?_⟩
  · intro operation view error hError
    exact operation.edits.store_eq_of_error hError
  · intro operation view
    exact operation.edits.stopsAtFailure view
  · intro operations store schedule calls
    exact runAll_succeeding operations rfl rfl

end DeviceLedger
