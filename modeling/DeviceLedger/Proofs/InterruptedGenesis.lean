import DeviceLedger.Proofs.FirstBalances

/-! First balances while calls fail. Every allocation takes one call, so the first call that fails
leaves exactly the allocations before it given out. Since the last allocation for an account
decides, giving out all of them afterwards makes good for the interruption. -/

namespace DeviceLedger

namespace Allocation

/-- The sort of call that gives an allocation: a balance of zero is removed. -/
def callKind (allocation : Allocation) : CallKind :=
  if allocation.balance = 0 then .remove else .insert

/-- The call that gives an allocation, when it succeeds. -/
def call (allocation : Allocation) : Call := ⟨allocation.callKind, allocation.key, none⟩

end Allocation

namespace View

variable (view : View)

/-- The failure that the call for an allocation meets when those before it have been given. -/
def failureAfter (given : List Allocation) (allocation : Allocation) : Option StateError :=
  view.schedule allocation.callKind (view.count allocation.callKind +
    given.countP fun other => other.callKind == allocation.callKind)

/-- No call for one of these allocations fails. -/
def Gives (allocations : List Allocation) : Prop :=
  ∀ given allocation rest, allocations = given ++ allocation :: rest →
    view.failureAfter given allocation = none

/-- The view after allocations have been given out. -/
def afterGiving (allocations : List Allocation) : View where
  store := allocations.foldl Genesis.grant view.store
  schedule := view.schedule
  calls := (allocations.map Allocation.call).reverse ++ view.calls

theorem afterGiving_append (given rest : List Allocation) :
    view.afterGiving (given ++ rest) = (view.afterGiving given).afterGiving rest := by
  simp [afterGiving]

/-- The next call for an allocation meets the failure that was foreseen. -/
theorem nextFailure_afterGiving (given : List Allocation) (allocation : Allocation) :
    (view.afterGiving given).nextFailure allocation.callKind =
      view.failureAfter given allocation := by
  have hCount : (view.afterGiving given).count allocation.callKind =
      view.count allocation.callKind +
        given.countP fun other => other.callKind == allocation.callKind := by
    rw [count, afterGiving, List.countP_append, List.countP_reverse, List.countP_map, Nat.add_comm]
    rfl
  rw [nextFailure, hCount]
  rfl

variable {view}

theorem gives_nil : view.Gives [] := by
  intro given allocation rest hSplit
  simp at hSplit

theorem gives_concat {given : List Allocation} {last : Allocation} :
    view.Gives (given ++ [last]) ↔ view.Gives given ∧ view.failureAfter given last = none := by
  constructor
  · intro hGives
    refine ⟨fun before allocation rest hSplit => ?_, hGives given last [] rfl⟩
    apply hGives before allocation (rest ++ [last])
    rw [hSplit, List.append_assoc, List.cons_append]
  · rintro ⟨hGiven, hLast⟩ before allocation rest hSplit
    -- the call is that for the last allocation, or one for those in front of it
    rcases List.eq_nil_or_concat rest with rfl | ⟨rest, other, rfl⟩
    · obtain ⟨rfl, hSame⟩ := List.append_inj' hSplit rfl
      rwa [← List.singleton_inj.mp hSame]
    · rw [List.concat_eq_append, ← List.cons_append, ← List.append_assoc] at hSplit
      exact hGiven before allocation rest (List.append_inj' hSplit rfl).1

/-- Either no call fails, or there is a first one that does. -/
theorem exists_first_failure (view : View) (allocations : List Allocation) :
    view.Gives allocations ∨ ∃ given failing rest failure,
      allocations = given ++ failing :: rest ∧ view.Gives given ∧
        view.failureAfter given failing = some failure := by
  induction allocations using List.reverseRecOn with
  | nil => exact .inl gives_nil
  | append_singleton given last ih =>
      rcases ih with hGiven | ⟨before, failing, rest, failure, rfl, hBefore, hFailure⟩
      · cases hLast : view.failureAfter given last with
        | none => exact .inl (gives_concat.mpr ⟨hGiven, hLast⟩)
        | some failure => exact .inr ⟨given, last, [], failure, rfl, hGiven, hLast⟩
      · refine .inr ⟨before, failing, rest ++ [last], failure, ?_, hBefore, hFailure⟩
        rw [List.append_assoc, List.cons_append]

end View

namespace Genesis

/-- Giving one allocation is one call, which fails or writes. -/
theorem set_apply (allocation : Allocation) (view : View) :
    Balance.set allocation.address Identifier.native allocation.balance view =
      match view.nextFailure allocation.callKind with
      | some failure =>
        (.error (.state failure), view.record allocation.callKind allocation.key)
      | none => (.ok (), view.afterGiving [allocation]) := by
  have hGiven (hNone : view.nextFailure allocation.callKind = none) :
      view.afterGiving [allocation] = { view.record allocation.callKind allocation.key with
        store := grant view.store allocation } := by
    simp [View.afterGiving, View.record, Allocation.call, hNone]
  by_cases hZero : allocation.balance = 0
  · have hKind : allocation.callKind = .remove := if_pos hZero
    rw [Balance.set, Balance.write, if_pos hZero, hKind]
    rw [hKind] at hGiven
    cases hFailure : view.nextFailure .remove with
    | some failure =>
        simp only [Action.remove, Action.ofCall, View.remove, hFailure]
        rfl
    | none =>
        simp only [Action.remove, Action.ofCall, View.remove, hFailure, hGiven hFailure, grant,
          storedAmount, if_pos hZero]
        rfl
  · have hKind : allocation.callKind = .insert := if_neg hZero
    rw [Balance.set, Balance.write, if_neg hZero, hKind]
    rw [hKind] at hGiven
    cases hFailure : view.nextFailure .insert with
    | some failure =>
        simp only [Action.insert, Action.ofCall, View.insert, hFailure]
        rfl
    | none =>
        simp only [Action.insert, Action.ofCall, View.insert, hFailure, hGiven hFailure, grant,
          storedAmount, if_neg hZero]
        rfl

/-- Allocations whose calls succeed are given out before the others. -/
theorem apply_append {view : View} {given : List Allocation} (hGiven : view.Gives given)
    (rest : List Allocation) :
    apply ⟨given ++ rest⟩ view = apply ⟨rest⟩ (view.afterGiving given) := by
  induction given using List.reverseRecOn generalizing rest with
  | nil => rfl
  | append_singleton given last ih =>
      obtain ⟨hBefore, hLast⟩ := View.gives_concat.mp hGiven
      rw [List.append_assoc, List.singleton_append, ih hBefore, apply_cons, Fallible.bind_apply,
        set_apply, View.nextFailure_afterGiving, hLast, View.afterGiving_append]

theorem apply_eq_ok {genesis : Genesis} {view : View} (hGives : view.Gives genesis.allocations) :
    genesis.apply view = (.ok (), view.afterGiving genesis.allocations) := by
  have hApply := apply_append hGives []
  rw [List.append_nil] at hApply
  exact hApply

/-- The first call that fails is the last one that is made. -/
theorem apply_eq_error {view : View} {given : List Allocation} (hGiven : view.Gives given)
    {failing : Allocation} {failure : StateError}
    (hFailure : view.failureAfter given failing = some failure) (rest : List Allocation) :
    apply ⟨given ++ failing :: rest⟩ view =
      (.error (.state failure),
        (view.afterGiving given).record failing.callKind failing.key) := by
  rw [apply_append hGiven, apply_cons, Fallible.bind_apply, set_apply,
    View.nextFailure_afterGiving, hFailure]

/-- Whichever calls fail, some of the allocations from the first on have been given out. -/
theorem exists_given_prefix (genesis : Genesis) (view : View) :
    ∃ given, given <+: genesis.allocations ∧
      (genesis.apply view).2.store = given.foldl grant view.store := by
  rcases view.exists_first_failure genesis.allocations with
    hGives | ⟨given, failing, rest, failure, hSplit, hGiven, hFailure⟩
  · exact ⟨_, List.prefix_refl _, congrArg (·.2.store) (apply_eq_ok hGives)⟩
  · refine ⟨given, ⟨failing :: rest, hSplit.symm⟩, ?_⟩
    have hApply := apply_eq_error hGiven hFailure rest
    rw [← hSplit] at hApply
    exact congrArg (·.2.store) hApply

/-- The store after allocations have been given out without failures. -/
theorem quiet_store (allocations : List Allocation) (store : Store) :
    (apply ⟨allocations⟩ (View.ofStore store)).2.store = allocations.foldl grant store :=
  (yields_apply allocations store (View.ofStore store) rfl rfl).2.2

/-- Giving out first balances while calls fail, whatever the store holds and whichever calls fail.
If every call succeeds, so does the whole, and each allocation takes one call. Otherwise there is a
first allocation whose call fails. The result is then its failure, as an error of the storage; the
store is that after giving out the allocations before it without failures; and the failed call is
the last that was made, so that there is none for the allocations behind it. Either way, giving out
all of them later without failures leaves the store that doing it once without failures would. -/
theorem apply_stops_at_first_failure (genesis : Genesis) (view : View) :
    let quiet (allocations : List Allocation) : Store :=
      (apply ⟨allocations⟩ (View.ofStore view.store)).2.store
    (view.Gives genesis.allocations ∨ ∃ given failing rest failure,
      genesis.allocations = given ++ failing :: rest ∧ view.Gives given ∧
        view.failureAfter given failing = some failure) ∧
    (view.Gives genesis.allocations → ∃ after, genesis.apply view = (.ok (), after) ∧
      after.store = quiet genesis.allocations ∧
      after.calls = (genesis.allocations.map Allocation.call).reverse ++ view.calls) ∧
    (∀ given failing rest failure, genesis.allocations = given ++ failing :: rest →
      view.Gives given → view.failureAfter given failing = some failure →
      ∃ after, genesis.apply view = (.error (.state failure), after) ∧
        Service.ofStorage (genesis.apply view).1 = .error (.storage (.state failure)) ∧
        after.store = quiet given ∧
        after.calls = ⟨failing.callKind, failing.key, some failure⟩ ::
          ((given.map Allocation.call).reverse ++ view.calls)) ∧
    (∀ later : View, later.schedule = Schedule.faultless →
      later.store = (genesis.apply view).2.store →
      ∃ retried, genesis.apply later = (.ok (), retried) ∧
        retried.store = quiet genesis.allocations) := by
  intro quiet
  refine ⟨view.exists_first_failure _, ?_, ?_, ?_⟩
  · intro hGives
    exact ⟨_, apply_eq_ok hGives, (quiet_store _ _).symm, rfl⟩
  · intro given failing rest failure hSplit hGiven hFailure
    obtain ⟨allocations⟩ := genesis
    obtain rfl : allocations = given ++ failing :: rest := hSplit
    have hApply := apply_eq_error hGiven hFailure rest
    refine ⟨_, hApply, ?_, (quiet_store _ _).symm, ?_⟩
    · rw [hApply]
      rfl
    · rw [View.record_calls, View.nextFailure_afterGiving, hFailure]
      rfl
  · intro later hLater hStore
    obtain ⟨retried, hRetried, hAgain⟩ := genesis.exists_apply_eq hLater
    refine ⟨retried, hRetried, ?_⟩
    obtain ⟨given, hGiven, hBefore⟩ := genesis.exists_given_prefix view
    rw [hAgain, hStore, hBefore, foldl_grant_of_prefix hGiven]
    exact (quiet_store _ _).symm

/-- The second call that inserts fails. What was given before and taken back again stays so, and
the last allocation is not tried. -/
theorem stops_at_second_insert :
    let alice : Address := .ofParts 0 Identifier.native
    let bob : Address := .ofParts 1 Identifier.native
    let genesis : Genesis := ⟨[⟨alice, 5⟩, ⟨alice, 0⟩, ⟨bob, 7⟩, ⟨alice, 9⟩]⟩
    let schedule : Schedule := fun kind number =>
      if kind = .insert ∧ number = 1 then some .poisoned else none
    let view : View := ⟨∅, schedule, []⟩
    (∃ after, genesis.apply view = (.error (.state .poisoned), after) ∧
      after.store = (apply ⟨[⟨alice, 5⟩, ⟨alice, 0⟩]⟩ (View.ofStore ∅)).2.store ∧
      after.calls.map (·.failure) = [some .poisoned, none, none]) ∧
    ∃ retried, genesis.apply (View.ofStore (genesis.apply view).2.store) = (.ok (), retried) ∧
      retried.store = (genesis.apply (View.ofStore ∅)).2.store := by
  intro alice bob genesis schedule view
  obtain ⟨-, -, hFails, hRetry⟩ := apply_stops_at_first_failure genesis view
  have hGives : view.Gives [⟨alice, 5⟩, ⟨alice, 0⟩] := by
    have hFirst : view.Gives ([] ++ [⟨alice, 5⟩]) :=
      View.gives_concat.mpr ⟨View.gives_nil, by decide⟩
    exact View.gives_concat.mpr ⟨hFirst, by decide⟩
  obtain ⟨after, hApply, -, hStore, hCalls⟩ :=
    hFails [⟨alice, 5⟩, ⟨alice, 0⟩] ⟨bob, 7⟩ [⟨alice, 9⟩] .poisoned rfl hGives (by decide)
  refine ⟨⟨after, hApply, hStore, ?_⟩, ?_⟩
  · rw [hCalls]
    rfl
  · exact hRetry (View.ofStore _) rfl rfl

end Genesis

end DeviceLedger
