import Mathlib.Data.List.Forall2

/-! Computations that carry a state and may fail, and runs of several of them. A failure
ends the computation in which it happens, but not the run: the next computation starts
from the state that the failed one left. -/

namespace DeviceLedger

/-- A computation on a state that may fail. The state in which it failed is kept. -/
abbrev Fallible (ε σ α : Type) := ExceptT ε (StateM σ) α

namespace Fallible

variable {ε σ α β : Type}

theorem pure_apply (found : α) (state : σ) :
    (pure found : Fallible ε σ α) state = (.ok found, state) := rfl

/-- The next computation starts from the state that the first one leaves, unless that
failed. -/
theorem bind_apply (first : Fallible ε σ α) (next : α → Fallible ε σ β) (state : σ) :
    (first >>= next) state = match first state with
      | (.ok found, after) => next found after
      | (.error error, after) => (.error error, after) := by
  change ExceptT.bindCont next (first state).1 (first state).2 = _
  cases hFirst : first state with
  | mk result after => cases result <;> rfl

/-- The results of computations in order, and the state after the last of them. -/
def runAll : List (Fallible ε σ α) → σ → List (Except ε α) × σ
  | [], state => ([], state)
  | first :: rest, state =>
    let (result, next) := first state
    let (results, last) := runAll rest next
    (result :: results, last)

theorem runAll_cons (first : Fallible ε σ α) (rest : List (Fallible ε σ α)) (state : σ) :
    runAll (first :: rest) state =
      ((first state).1 :: (runAll rest (first state).2).1, (runAll rest (first state).2).2) := rfl

/-- The second part of a run starts where the first part ends. -/
theorem runAll_append (first second : List (Fallible ε σ α)) (state : σ) :
    runAll (first ++ second) state =
      ((runAll first state).1 ++ (runAll second (runAll first state).2).1,
        (runAll second (runAll first state).2).2) := by
  induction first generalizing state with
  | nil => rfl
  | cons computation first ih =>
      rw [List.cons_append, runAll_cons, ih]
      rfl

/-- What every computation of a run preserves holds after the run. -/
theorem runAll_preserves (Holds : σ → Prop) {run : List (Fallible ε σ α)}
    (hStep : ∀ computation ∈ run, ∀ state, Holds state → Holds (computation state).2)
    {state : σ} (hState : Holds state) : Holds (runAll run state).2 := by
  induction run generalizing state with
  | nil => exact hState
  | cons first rest ih =>
      rw [runAll_cons]
      exact ih (fun computation hRest => hStep computation (List.mem_cons_of_mem _ hRest))
        (hStep first List.mem_cons_self state hState)

/-- A step of a run with its result was made somewhere in the run, and what follows it is
the run of the later steps from there. -/
theorem runAll_split {ι : Type} {run : ι → Fallible ε σ α} {steps : List ι} {state : σ}
    {earlier later : List (ι × Except ε α)} {step : ι} {result : Except ε α}
    (hPast : steps.zip (runAll (steps.map run) state).1 = earlier ++ (step, result) :: later) :
    ∃ (before : σ) (following : List ι), (run step before).1 = result ∧
      (∀ other ∈ following, other ∈ steps) ∧
      later = following.zip (runAll (following.map run) (run step before).2).1 ∧
      (runAll (steps.map run) state).2 =
        (runAll (following.map run) (run step before).2).2 := by
  induction earlier generalizing steps state with
  | nil =>
      cases steps with
      | nil => cases hPast
      | cons first rest =>
          rw [List.map_cons, runAll_cons, List.zip_cons_cons, List.nil_append] at hPast
          obtain ⟨hFirst, rfl⟩ := List.cons.inj hPast
          obtain ⟨rfl, rfl⟩ := Prod.mk.inj hFirst
          exact ⟨state, rest, rfl, fun _ => List.mem_cons_of_mem first, rfl, rfl⟩
  | cons pair earlier ih =>
      cases steps with
      | nil => cases hPast
      | cons first rest =>
          rw [List.map_cons, runAll_cons, List.zip_cons_cons, List.cons_append] at hPast
          obtain ⟨before, following, hResult, hMem, hLater, hLast⟩ := ih (List.cons.inj hPast).2
          exact ⟨before, following, hResult,
            fun other hOther => List.mem_cons_of_mem first (hMem other hOther), hLater, hLast⟩

/-- Two runs of the same steps on different states come to results that agree if every step
does, and keeps the states related. -/
theorem runAll_relates {τ ι : Type} (Related : σ → τ → Prop)
    (Agree : Except ε α → Except ε α → Prop) {steps : List ι}
    {first : ι → Fallible ε σ α} {second : ι → Fallible ε τ α}
    (hStep : ∀ step ∈ steps, ∀ state state', Related state state' →
      Agree (first step state).1 (second step state').1 ∧
        Related (first step state).2 (second step state').2)
    {state : σ} {state' : τ} (hState : Related state state') :
    List.Forall₂ Agree (runAll (steps.map first) state).1 (runAll (steps.map second) state').1 ∧
      Related (runAll (steps.map first) state).2 (runAll (steps.map second) state').2 := by
  induction steps generalizing state state' with
  | nil => exact ⟨.nil, hState⟩
  | cons step steps ih =>
      obtain ⟨hResult, hNext⟩ := hStep step List.mem_cons_self state state' hState
      obtain ⟨hResults, hLast⟩ :=
        ih (fun later hLater => hStep later (List.mem_cons_of_mem _ hLater)) hNext
      simp only [List.map_cons, runAll_cons]
      exact ⟨.cons hResult hResults, hLast⟩

/-- Two runs of the same steps on different states come to the same results if every step
does, and keeps the states related. -/
theorem runAll_simulates {τ ι : Type} (Related : σ → τ → Prop) {steps : List ι}
    {first : ι → Fallible ε σ α} {second : ι → Fallible ε τ α}
    (hStep : ∀ step ∈ steps, ∀ state state', Related state state' →
      (first step state).1 = (second step state').1 ∧
        Related (first step state).2 (second step state').2)
    {state : σ} {state' : τ} (hState : Related state state') :
    (runAll (steps.map first) state).1 = (runAll (steps.map second) state').1 ∧
      Related (runAll (steps.map first) state).2 (runAll (steps.map second) state').2 := by
  obtain ⟨hResults, hLast⟩ := runAll_relates Related (· = ·) hStep hState
  rw [List.forall₂_eq_eq_eq] at hResults
  exact ⟨hResults, hLast⟩

end Fallible

end DeviceLedger
