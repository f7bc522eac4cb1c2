import DeviceLedger.Ledger.Action
import DeviceLedger.Proofs.Runs

/-! Actions on the record at one key. Such an action reads the key and ends with at
most one write there. What holds of every call is carried through the reads by
induction on the action; the closing write is the only place where the store changes. -/

namespace DeviceLedger

namespace Store

/-- Write a value at a key, or remove the key. -/
def put (store : Store) (key : Bytes) : Option Bytes → Store
  | some value => store.insert key value
  | none => store.erase key

theorem getElem?_put (store : Store) (key : Bytes) (value : Option Bytes) (other : Bytes) :
    (store.put key value)[other]? = if key = other then value else store[other]? := by
  cases value with
  | none =>
      rw [put, Std.ExtTreeMap.getElem?_erase]
      simp
  | some value =>
      rw [put, Std.ExtTreeMap.getElem?_insert]
      simp

section

variable (store : Store) (key : Bytes)

@[simp] theorem getElem?_put_self (value : Option Bytes) : (store.put key value)[key]? = value := by
  rw [getElem?_put, if_pos rfl]

theorem getElem?_put_of_ne {other : Bytes} (hKey : key ≠ other) (value : Option Bytes) :
    (store.put key value)[other]? = store[other]? := by
  rw [getElem?_put, if_neg hKey]

/-- Writing what is there changes nothing. -/
theorem put_getElem? : store.put key store[key]? = store := by
  ext other value
  rw [getElem?_put]
  split
  · rename_i hKey
    rw [hKey]
  · rfl

/-- Only the last of two writes at a key counts. -/
theorem put_put (earlier later : Option Bytes) :
    (store.put key earlier).put key later = store.put key later := by
  ext other value
  rw [getElem?_put, getElem?_put, getElem?_put]
  split <;> rfl

end

end Store

namespace View

variable (view : View) (kind : CallKind) (key : Bytes)

@[simp] theorem record_store : (view.record kind key).store = view.store := rfl

@[simp] theorem record_schedule : (view.record kind key).schedule = view.schedule := rfl

@[simp] theorem record_calls :
    (view.record kind key).calls = ⟨kind, key, view.nextFailure kind⟩ :: view.calls := rfl

theorem nextFailure_of_faultless {view : View} (hSchedule : view.schedule = Schedule.faultless)
    (kind : CallKind) : view.nextFailure kind = none := by
  rw [nextFailure, hSchedule]
  rfl

end View

namespace Action

variable {α β : Type}

@[simp] theorem ofResult_ok_bind (found : α) (next : α → Action β) :
    ofResult (.ok found) >>= next = next found := rfl

@[simp] theorem ofResult_error_bind (error : StorageError) (next : α → Action β) :
    ofResult (.error error) >>= next = ofResult (.error error) := rfl

/-- A read that fails ends the action, one that succeeds passes on what is stored. -/
theorem get_bind_apply (key : Bytes) (next : Option Bytes → Action α) (view : View) :
    (get key >>= next) view = match view.nextFailure .get with
      | some failure => (.error (.state failure), view.record .get key)
      | none => next view.store[key]? (view.record .get key) := by
  rw [Fallible.bind_apply]
  cases hFailure : view.nextFailure .get <;> simp [get, ofCall, View.get, hFailure]

theorem insert_bind_pure_apply (key value : Bytes) (found : α) (view : View) :
    (insert key value >>= fun _ => pure found) view = match view.nextFailure .insert with
      | some failure => (.error (.state failure), view.record .insert key)
      | none =>
        (.ok found, { view.record .insert key with store := view.store.insert key value }) := by
  rw [Fallible.bind_apply]
  cases hFailure : view.nextFailure .insert with
  | some failure => simp [insert, ofCall, View.insert, hFailure]
  | none =>
      simp only [insert, ofCall, View.insert, hFailure]
      rfl

theorem remove_bind_pure_apply (key : Bytes) (found : α) (view : View) :
    (remove key >>= fun _ => pure found) view = match view.nextFailure .remove with
      | some failure => (.error (.state failure), view.record .remove key)
      | none => (.ok found, { view.record .remove key with store := view.store.erase key }) := by
  rw [Fallible.bind_apply]
  cases hFailure : view.nextFailure .remove with
  | some failure => simp [remove, ofCall, View.remove, hFailure]
  | none =>
      simp only [remove, ofCall, View.remove, hFailure]
      rfl

/-- An action that reads one key and touches nothing. -/
inductive Reads (key : Bytes) : Action α → Prop where
  | result (result : Except StorageError α) : Reads key (ofResult result)
  | get (next : Option Bytes → Action α) (hNext : ∀ found, Reads key (next found)) :
      Reads key (Action.get key >>= next)

/-- An action on the record at one key: reads of the key, then at most one write. Every
value that it can write satisfies `Writable`. -/
inductive Edits (key : Bytes) (Writable : Bytes → Prop) : Action α → Prop where
  | result (result : Except StorageError α) : Edits key Writable (ofResult result)
  | get (next : Option Bytes → Action α) (hNext : ∀ found, Edits key Writable (next found)) :
      Edits key Writable (Action.get key >>= next)
  | insert (value : Bytes) (found : α) (hValue : Writable value) :
      Edits key Writable (Action.insert key value >>= fun _ => pure found)
  | remove (found : α) : Edits key Writable (Action.remove key >>= fun _ => pure found)

variable {key : Bytes} {Writable : Bytes → Prop}

theorem Reads.pure (found : α) : Reads key (Pure.pure found : Action α) :=
  .result (.ok found)

theorem Edits.pure (found : α) : Edits key Writable (Pure.pure found : Action α) :=
  .result (.ok found)

theorem Edits.throw (error : StorageError) :
    Edits key Writable (MonadExcept.throw error : Action α) :=
  .result (.error error)

theorem Reads.bind_edits {action : Action α} (hReads : Reads key action) {next : α → Action β}
    (hNext : ∀ found, Edits key Writable (next found)) :
    Edits key Writable (action >>= next) := by
  induction hReads with
  | result result =>
      cases result with
      | ok found => exact hNext found
      | error error => exact .result (.error error)
  | get rest hRest ih =>
      rw [bind_assoc]
      exact .get _ ih

theorem Reads.bind {action : Action α} (hReads : Reads key action) {next : α → Action β}
    (hNext : ∀ found, Reads key (next found)) : Reads key (action >>= next) := by
  induction hReads with
  | result result =>
      cases result with
      | ok found => exact hNext found
      | error error => exact .result (.error error)
  | get rest hRest ih =>
      rw [bind_assoc]
      exact .get _ ih

/-- Presenting what an action found does not change its calls. -/
theorem Edits.map {action : Action α} (hEdits : Edits key Writable action) (present : α → β) :
    Edits key Writable (action >>= fun found => Pure.pure (present found)) := by
  induction hEdits with
  | result result =>
      cases result with
      | ok found => exact .pure (present found)
      | error error => exact .result (.error error)
  | get next hNext ih =>
      rw [bind_assoc]
      exact .get _ ih
  | insert value found hValue =>
      rw [bind_assoc]
      exact .insert value (present found) hValue
  | remove found =>
      rw [bind_assoc]
      exact .remove (present found)

theorem Reads.edits {action : Action α} (hReads : Reads key action) :
    Edits key Writable action := by
  induction hReads with
  | result result => exact .result result
  | get next hNext ih => exact .get next ih

theorem Edits.mono {Narrow : Bytes → Prop} {action : Action α} (hEdits : Edits key Narrow action)
    (hWritable : ∀ value, Narrow value → Writable value) : Edits key Writable action := by
  induction hEdits with
  | result result => exact .result result
  | get next hNext ih => exact .get next ih
  | insert value found hValue => exact .insert value found (hWritable value hValue)
  | remove found => exact .remove found

/-- A write with nothing to find is an action on one record. -/
theorem Edits.of_insert {value : Bytes} (hValue : Writable value) :
    Edits key Writable (Action.insert key value) := by
  rw [← bind_pure_unit (x := Action.insert key value)]
  exact .insert value () hValue

theorem Edits.of_remove : Edits key Writable (Action.remove key) := by
  rw [← bind_pure_unit (x := Action.remove key)]
  exact .remove ()

theorem Reads.getDecoded (decode : Bytes → Except StorageError α) :
    Reads key (getDecoded decode key) := by
  refine .get _ fun found => ?_
  cases found with
  | none => exact .pure none
  | some value =>
      exact Reads.bind (.result (decode value)) fun found => .pure (some found)

theorem Reads.map {action : Action α} (hReads : Reads key action) (present : α → β) :
    Reads key (action >>= fun found => Pure.pure (present found)) :=
  hReads.bind fun found => .pure (present found)

/-- An action never replaces the failures to come. -/
theorem Edits.schedule_eq {action : Action α} (hEdits : Edits key Writable action) (view : View) :
    (action view).2.schedule = view.schedule := by
  induction hEdits generalizing view with
  | result result => rfl
  | get next hNext ih =>
      rw [get_bind_apply]
      cases view.nextFailure .get with
      | some failure => rfl
      | none => exact ih _ (view.record .get key)
  | insert value found hValue =>
      rw [insert_bind_pure_apply]
      cases view.nextFailure .insert <;> rfl
  | remove found =>
      rw [remove_bind_pure_apply]
      cases view.nextFailure .remove <;> rfl

theorem Reads.store_eq {action : Action α} (hReads : Reads key action) (view : View) :
    (action view).2.store = view.store := by
  induction hReads generalizing view with
  | result result => rfl
  | get next hNext ih =>
      rw [get_bind_apply]
      cases view.nextFailure .get with
      | some failure => rfl
      | none => exact ih _ (view.record .get key)

/-- What an action on one record does to the store: nothing, or one write at its key.
It writes only if it succeeds. -/
theorem Edits.store_cases {action : Action α} (hEdits : Edits key Writable action) (view : View) :
    (action view).2.store = view.store ∨
    ∃ found written, (action view).1 = .ok found ∧
      (∀ value, written = some value → Writable value) ∧
      (action view).2.store = view.store.put key written := by
  induction hEdits generalizing view with
  | result result => exact .inl rfl
  | get next hNext ih =>
      rw [get_bind_apply]
      cases view.nextFailure .get with
      | some failure => exact .inl rfl
      | none => exact ih _ (view.record .get key)
  | insert value found hValue =>
      rw [insert_bind_pure_apply]
      cases view.nextFailure .insert with
      | some failure => exact .inl rfl
      | none =>
          refine .inr ⟨found, some value, rfl, ?_, rfl⟩
          rintro _ ⟨⟩
          exact hValue
  | remove found =>
      rw [remove_bind_pure_apply]
      cases view.nextFailure .remove with
      | some failure => exact .inl rfl
      | none => exact .inr ⟨found, none, rfl, by simp, rfl⟩

/-- An action on one record leaves every other record as it was. -/
theorem Edits.getElem?_of_ne {action : Action α} (hEdits : Edits key Writable action)
    {other : Bytes} (hKey : key ≠ other) (view : View) :
    (action view).2.store[other]? = view.store[other]? := by
  rcases hEdits.store_cases view with hSame | ⟨found, written, -, -, hPut⟩
  · rw [hSame]
  · rw [hPut, Store.getElem?_put_of_ne _ _ hKey]

/-- An action on one record that fails leaves the store as it was, whatever the error. -/
theorem Edits.store_eq_of_error {action : Action α} (hEdits : Edits key Writable action)
    {view : View} {error : StorageError} (hError : (action view).1 = .error error) :
    (action view).2.store = view.store := by
  rcases hEdits.store_cases view with hSame | ⟨found, written, hOk, -, -⟩
  · exact hSame
  · rw [hOk] at hError
    cases hError

/-- Of the calls made, the latest first, only the last may have failed, and its cause
is then the result. -/
def StopsAtFailure (made : List Call) (result : Except StorageError α) : Prop :=
  ∀ (later : List Call) (failed : Call) (earlier : List Call) (failure : StateError),
    made = later ++ failed :: earlier → failed.failure = some failure →
      later = [] ∧ result = .error (.state failure)

theorem StopsAtFailure.nil (result : Except StorageError α) : StopsAtFailure [] result := by
  intro later failed earlier failure hMade
  simp at hMade

theorem StopsAtFailure.failed {call : Call} {failure : StateError}
    (hFailure : call.failure = some failure) :
    StopsAtFailure [call] (.error (.state failure) : Except StorageError α) := by
  intro later failed earlier failure' hMade hFailed
  obtain ⟨rfl, hCall⟩ | ⟨-, hNil⟩ := List.singleton_eq_append_iff.mp hMade
  · obtain ⟨rfl, rfl⟩ := List.cons.inj hCall
    rw [hFailure] at hFailed
    exact ⟨rfl, by rw [Option.some.inj hFailed]⟩
  · cases hNil

/-- A call that succeeded may come before. -/
theorem StopsAtFailure.append_succeeded {made : List Call} {result : Except StorageError α}
    {call : Call} (hStops : StopsAtFailure made result) (hCall : call.failure = none) :
    StopsAtFailure (made ++ [call]) result := by
  intro later failed earlier failure hMade hFailed
  rcases List.eq_nil_or_concat earlier with rfl | ⟨before, last, rfl⟩
  · obtain ⟨-, hLast⟩ := List.append_inj' hMade rfl
    obtain rfl := List.singleton_inj.mp hLast
    rw [hCall] at hFailed
    cases hFailed
  · rw [List.concat_eq_append, ← List.cons_append, ← List.append_assoc] at hMade
    obtain ⟨hSame, -⟩ := List.append_inj' hMade rfl
    exact hStops later failed before failure hSame hFailed

/-- A failed call ends an action on one record. -/
theorem Edits.stopsAtFailure {action : Action α} (hEdits : Edits key Writable action)
    (view : View) :
    ∃ made, (action view).2.calls = made ++ view.calls ∧ StopsAtFailure made (action view).1 := by
  induction hEdits generalizing view with
  | result result => exact ⟨[], rfl, .nil _⟩
  | get next hNext ih =>
      rw [get_bind_apply]
      cases hFailure : view.nextFailure .get with
      | some failure => exact ⟨[_], rfl, .failed hFailure⟩
      | none =>
          obtain ⟨made, hCalls, hStops⟩ := ih view.store[key]? (view.record .get key)
          rw [View.record_calls] at hCalls
          refine ⟨made ++ [⟨.get, key, view.nextFailure .get⟩], ?_,
            hStops.append_succeeded hFailure⟩
          rw [List.append_assoc]
          exact hCalls
  | insert value found hValue =>
      rw [insert_bind_pure_apply]
      cases hFailure : view.nextFailure .insert with
      | some failure => exact ⟨[_], rfl, .failed hFailure⟩
      | none => exact ⟨[_], rfl, (StopsAtFailure.nil _).append_succeeded hFailure⟩
  | remove found =>
      rw [remove_bind_pure_apply]
      cases hFailure : view.nextFailure .remove with
      | some failure => exact ⟨[_], rfl, .failed hFailure⟩
      | none => exact ⟨[_], rfl, (StopsAtFailure.nil _).append_succeeded hFailure⟩

/-- An action that succeeds in spite of a schedule of failures met none of them, so it
does the same on a view of the same store in which no call fails. -/
theorem Edits.replay {action : Action α} (hEdits : Edits key Writable action) {view quiet : View}
    {found : α} (hOk : (action view).1 = .ok found)
    (hSchedule : quiet.schedule = Schedule.faultless) (hStore : quiet.store = view.store) :
    (action quiet).1 = .ok found ∧ (action quiet).2.store = (action view).2.store := by
  induction hEdits generalizing view quiet with
  | result result => exact ⟨hOk, hStore⟩
  | get next hNext ih =>
      rw [get_bind_apply] at hOk ⊢
      rw [get_bind_apply, View.nextFailure_of_faultless hSchedule]
      cases hFailure : view.nextFailure .get with
      | some failure =>
          rw [hFailure] at hOk
          cases hOk
      | none =>
          rw [hFailure] at hOk
          simp only [hStore]
          exact ih view.store[key]? hOk hSchedule hStore
  | insert value written hValue =>
      rw [insert_bind_pure_apply] at hOk ⊢
      rw [insert_bind_pure_apply, View.nextFailure_of_faultless hSchedule]
      cases hFailure : view.nextFailure .insert with
      | some failure =>
          rw [hFailure] at hOk
          cases hOk
      | none =>
          rw [hFailure] at hOk
          simp only [hStore]
          exact ⟨hOk, trivial⟩
  | remove written =>
      rw [remove_bind_pure_apply] at hOk ⊢
      rw [remove_bind_pure_apply, View.nextFailure_of_faultless hSchedule]
      cases hFailure : view.nextFailure .remove with
      | some failure =>
          rw [hFailure] at hOk
          cases hOk
      | none =>
          rw [hFailure] at hOk
          simp only [hStore]
          exact ⟨hOk, trivial⟩

end Action

end DeviceLedger
