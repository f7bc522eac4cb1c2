import DeviceLedger.Proofs.MapsInStore

/-! The flat store behaves like the typed maps. Every operation does to a store that holds
the records of some maps what it does to the maps, and gives the same result; by induction
so does every run. -/

namespace DeviceLedger

open DeviceLedger.Action Fallible

/-- An action carries out what was decided on the maps: a change is followed by the store,
a refusal is the action's error and leaves the store as it was. -/
def Action.Follows (action : Action Unit) (store : Store) : Except StorageError TypedMaps → Prop
  | .ok next => ∃ after, action.Yields store (.ok ()) after ∧ Represents next after
  | .error error => action.Yields store (.error error) store

/-- An action on a store that holds the records of maps gives the result that the maps
give, and the store holds the records of the maps afterwards. -/
def Action.Simulates (action : Action Outcome)
    (act : Fallible StorageError TypedMaps Outcome) : Prop :=
  ∀ maps store, Represents maps store →
    ∃ after, action.Yields store (act maps).1 after ∧ Represents (act maps).2 after

theorem Action.simulates_ask {action : Action Outcome} {answer : TypedMaps → Outcome}
    (hAnswer : ∀ {maps store}, Represents maps store →
      action.Yields store (.ok (answer maps)) store) :
    action.Simulates (TypedMaps.ask answer) :=
  fun _ store hStore => ⟨store, hAnswer hStore, hStore⟩

theorem Action.simulates_change {action : Action Unit}
    {next : TypedMaps → Except StorageError TypedMaps}
    (hNext : ∀ {maps store}, Represents maps store → action.Follows store (next maps)) :
    (Operation.writing action).Simulates (TypedMaps.change next) := by
  intro maps store hStore
  have hFollows := hNext hStore
  rw [TypedMaps.change]
  cases hDecided : next maps with
  | ok decided =>
      rw [hDecided] at hFollows
      obtain ⟨after, hYields, hAfter⟩ := hFollows
      exact ⟨after, hYields.writing, hAfter⟩
  | error error =>
      rw [hDecided] at hFollows
      exact ⟨store, hFollows.writing, hStore⟩

namespace Represents

variable {maps next : TypedMaps} {store : Store}

theorem follows_put (hStore : Represents maps store) {action : Action Unit} {entity : Entity}
    {value : Option Bytes}
    (hYields : action.Yields store (.ok ()) (store.put entity.key value))
    (hNext : ∀ other, next.valueAt other =
      if entity = other then value else maps.valueAt other)
    (hWellFormed : next.WellFormed) : action.Follows store (.ok next) :=
  ⟨_, hYields, hStore.put hNext hWellFormed⟩

/-- A write that depends on a check is decided by the same check on the maps. -/
theorem follows_checked {action : Action Unit} {passes : Prop} [Decidable passes]
    {error : StorageError} {after : Store} (hAfter : Represents next after)
    (hYields : action.Yields store (if passes then .ok () else .error error)
      (if passes then after else store)) :
    action.Follows store (if passes then .ok next else .error error) := by
  split
  · rename_i hPasses
    rw [if_pos hPasses, if_pos hPasses] at hYields
    exact ⟨after, hYields, hAfter⟩
  · rename_i hPasses
    rw [if_neg hPasses, if_neg hPasses] at hYields
    exact hYields

theorem setBalance (hStore : Represents maps store) (address : Address) (held : Identifier)
    (amount : UInt64) :
    Represents { maps with balances := maps.balances.set (address, held) amount }
      (store.put (Balance.key address held) (storedAmount amount)) := by
  rw [storedAmount_eq]
  exact hStore.put (maps.valueAt_putBalance · (address, held) _) hStore.wellFormed

theorem setLoan (hStore : Represents maps store) (lent destination : Identifier)
    (amount : UInt64) :
    Represents { maps with loans := maps.loans.set (lent, destination) amount }
      (store.put (Loan.key lent destination) (storedAmount amount)) := by
  rw [storedAmount_eq]
  exact hStore.put (maps.valueAt_putLoan · (lent, destination) _) hStore.wellFormed

theorem follows_balanceAdd (hStore : Represents maps store) (address : Address)
    (held : Identifier) (amount : UInt64) (create : Bool) :
    (Balance.add address held amount create).Follows store
      (if maps.balances.find (address, held) = none ∧ create = false then .ok maps
        else (maps.balances.add (.balance address held) (address, held) amount).map
          fun balances => { maps with balances }) := by
  have hFound := hStore.balance address held
  by_cases hSkipped : maps.balances.find (address, held) = none ∧ create = false
  · rw [if_pos hSkipped]
    obtain ⟨hNone, rfl⟩ := hSkipped
    rw [hNone] at hFound
    exact ⟨store, Balance.yields_add_skipped address held amount hFound, hStore⟩
  · rw [if_neg hSkipped, Amounts.add_eq, apply_ite (Except.map _)]
    have hCreate := (not_and_or.mp hSkipped).imp Option.isSome_iff_ne_none.mpr
      Bool.eq_true_of_not_eq_false
    exact follows_checked (hStore.setBalance address held _)
      (Balance.yields_add address held amount hFound hCreate)

theorem follows_balanceSub (hStore : Represents maps store) (address : Address)
    (held : Identifier) (amount : UInt64) :
    (Balance.sub address held amount).Follows store
      ((maps.balances.sub (.balance address held) (address, held) amount).map
        fun balances => { maps with balances }) := by
  rw [Amounts.sub_eq, apply_ite (Except.map _)]
  exact follows_checked (hStore.setBalance address held _)
    (Balance.yields_sub address held amount (hStore.balance address held))

theorem follows_loanAdd (hStore : Represents maps store) (lent destination : Identifier)
    (amount : UInt64) :
    (Loan.add lent destination amount).Follows store
      ((maps.loans.add (.loan lent destination) (lent, destination) amount).map
        fun loans => { maps with loans }) := by
  rw [Amounts.add_eq, apply_ite (Except.map _)]
  exact follows_checked (hStore.setLoan lent destination _)
    (Loan.yields_add lent destination amount (hStore.loan lent destination))

theorem follows_loanSub (hStore : Represents maps store) (lent destination : Identifier)
    (amount : UInt64) :
    (Loan.sub lent destination amount).Follows store
      ((maps.loans.sub (.loan lent destination) (lent, destination) amount).map
        fun loans => { maps with loans }) := by
  rw [Amounts.sub_eq, apply_ite (Except.map _)]
  exact follows_checked (hStore.setLoan lent destination _)
    (Loan.yields_sub lent destination amount (hStore.loan lent destination))

/-- The record is written if both of its texts fit, and is refused before the store is
touched if not. -/
theorem follows_assetSet (hStore : Represents maps store) (id : Identifier)
    (record : AssetRecord) : (Asset.set id record).Follows store (maps.setAsset id record) := by
  obtain ⟨hAssets, hOthers⟩ := hStore.wellFormed
  by_cases hFits : record.Fits
  · have hSet : maps.setAsset id record =
        .ok { maps with assets := maps.assets.put id (some record) } := by
      rw [TypedMaps.setAsset, if_neg (Nat.not_lt_of_le hFits.1),
        if_neg (Nat.not_lt_of_le hFits.2)]
    have hWellFormed : ∀ found, some record = some found → found.Fits := by
      rintro _ ⟨⟩
      exact hFits
    rw [hSet, Asset.set, AssetRecord.encode_of_fits hFits, ofResult_ok_bind]
    exact hStore.follows_put (yields_insert (Asset.key id) record.layout store)
      (maps.valueAt_putAsset id · (some record)) ⟨hAssets.put id hWellFormed, hOthers⟩
  · have hSet : maps.setAsset id record = .error (if Writer.sizedLimit < record.symbol.length
        then .fieldTooLong "symbol" record.symbol.length Writer.sizedLimit
        else .fieldTooLong "metadata" record.metadata.length Writer.sizedLimit) := by
      rw [TypedMaps.setAsset]
      by_cases hSymbol : Writer.sizedLimit < record.symbol.length
      · rw [if_pos hSymbol, if_pos hSymbol]
      · have hMetadata : Writer.sizedLimit < record.metadata.length :=
          Nat.lt_of_not_le fun hMetadata => hFits ⟨Nat.le_of_not_lt hSymbol, hMetadata⟩
        rw [if_neg hSymbol, if_neg hSymbol, if_pos hMetadata]
    rw [hSet, Asset.set, AssetRecord.encode_of_not_fits hFits, ofResult_error_bind]
    exact yields_ofResult _ store

/-- The policy is asked before anything else is looked at. -/
theorem follows_permit (hStore : Represents maps store) (policy : OverwritePolicy)
    (entity : Entity) {taken : Bool} (hTaken : (maps.valueAt entity).isSome = taken)
    {action : Action Unit} {decided : Except StorageError TypedMaps}
    (hDecided : action.Follows store decided) :
    (policy.permit entity.key entity.kind.name >>= fun _ => action).Follows store
      (TypedMaps.permit policy taken entity >>= fun _ => decided) := by
  have hPermit := policy.yields_permit entity.key entity.kind.name store
  rw [hStore.stored, hTaken] at hPermit
  rw [TypedMaps.permit]
  by_cases hRefused : policy = .reject ∧ taken = true
  · rw [if_pos hRefused] at hPermit ⊢
    exact hPermit.bind_error _
  · rw [if_neg hRefused] at hPermit ⊢
    cases decided with
    | ok next =>
        obtain ⟨after, hYields, hAfter⟩ := hDecided
        exact ⟨after, hPermit.bind hYields, hAfter⟩
    | error error => exact hPermit.bind hDecided

/-- First balances are given out one after the other. -/
theorem follows_apply (allocations : List Allocation) (hStore : Represents maps store) :
    (Genesis.apply ⟨allocations⟩).Follows store
      (.ok (allocations.foldl TypedMaps.allocate maps)) := by
  induction allocations generalizing maps store with
  | nil => exact ⟨store, yields_pure () store, hStore⟩
  | cons allocation allocations ih =>
      have hSet := hStore.setBalance allocation.address Identifier.native allocation.balance
      obtain ⟨after, hYields, hAfter⟩ := ih hSet
      rw [Genesis.apply_cons]
      exact ⟨after, (Balance.yields_write allocation.balance _ store).bind hYields, hAfter⟩

end Represents

/-- Every operation does to the store what it does to the maps. -/
theorem Operation.simulates (operation : Operation) (hTexts : operation.WritesTexts) :
    operation.run.Simulates (TypedMaps.operate operation) := by
  cases operation with
  | balanceGet address held =>
      exact simulates_ask fun hStore => (yields_getDecoded_ok (hStore.balance address held)).map _
  | balanceAmount address held =>
      exact simulates_ask fun hStore =>
        (Balance.yields_amount address held (hStore.balance address held)).map _
  | balanceSet address held balance =>
      exact simulates_change fun hStore =>
        ⟨_, Balance.yields_write balance _ _, hStore.setBalance address held balance⟩
  | balanceDelete address held =>
      exact simulates_change fun {maps store} hStore =>
        hStore.follows_put (yields_remove (Balance.key address held) store)
          (maps.valueAt_putBalance · (address, held) none) hStore.wellFormed
  | balanceAdd address held amount create =>
      exact simulates_change fun hStore => hStore.follows_balanceAdd address held amount create
  | balanceSub address held amount =>
      exact simulates_change fun hStore => hStore.follows_balanceSub address held amount
  | loanGet lent destination =>
      exact simulates_ask fun hStore =>
        (Loan.yields_get_ok lent destination (hStore.loan lent destination)).map _
  | loanSet lent destination amount =>
      exact simulates_change fun hStore =>
        ⟨_, Balance.yields_write amount _ _, hStore.setLoan lent destination amount⟩
  | loanAdd lent destination amount =>
      exact simulates_change fun hStore => hStore.follows_loanAdd lent destination amount
  | loanSub lent destination amount =>
      exact simulates_change fun hStore => hStore.follows_loanSub lent destination amount
  | assetGet id =>
      exact simulates_ask fun hStore => (yields_getDecoded_ok (hStore.asset id)).map _
  | assetSet id record =>
      exact simulates_change fun hStore => hStore.follows_assetSet id record
  | assetCreate id record policy =>
      exact simulates_change fun hStore =>
        hStore.follows_permit policy (.asset id) Option.isSome_map
          (hStore.follows_assetSet id record)
  | assetDelete id =>
      refine simulates_change fun {maps store} hStore => ?_
      obtain ⟨hAssets, hOthers⟩ := hStore.wellFormed
      exact hStore.follows_put (yields_remove (Asset.key id) store)
        (maps.valueAt_putAsset id · none) ⟨hAssets.put id (by simp), hOthers⟩
  | orderGet id =>
      exact simulates_ask fun hStore => (yields_getDecoded_ok (hStore.order id)).map _
  | orderSet id record =>
      exact simulates_change fun {maps store} hStore =>
        hStore.follows_put (yields_insert (Order.key id) record.encode store)
          (maps.valueAt_putOrder id · (some record)) hStore.wellFormed
  | orderDelete id =>
      exact simulates_change fun {maps store} hStore =>
        hStore.follows_put (yields_remove (Order.key id) store)
          (maps.valueAt_putOrder id · none) hStore.wellFormed
  | transactionGet id =>
      exact simulates_ask fun hStore => (yields_getDecoded_ok (hStore.transaction id)).map _
  | transactionStore id record =>
      exact simulates_change fun {maps store} hStore =>
        hStore.follows_put (yields_insert (Transaction.key id) record.encode store)
          (maps.valueAt_putTransaction id · (some record)) hStore.wellFormed
  | projectGet id =>
      exact simulates_ask fun hStore => (yields_getDecoded_ok (hStore.project id)).map _
  | projectSet policy id record =>
      obtain ⟨name, description, owner, logo, rfl⟩ := hTexts
      refine simulates_change fun {maps store} hStore => ?_
      obtain ⟨hAssets, hProjects, hUpdates⟩ := hStore.wellFormed
      refine hStore.follows_permit policy (.project id) Option.isSome_map (hStore.follows_put
        (yields_insert (Project.key id) _ store) (maps.valueAt_putProject id · (some _))
        ⟨hAssets, hProjects.put id ?_, hUpdates⟩)
      rintro _ ⟨⟩
      exact ProjectRecord.ofTexts_fillsSlots name description owner logo
  | updateGet id =>
      exact simulates_ask fun hStore => (yields_getDecoded_ok (hStore.update id)).map _
  | updateSet policy id record =>
      obtain ⟨projectId, executableHash, ipfsUrl, deviceName, version, successCount, rfl⟩ := hTexts
      refine simulates_change fun {maps store} hStore => ?_
      obtain ⟨hAssets, hProjects, hUpdates⟩ := hStore.wellFormed
      refine hStore.follows_permit policy (.update id) Option.isSome_map (hStore.follows_put
        (yields_insert (Update.key id) _ store) (maps.valueAt_putUpdate id · (some _))
        ⟨hAssets, hProjects, hUpdates.put id ?_⟩)
      rintro _ ⟨⟩
      exact UpdateRecord.ofTexts_fillsSlots projectId executableHash ipfsUrl deviceName version
        successCount
  | counterGet counter =>
      exact simulates_ask fun hStore => (yields_getDecoded_ok (hStore.counter counter)).map _
  | counterPut counter number =>
      exact simulates_change fun {maps store} hStore =>
        hStore.follows_put (yields_insert counter.key (encodeAmount number) store)
          (maps.valueAt_putCounter · counter (some number)) hStore.wellFormed

theorem LedgerStep.simulates (step : LedgerStep) (hTexts : step.WritesTexts) :
    step.run.Simulates (TypedMaps.act step) := by
  cases step with
  | operate operation => exact operation.simulates hTexts
  | found genesis =>
      exact simulates_change fun hStore => hStore.follows_apply genesis.allocations

/-- The flat store behaves like typed maps. Take any run from the empty store in which no
call fails and the records of projects and updates are built from texts. Every step, be it
a read or a write, gives the result that the typed maps give, errors included. Afterwards
the store holds exactly the bytes of the records in the maps, a reader finds what the maps
say, and there are as many keys as records. Since every beginning of a run is a run, this
holds after each step. -/
theorem store_behaves_as_typed_maps (steps : List LedgerStep)
    (hTexts : ∀ step ∈ steps, step.WritesTexts) :
    let (results, after) := runAll (steps.map LedgerStep.run) (View.ofStore ∅)
    let (expected, maps) := runAll (steps.map TypedMaps.act) TypedMaps.empty
    results = expected ∧
      (∀ entity : Entity, after.store[entity.key]? = maps.valueAt entity) ∧
      (∀ key, (∀ entity : Entity, entity.key ≠ key) → after.store[key]? = none) ∧
      (∀ lookup : Lookup, lookup.run (Reader.ofStore after.store) = .ok (maps.answer lookup)) ∧
      after.store.size = maps.size := by
  have hStep : ∀ step ∈ steps, ∀ (view : View) (maps : TypedMaps),
      view.schedule = Schedule.faultless ∧ Represents maps view.store →
        (step.run view).1 = (TypedMaps.act step maps).1 ∧
          (step.run view).2.schedule = Schedule.faultless ∧
            Represents (TypedMaps.act step maps).2 (step.run view).2.store := by
    rintro step hStep view maps ⟨hSchedule, hStore⟩
    obtain ⟨after, hYields, hAfter⟩ := step.simulates (hTexts step hStep) maps view.store hStore
    obtain ⟨hResult, hQuiet, rfl⟩ := hYields view hSchedule rfl
    exact ⟨hResult, hQuiet, hAfter⟩
  have hStart : (View.ofStore ∅).schedule = Schedule.faultless ∧
      Represents .empty (View.ofStore ∅).store := ⟨rfl, .empty⟩
  obtain ⟨hResults, -, hStore⟩ := runAll_simulates _ hStep hStart
  exact ⟨hResults, hStore.stored, hStore.nothing_else, hStore.answers, hStore.size_eq⟩

/-- A subtraction that is not covered and a second project under one identifier are refused;
the balance is then read as it was. -/
theorem refused_steps_leave_balance :
    (runAll ([.found ⟨[⟨default, 7⟩]⟩, .operate (.balanceAdd default Identifier.native 5 false),
        .operate (.balanceSub default Identifier.native 13),
        .operate (.projectSet .reject default (.ofTexts [80] [] [] [])),
        .operate (.projectSet .reject default (.ofTexts [81] [] [] [])),
        .operate (.balanceGet default Identifier.native)].map LedgerStep.run)
      (View.ofStore ∅)).1 =
    [.ok .done, .ok .done, .error (.underflow (.balance default Identifier.native) 12 13),
      .ok .done, .error (.alreadyExists "project" (Entity.project default).key),
      .ok (.amount (some 12))] := by
  have hTexts : ∀ step ∈ [LedgerStep.found ⟨[⟨default, 7⟩]⟩,
      .operate (.balanceAdd default Identifier.native 5 false),
      .operate (.balanceSub default Identifier.native 13),
      .operate (.projectSet .reject default (.ofTexts [80] [] [] [])),
      .operate (.projectSet .reject default (.ofTexts [81] [] [] [])),
      .operate (.balanceGet default Identifier.native)], step.WritesTexts := by
    simp only [List.forall_mem_cons, LedgerStep.WritesTexts, Operation.WritesTexts]
    exact ⟨trivial, trivial, trivial, ⟨[80], [], [], [], rfl⟩, ⟨[81], [], [], [], rfl⟩, trivial,
      by simp⟩
  exact (store_behaves_as_typed_maps _ hTexts).1.trans (by rfl)

end DeviceLedger
