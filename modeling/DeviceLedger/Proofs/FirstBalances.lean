import DeviceLedger.Server
import DeviceLedger.Proofs.JsonFormats
import DeviceLedger.Proofs.Movements
import DeviceLedger.Proofs.RecordResponses

/-! First balances that are given out without failures. At every key the last allocation for the
account decides, and a key without one keeps its value; everything else follows from this. -/

namespace DeviceLedger

/-- The key of the account that an allocation is for. -/
def Allocation.key (allocation : Allocation) : Bytes :=
  Balance.key allocation.address Identifier.native

namespace Genesis

/-- The allocations for an address, in their order. -/
def allocationsFor (genesis : Genesis) (address : Address) : List Allocation :=
  genesis.allocations.filter fun allocation => allocation.address = address

/-- What the last allocation for an address gives it, and zero without one. -/
def lastBalance (genesis : Genesis) (address : Address) : UInt64 :=
  ((genesis.allocationsFor address).getLast?.map Allocation.balance).getD 0

/-- The last of the allocations for the account at a key decides what lies there. -/
theorem getElem?_foldl_grant_key (allocations : List Allocation) (store : Store) (key : Bytes) :
    (allocations.foldl grant store)[key]? =
      ((allocations.filter fun allocation => allocation.key = key).getLast?.map
        fun last => storedAmount last.balance).getD store[key]? := by
  induction allocations using List.reverseRecOn with
  | nil => rfl
  | append_singleton allocations last ih =>
      rw [List.foldl_append, List.foldl_cons, List.foldl_nil, List.filter_append, grant]
      by_cases hKey : last.key = key
      · rw [← hKey]
        simp only [List.filter_cons, decide_true, ↓reduceIte, List.filter_nil,
          List.getLast?_concat]
        exact Store.getElem?_put_self _ _ _
      · have hNone : [last].filter (fun allocation => allocation.key = key) = [] := by simp [hKey]
        rw [hNone, List.append_nil, ← ih]
        exact Store.getElem?_put_of_ne _ _ hKey _

/-- The allocations for an account are those for its address. -/
theorem filter_key (genesis : Genesis) (address : Address) :
    genesis.allocations.filter (fun allocation =>
        allocation.key = Balance.key address Identifier.native) =
      genesis.allocationsFor address := by
  have hKey (other : Address) : Balance.key other Identifier.native =
      Balance.key address Identifier.native ↔ other = address := by
    constructor
    · intro hSame
      exact (Entity.balance.inj (Entity.key_injective hSame)).1
    · rintro rfl
      rfl
  simp only [allocationsFor, Allocation.key, hKey]

theorem getElem?_foldl_grant_address (genesis : Genesis) (store : Store) (address : Address) :
    (genesis.allocations.foldl grant store)[Balance.key address Identifier.native]? =
      ((genesis.allocationsFor address).getLast?.map fun last => storedAmount last.balance).getD
        store[Balance.key address Identifier.native]? := by
  rw [getElem?_foldl_grant_key, filter_key]

theorem getElem?_foldl_grant_of_ne {allocations : List Allocation} {key : Bytes}
    (hKey : ∀ allocation ∈ allocations, allocation.key ≠ key) (store : Store) :
    (allocations.foldl grant store)[key]? = store[key]? := by
  have hNone : allocations.filter (fun allocation => allocation.key = key) = [] := by
    simpa using hKey
  rw [getElem?_foldl_grant_key, hNone]
  rfl

/-- Allocations that were begun before leave nothing behind when all are given out. -/
theorem foldl_grant_of_prefix {given allocations : List Allocation} (hGiven : given <+: allocations)
    (store : Store) :
    allocations.foldl grant (given.foldl grant store) = allocations.foldl grant store := by
  obtain ⟨rest, rfl⟩ := hGiven
  ext1 key
  simp only [← List.foldl_append, getElem?_foldl_grant_key, List.filter_append,
    List.getLast?_append]
  -- the last one is among the rest, or else among those that were given
  cases (rest.filter fun allocation => allocation.key = key).getLast? with
  | some last => rfl
  | none => simp

/-- Only the order of the allocations for one address matters. -/
theorem foldl_grant_congr {genesis reordered : Genesis}
    (hOrder : ∀ address, reordered.allocationsFor address = genesis.allocationsFor address)
    (store : Store) :
    reordered.allocations.foldl grant store = genesis.allocations.foldl grant store := by
  have hAddresses {first second : Genesis}
      (hSame : ∀ address, first.allocationsFor address = second.allocationsFor address)
      {allocation : Allocation} (hMem : allocation ∈ first.allocations) :
      allocation ∈ second.allocations := by
    have hFor : allocation ∈ second.allocationsFor allocation.address := by
      rw [← hSame, allocationsFor]
      simpa using hMem
    exact (List.mem_filter.mp hFor).1
  ext1 key
  by_cases hKey : ∃ allocation ∈ genesis.allocations, allocation.key = key
  · obtain ⟨allocation, -, rfl⟩ := hKey
    rw [Allocation.key, getElem?_foldl_grant_address, getElem?_foldl_grant_address, hOrder]
  · push Not at hKey
    rw [getElem?_foldl_grant_of_ne hKey, getElem?_foldl_grant_of_ne]
    exact fun allocation hMem => hKey allocation (hAddresses hOrder hMem)

end Genesis

open Http

section

variable {store : Store} {address : Address} {asset : Identifier} {amount : UInt64}
  (hStored : store[Balance.key address asset]? = storedAmount amount)
include hStored

/-- An amount that is stored is answered, and where nothing is stored the answer is zero. -/
theorem Service.respond_storedAmount (maxBatchKeys : Nat) {first second : String}
    (hFirst : Spells first address) (hSecond : Spells second asset) (contentType : Option String)
    (body : Bytes) :
    ((⟨.ofStore store, maxBatchKeys⟩ : Service).respond
        ⟨"GET", pathOf ["v1", "balances", first, second], contentType, body⟩).Carries 200
      (JsonFormat.toJson (⟨address, asset, amount⟩ : BalanceView)) := by
  have hParts : ∀ part ∈ ["v1", "balances", first, second], IsPart part := by
    have hName : IsPart "balances" := by simp [IsPart]
    simp [hName, hFirst.isPart, hSecond.isPart]
  obtain ⟨account, hAccount, hAddress⟩ := hFirst.found
  obtain ⟨held, hHeld, hAsset⟩ := hSecond.found
  have hClassified := Service.amount_classified (Request.gets_pathOf hParts contentType body)
    (if_neg hSecond.ne_empty) nofun Balance.decode Balance.key BalanceView.mk "address" "asset"
    hAccount hHeld rfl (rfl : (⟨.ofStore store, maxBatchKeys⟩ : Service).answer _ = _)
  have hDecided := (hClassified.accepted address hAddress).accepted asset hAsset
  have hReplies : Reader.ofStore store [Balance.key address asset] =
      [.ok (storedAmount amount)] := by
    rw [← hStored]
    rfl
  by_cases hZero : amount = 0
  · rw [storedAmount, if_pos hZero] at hReplies
    rw [hZero]
    exact hDecided.absent hReplies
  · rw [storedAmount, if_neg hZero] at hReplies
    exact hDecided.present _ amount hReplies (decodeAmount_encodeAmount "balance" amount)

end

namespace Genesis

/-- Without failures every allocation is given out. -/
theorem exists_apply_eq (genesis : Genesis) {view : View}
    (hSchedule : view.schedule = Schedule.faultless) :
    ∃ after, genesis.apply view = (.ok (), after) ∧
      after.store = genesis.allocations.foldl grant view.store := by
  obtain ⟨hResult, -, hStore⟩ := yields_apply genesis.allocations view.store view hSchedule rfl
  exact ⟨_, Prod.ext hResult rfl, hStore⟩

theorem initialStore_eq (genesis : Genesis) :
    Server.initialStore genesis = .ok (genesis.allocations.foldl grant ∅) := by
  obtain ⟨after, hApply, hStore⟩ := genesis.exists_apply_eq (rfl : (View.ofStore ∅).schedule = _)
  rw [Server.initialStore, hApply]
  exact congrArg Except.ok hStore

/-- A file with the text of a genesis is loaded as that genesis. -/
theorem loadGenesis_of_write {genesis : Genesis} {host : Host} {path : String}
    (hFile : host.readFile path = .ok (Utf8.encode (JsonFormat.write genesis))) :
    Server.loadGenesis host path = .ok genesis := by
  have hParse := (JsonFormat.faithful Genesis).parse_write genesis
  simp only [Server.loadGenesis, hFile, Utf8.strict?_encode, hParse]

/-- A new ledger holds at the account of an address what its last allocation gives it. -/
theorem getElem?_foldl_grant_empty (genesis : Genesis) (address : Address) :
    (genesis.allocations.foldl grant ∅)[Balance.key address Identifier.native]? =
      storedAmount (genesis.lastBalance address) := by
  rw [getElem?_foldl_grant_address, lastBalance]
  cases (genesis.allocationsFor address).getLast? <;> rfl

/-- Giving out first balances without failures, whatever the store holds. It succeeds. For every
address the last of its allocations decides what its account holds: nothing for zero, and
otherwise the eight bytes of the balance. All other keys keep their values. Hence doing it again
changes nothing, and nor does another order in which the allocations for each address follow each
other as before. A new server whose settings name a file with the allocations answers for every
address, in any spelling, with its last balance, or zero if there is none. -/
theorem apply_last_wins (genesis : Genesis) (view : View)
    (hSchedule : view.schedule = Schedule.faultless) :
    ∃ after : View, genesis.apply view = (.ok (), after) ∧
      (∀ (address : Address) (last : Allocation),
        (genesis.allocationsFor address).getLast? = some last →
          after.store[Balance.key address Identifier.native]? =
            if last.balance = 0 then none else some (Bytes.ofUInt64 last.balance)) ∧
      (∀ key : Bytes, (∀ allocation ∈ genesis.allocations,
          key ≠ Balance.key allocation.address Identifier.native) →
        after.store[key]? = view.store[key]?) ∧
      (∀ again : View, again.schedule = Schedule.faultless → again.store = after.store →
        ∃ twice, genesis.apply again = (.ok (), twice) ∧ twice.store = after.store) ∧
      (∀ reordered : Genesis,
        (∀ address, reordered.allocationsFor address = genesis.allocationsFor address) →
          ∃ other, reordered.apply view = (.ok (), other) ∧ other.store = after.store) ∧
      (∀ (host : Host) (settings : ServerSettings) (path : String), settings.genesis = some path →
        Server.loadGenesis host path = .ok genesis →
        ∃ server, Server.ofSettings host settings = .ok server ∧
          ∀ (address : Address) (first second : String) (contentType : Option String)
            (body : Bytes), Spells first address → Spells second Identifier.native →
            (server.service.respond
                ⟨"GET", "/v1/balances/" ++ first ++ "/" ++ second, contentType, body⟩).Carries 200
              (JsonFormat.toJson (⟨address, Identifier.native, genesis.lastBalance address⟩ :
                BalanceView))) := by
  obtain ⟨after, hApply, hStore⟩ := genesis.exists_apply_eq hSchedule
  refine ⟨after, hApply, ?_, ?_, ?_, ?_, ?_⟩
  · intro address last hLast
    rw [hStore, getElem?_foldl_grant_address, hLast]
    rfl
  · intro key hKey
    rw [hStore, getElem?_foldl_grant_of_ne fun allocation hMem => (hKey allocation hMem).symm]
  · intro again hAgain hSame
    obtain ⟨twice, hTwice, hSecond⟩ := genesis.exists_apply_eq hAgain
    refine ⟨twice, hTwice, ?_⟩
    rw [hSecond, hSame, hStore, foldl_grant_of_prefix (List.prefix_refl _)]
  · intro reordered hOrder
    obtain ⟨other, hOther, hReordered⟩ := reordered.exists_apply_eq hSchedule
    refine ⟨other, hOther, ?_⟩
    rw [hReordered, hStore, foldl_grant_congr hOrder]
  · intro host settings path hPath hLoaded
    refine ⟨⟨settings, .ofStore (genesis.allocations.foldl grant ∅)⟩, ?_, ?_⟩
    · rw [Server.ofSettings, hPath]
      simp only [hLoaded, initialStore_eq]
      rfl
    · intro address first second contentType body hFirst hSecond
      have hTarget : "/v1/balances/" ++ first ++ "/" ++ second =
          pathOf ["v1", "balances", first, second] := by
        simp [← String.toList_inj, pathOf]
      rw [hTarget]
      exact Service.respond_storedAmount (genesis.getElem?_foldl_grant_empty address) _ hFirst
        hSecond contentType body

/-- Of three allocations the last takes the first back. A server that starts with them answers
with zero and seven, and with zero for an address that has none. -/
theorem seven_given_five_taken_back :
    let alice : Address := .ofParts 0 Identifier.native
    let bob : Address := .ofParts 1 Identifier.native
    let carol : Address := .ofParts 2 Identifier.native
    let asset := Identifier.native
    let genesis : Genesis := ⟨[⟨alice, 5⟩, ⟨bob, 7⟩, ⟨alice, 0⟩]⟩
    let store : Store := (Store.put ∅ (Balance.key alice asset) (some [1])).put [9] (some [2])
    let host : Host := ⟨fun _ => .ok (Utf8.encode (JsonFormat.write genesis)), fun _ => .ok ()⟩
    let settings : ServerSettings := ⟨.loopback 9650, some "genesis.json", 256, default⟩
    (∃ after, genesis.apply (View.ofStore store) = (.ok (), after) ∧
      after.store[Balance.key alice asset]? = none ∧
      after.store[Balance.key bob asset]? = some [0, 0, 0, 0, 0, 0, 0, 7] ∧
      after.store[([9] : Bytes)]? = some [2]) ∧
    ∃ server, Server.ofSettings host settings = .ok server ∧
      ∀ address ∈ [alice, bob, carol],
        (server.service.respond
            ⟨"GET", "/v1/balances/" ++ address.toHex ++ "/" ++ asset.toHex, none, []⟩).Carries 200
          (JsonFormat.toJson (⟨address, asset, if address = bob then 7 else 0⟩ : BalanceView)) := by
  intro alice bob carol asset genesis store host settings
  obtain ⟨after, hApply, hLast, hOther, -, -, hServer⟩ :=
    apply_last_wins genesis (View.ofStore store) rfl
  obtain ⟨server, hNew, hAnswers⟩ :=
    hServer host settings "genesis.json" rfl (loadGenesis_of_write rfl)
  refine ⟨⟨after, hApply, ?_, ?_, ?_⟩, server, hNew, ?_⟩
  · exact hLast alice ⟨alice, 0⟩ (by decide)
  · exact (hLast bob ⟨bob, 7⟩ (by decide)).trans (by decide)
  · rw [hOther [9] (by decide)]
    exact Store.getElem?_put_self _ _ _
  · intro address hMem
    have hAnswer := hAnswers address _ _ none [] (Spells.of_toHex address)
      (Spells.of_toHex Identifier.native)
    have hBalance : genesis.lastBalance address = if address = bob then 7 else 0 := by
      simp only [List.mem_cons, List.not_mem_nil, or_false] at hMem
      rcases hMem with rfl | rfl | rfl <;> decide
    rw [hBalance] at hAnswer
    exact hAnswer

end Genesis

end DeviceLedger
