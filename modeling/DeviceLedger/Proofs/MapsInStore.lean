import DeviceLedger.Proofs.Effects
import DeviceLedger.Proofs.KeySpace
import DeviceLedger.Proofs.TypedMaps

/-! A store that holds the records of typed maps and nothing else. Since no two entities
share a key, writing one record leaves all others as they are; since records are read
back from their bytes, every reader finds what the maps say. -/

namespace DeviceLedger

/-- What is known about one key when the value there is the encoding of what is found. -/
theorem Reply.decoded_map {α : Type} {decode : Bytes → Except StorageError α}
    {encode : α → Bytes} {found : Option α}
    (hDecode : ∀ record, found = some record → decode (encode record) = .ok record) :
    Reply.decoded decode (.ok (found.map encode)) = .ok found := by
  cases found with
  | none => rfl
  | some record =>
      rw [Option.map_some, Reply.decoded, hDecode record rfl]
      rfl

theorem storedAmount_eq (amount : UInt64) :
    storedAmount amount =
      ((RecordedAmount.of? amount).map Subtype.val).map encodeAmount := by
  rw [storedAmount, RecordedAmount.of?]
  split <;> rfl

/-- The counter that an entity is. -/
def Entity.counter? : Entity → Option Counter
  | .height => some .height
  | .timestamp => some .timestamp
  | .fee => some .fee
  | _ => none

theorem Counter.entity_eq_iff (counter : Counter) (entity : Entity) :
    counter.entity = entity ↔ entity.counter? = some counter := by
  cases counter <;> cases entity <;> simp [Counter.entity, Entity.counter?]

theorem Counter.entity_injective : Function.Injective Counter.entity := by
  intro first second hEntity
  cases first <;> cases second <;> first | rfl | cases hEntity

namespace TypedMaps

/-- The records are such that they are read back from their bytes. -/
def WellFormed (maps : TypedMaps) : Prop :=
  maps.assets.All AssetRecord.Fits ∧ maps.projects.All ProjectRecord.FillsSlots ∧
    maps.updates.All UpdateRecord.FillsSlots

/-- The entities that have records. -/
def entities (maps : TypedMaps) : Multiset Entity :=
  maps.balances.keys.val.map (fun account => .balance account.1 account.2) +
    maps.loans.keys.val.map (fun loan => .loan loan.1 loan.2) +
    maps.assets.keys.val.map .asset + maps.orders.keys.val.map .order +
    maps.transactions.keys.val.map .transaction + maps.projects.keys.val.map .project +
    maps.updates.keys.val.map .update + maps.counters.keys.val.map Counter.entity

theorem card_entities (maps : TypedMaps) : maps.entities.card = maps.size := by
  simp [entities, size]

theorem mem_entities (maps : TypedMaps) (entity : Entity) :
    entity ∈ maps.entities ↔ (maps.valueAt entity).isSome := by
  cases entity <;>
    simp [entities, valueAt, Amounts.find, Finmap.lookup_isSome, Finmap.mem_keys,
      Counter.entity_eq_iff, Entity.counter?]

/-- No entity is counted twice: neither in its own map, nor in two of them. -/
theorem nodup_entities (maps : TypedMaps) : maps.entities.Nodup := by
  have hBalances : (maps.balances.keys.val.map fun account =>
      Entity.balance account.1 account.2).Nodup := by
    apply maps.balances.keys.nodup.map
    intro first second hEntity
    obtain ⟨hAddress, hHeld⟩ := Entity.balance.inj hEntity
    exact Prod.ext hAddress hHeld
  have hLoans : (maps.loans.keys.val.map fun loan => Entity.loan loan.1 loan.2).Nodup := by
    apply maps.loans.keys.nodup.map
    intro first second hEntity
    obtain ⟨hLent, hDestination⟩ := Entity.loan.inj hEntity
    exact Prod.ext hLent hDestination
  have hCounters := maps.counters.keys.nodup.map Counter.entity_injective
  have hApart : ∀ (entity : Entity) (counter : Counter),
      entity = counter.entity ↔ entity.counter? = some counter := by
    intro entity counter
    rw [← Counter.entity_eq_iff]
    exact eq_comm
  simp [entities, Multiset.nodup_add, Multiset.disjoint_map_map, hBalances, hLoans, hCounters,
    Multiset.nodup_map_iff_inj_on (Finset.nodup _), hApart, Entity.counter?]

end TypedMaps

/-- The store holds the record of every entity that has one in the maps, at its key and in
its bytes, and nothing else. -/
structure Represents (maps : TypedMaps) (store : Store) : Prop where
  stored : ∀ entity : Entity, store[entity.key]? = maps.valueAt entity
  nothing_else : ∀ key, (∀ entity : Entity, entity.key ≠ key) → store[key]? = none
  wellFormed : maps.WellFormed

namespace Represents

theorem empty : Represents .empty ∅ := by
  refine ⟨?_, ?_, Table.all_empty _, Table.all_empty _, Table.all_empty _⟩
  · intro entity
    cases entity <;> simp [TypedMaps.valueAt, TypedMaps.empty, Amounts.find]
  · intro key _
    simp

variable {maps next : TypedMaps} {store : Store}

/-- Writing the record of one entity, in the store and in the maps. -/
theorem put (hStore : Represents maps store) {entity : Entity} {value : Option Bytes}
    (hNext : ∀ other, next.valueAt other =
      if entity = other then value else maps.valueAt other)
    (hWellFormed : next.WellFormed) : Represents next (store.put entity.key value) := by
  refine ⟨?_, ?_, hWellFormed⟩
  · intro other
    rw [Store.getElem?_put, hNext, hStore.stored]
    exact if_congr Entity.key_injective.eq_iff rfl rfl
  · intro key hKey
    rw [Store.getElem?_put, if_neg (hKey entity)]
    exact hStore.nothing_else key hKey

/-- There are as many keys as there are records. -/
theorem size_eq (hStore : Represents maps store) : store.size = maps.size := by
  have hMem : ∀ key, key ∈ store.keys ↔ ∃ entity ∈ maps.entities, entity.key = key := by
    intro key
    rw [Std.ExtTreeMap.mem_keys, Std.ExtTreeMap.mem_iff_isSome_getElem?]
    constructor
    · intro hKey
      by_contra hNone
      push Not at hNone
      have hForeign : ∀ entity : Entity, entity.key ≠ key := by
        rintro entity rfl
        rw [hStore.stored, ← TypedMaps.mem_entities] at hKey
        exact hNone entity hKey rfl
      rw [hStore.nothing_else key hForeign] at hKey
      cases hKey
    · rintro ⟨entity, hEntity, rfl⟩
      rw [hStore.stored]
      exact (TypedMaps.mem_entities maps entity).mp hEntity
  have hKeys : (store.keys : Multiset Bytes) = maps.entities.map Entity.key := by
    refine (Multiset.Nodup.ext (Multiset.coe_nodup.mpr Std.ExtTreeMap.nodup_keys)
      (maps.nodup_entities.map Entity.key_injective)).mpr fun key => ?_
    rw [Multiset.mem_coe, Multiset.mem_map]
    exact hMem key
  rw [← Std.ExtTreeMap.length_keys, ← Multiset.coe_card, hKeys, Multiset.card_map,
    TypedMaps.card_entities]

/-- What lies at the key of an entity is decoded to the entity's record. -/
theorem decoded (hStore : Represents maps store) {α : Type} {entity : Entity}
    {decode : Bytes → Except StorageError α} {encode : α → Bytes} {found : Option α}
    (hValue : maps.valueAt entity = found.map encode)
    (hDecode : ∀ record, found = some record → decode (encode record) = .ok record) :
    Reply.decoded decode (.ok store[entity.key]?) = .ok found := by
  rw [hStore.stored, hValue]
  exact Reply.decoded_map hDecode

theorem balance (hStore : Represents maps store) (address : Address) (held : Identifier) :
    Reply.decoded Balance.decode (.ok store[Balance.key address held]?) =
      .ok (maps.balances.find (address, held)) :=
  hStore.decoded rfl fun amount _ => decodeAmount_encodeAmount "balance" amount

theorem loan (hStore : Represents maps store) (lent destination : Identifier) :
    Reply.decoded Loan.decode (.ok store[Loan.key lent destination]?) =
      .ok (maps.loans.find (lent, destination)) :=
  hStore.decoded rfl fun amount _ => decodeAmount_encodeAmount "loan" amount

theorem asset (hStore : Represents maps store) (id : Identifier) :
    Reply.decoded AssetRecord.decode (.ok store[Asset.key id]?) = .ok (maps.assets.lookup id) :=
  hStore.decoded rfl fun record hRecord =>
    AssetRecord.decode_layout (hStore.wellFormed.1 id record hRecord)

theorem order (hStore : Represents maps store) (id : Identifier) :
    Reply.decoded OrderRecord.decode (.ok store[Order.key id]?) = .ok (maps.orders.lookup id) :=
  hStore.decoded rfl fun record _ => record.decode_encode

theorem transaction (hStore : Represents maps store) (id : Identifier) :
    Reply.decoded TransactionRecord.decode (.ok store[Transaction.key id]?) =
      .ok (maps.transactions.lookup id) :=
  hStore.decoded rfl fun record _ => record.decode_encode

theorem project (hStore : Represents maps store) (id : Identifier) :
    Reply.decoded ProjectRecord.decode (.ok store[Project.key id]?) =
      .ok (maps.projects.lookup id) :=
  hStore.decoded rfl fun record hRecord =>
    ProjectRecord.decode_encode (hStore.wellFormed.2.1 id record hRecord)

theorem update (hStore : Represents maps store) (id : Identifier) :
    Reply.decoded UpdateRecord.decode (.ok store[Update.key id]?) =
      .ok (maps.updates.lookup id) :=
  hStore.decoded rfl fun record hRecord =>
    UpdateRecord.decode_encode (hStore.wellFormed.2.2 id record hRecord)

theorem counter (hStore : Represents maps store) (counter : Counter) :
    Reply.decoded counter.decode (.ok store[counter.key]?) = .ok (maps.counters.lookup counter) :=
  hStore.decoded (maps.valueAt_counter counter) fun number _ =>
    decodeAmount_encodeAmount counter.name number

/-- Balances asked for in one batch are found as if each was asked for alone. -/
theorem readMany (hStore : Represents maps store) (accounts : List (Address × Identifier)) :
    Balance.readMany (Reader.ofStore store) accounts =
      .ok (accounts.map maps.balances.find) := by
  rw [Balance.readMany, if_pos (by simp [Reader.ofStore])]
  induction accounts with
  | nil => rfl
  | cons account accounts ih =>
      simp only [Reader.ofStore, List.map_cons, List.mapM_cons] at ih ⊢
      rw [ih, hStore.balance]
      rfl

/-- A reader of the store finds what the maps say. -/
theorem answers (hStore : Represents maps store) (lookup : Lookup) :
    lookup.run (Reader.ofStore store) = .ok (maps.answer lookup) := by
  cases lookup with
  | balance address held => exact congrArg (Except.map _) (hStore.balance address held)
  | balances accounts => exact congrArg (Except.map _) (hStore.readMany accounts)
  | loan lent destination =>
      rw [Lookup.run, Loan.read_ofStore, hStore.loan]
      rfl
  | asset id => exact congrArg (Except.map _) (hStore.asset id)
  | order id => exact congrArg (Except.map _) (hStore.order id)
  | project id => exact congrArg (Except.map _) (hStore.project id)
  | update id => exact congrArg (Except.map _) (hStore.update id)
  | hashMatches id candidate =>
      have hRead : Update.read (Reader.ofStore store) id = .ok (maps.updates.lookup id) :=
        hStore.update id
      rw [Lookup.run, Update.hashMatches, hRead]
      rfl
  | counter counter => exact congrArg (Except.map _) (hStore.counter counter)

end Represents

end DeviceLedger
