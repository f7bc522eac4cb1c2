import DeviceLedger.Proofs.Effects

/-! What is read of a record, through the view that writes or through a reader. Both decode
what is said about one key, be it a value, its absence or a failure; so they find the same
in the same store, whatever lies there. A batch finds what its accounts find one by one. -/

namespace DeviceLedger

namespace Reply

variable {α β : Type}

/-- A result that is come to unless the reply is a failure. -/
def unlessFailed (reply : Reply) (result : Except StorageError α) : Except StorageError α :=
  match reply with
  | .ok _ => result
  | .error failure => .error (.state failure)

/-- What is found in a reply that is known up to failure. -/
theorem map_decoded_eq {decode : Bytes → Except StorageError α} {reply : Reply}
    {found : Option α}
    (hFound : ∀ value, reply = .ok value → decoded decode (.ok value) = .ok found)
    (present : Option α → β) :
    (decoded decode reply).map present = reply.unlessFailed (.ok (present found)) := by
  cases reply with
  | error failure => rfl
  | ok value =>
      rw [hFound value rfl]
      rfl

end Reply

namespace View

/-- What the view says about a key is so, unless it fails. -/
theorem get_honest {view : View} {key : Bytes} {value : Option Bytes}
    (hReply : (view.get key).1 = .ok value) : value = view.store[key]? := by
  rw [get] at hReply
  split at hReply
  · cases hReply
  · exact (Except.ok.inj hReply).symm

end View

namespace Reader

/-- What a reader says about one key is so in a store. It may fail, on any key. -/
def Honest (reader : Reader) (store : Store) : Prop :=
  ∀ key value, reader.one key = .ok value → value = store[key]?

theorem honest_ofStore (store : Store) : (ofStore store).Honest store := by
  intro key value hReply
  exact (Except.ok.inj hReply).symm

/-- A reader that is distorted fails where it does not tell the truth. -/
theorem honest_distort (store : Store) (distortion : Distortion) :
    ((ofStore store).distort distortion).Honest store := by
  intro key value hReply
  cases distortion with
  | none => exact honest_ofStore store key value hReply
  | empty => cases hReply
  | short => cases hReply
  | extra => cases hReply
  | all failure => cases hReply
  | «at» index failure =>
      cases index with
      | zero => cases hReply
      | succ index => exact honest_ofStore store key value hReply

end Reader

namespace Action

/-- A record that is read through the view is decoded from the view's reply. -/
theorem getDecoded_result {α : Type} (decode : Bytes → Except StorageError α) (key : Bytes)
    (view : View) : (getDecoded decode key view).1 = Reply.decoded decode (view.get key).1 := by
  rw [getDecoded, get_bind_apply, View.get]
  cases view.nextFailure .get with
  | some failure => rfl
  | none =>
      cases hStored : view.store[key]? with
      | none => rfl
      | some value =>
          simp only [Reply.decoded]
          cases decode value <;> rfl

end Action

/-- Every computation of a list succeeds. -/
theorem mapM_eq_ok {ε α β : Type} {first : α → Except ε β} {list : List α} {founds : List β}
    (hFounds : list.map first = founds.map .ok) : list.mapM first = .ok founds := by
  induction list generalizing founds with
  | nil =>
      obtain rfl := List.map_eq_nil_iff.mp hFounds.symm
      rfl
  | cons head tail ih =>
      obtain ⟨found, rest, rfl, hHead, hTail⟩ := List.map_eq_cons_iff.mp hFounds.symm
      rw [List.mapM_cons, ← hHead, ih hTail.symm]
      rfl

/-- Computations that succeed give what comes after them their results. -/
theorem mapM_bind_eq {ε α β γ : Type} {first : α → Except ε β} {list : List α} {founds : List β}
    (hFounds : list.map first = founds.map .ok) (next : β → Except ε γ) :
    (list.mapM fun item => first item >>= next) = founds.mapM next := by
  change list.mapM ((· >>= next) ∘ first) = _
  rw [← List.mapM_map, hFounds, List.mapM_map]
  rfl

/-- The first computation of a list that fails decides. -/
theorem mapM_eq_error {ε α β : Type} {first : α → Except ε β} {earlier later : List α} {item : α}
    {founds : List β} {error : ε} (hEarlier : earlier.map first = founds.map .ok)
    (hError : first item = .error error) :
    (earlier ++ item :: later).mapM first = .error error := by
  rw [List.mapM_append, mapM_eq_ok hEarlier, List.mapM_cons, hError]
  rfl

/-- The computations of a list all succeed, or one of them is the first to fail. -/
theorem map_ok_or_error {ε α β : Type} (first : α → Except ε β) (list : List α) :
    (∃ founds : List β, list.map first = founds.map .ok) ∨
    ∃ (earlier later : List α) (item : α) (founds : List β) (error : ε),
      list = earlier ++ item :: later ∧ earlier.map first = founds.map .ok ∧
      first item = .error error := by
  induction list with
  | nil => exact .inl ⟨[], rfl⟩
  | cons head tail ih =>
      cases hHead : first head with
      | error error => exact .inr ⟨[], tail, head, [], error, rfl, rfl, hHead⟩
      | ok found =>
          obtain ⟨founds, hFounds⟩ | ⟨earlier, later, item, founds, error, rfl, hFounds, hError⟩ :=
            ih
          · exact .inl ⟨found :: founds, by simp [hHead, hFounds]⟩
          · exact .inr ⟨head :: earlier, later, item, found :: founds, error, rfl,
              by simp [hHead, hFounds], hError⟩

/-- Only computations that all succeed give a list of results. -/
theorem mapM_eq_ok_iff {ε α β : Type} {first : α → Except ε β} {list : List α}
    {founds : List β} : list.mapM first = .ok founds ↔ list.map first = founds.map .ok := by
  constructor
  · intro hAll
    obtain ⟨others, hOthers⟩ | ⟨earlier, later, item, others, error, rfl, hEarlier, hError⟩ :=
      map_ok_or_error first list
    · rw [mapM_eq_ok hOthers] at hAll
      cases hAll
      exact hOthers
    · rw [mapM_eq_error hEarlier hError] at hAll
      cases hAll
  · exact mapM_eq_ok

/-- Computations that each succeed give a list of results. -/
theorem exists_map_ok_iff {ε α β : Type} {first : α → Except ε β} {list : List α} :
    (∃ founds : List β, list.map first = founds.map .ok) ↔
      ∀ item ∈ list, ∃ found, first item = .ok found := by
  constructor
  · rintro ⟨founds, hFounds⟩ item hItem
    have hMem : first item ∈ founds.map Except.ok := by
      rw [← hFounds]
      exact List.mem_map_of_mem hItem
    obtain ⟨found, -, hFound⟩ := List.mem_map.mp hMem
    exact ⟨found, hFound.symm⟩
  · intro hEach
    obtain hFounds | ⟨earlier, later, item, founds, error, rfl, -, hError⟩ :=
      map_ok_or_error first list
    · exact hFounds
    · obtain ⟨found, hFound⟩ := hEach item (by simp)
      rw [hError] at hFound
      cases hFound

/-- A list fails as the computation at the lowest index that fails. -/
theorem mapM_eq_error_iff {ε α β : Type} {first : α → Except ε β} {list : List α} {error : ε} :
    list.mapM first = .error error ↔ ∃ (index : Nat) (item : α), list[index]? = some item ∧
      first item = .error error ∧
      ∀ (earlier : Nat) (other : α), earlier < index → list[earlier]? = some other →
        ∃ found, first other = .ok found := by
  constructor
  · intro hFails
    obtain ⟨founds, hFounds⟩ | ⟨earlier, later, item, founds, cause, rfl, hEarlier, hError⟩ :=
      map_ok_or_error first list
    · rw [mapM_eq_ok hFounds] at hFails
      cases hFails
    · rw [mapM_eq_error hEarlier hError] at hFails
      cases hFails
      refine ⟨earlier.length, item, by simp, hError, ?_⟩
      intro index other hIndex hOther
      rw [List.getElem?_append_left hIndex] at hOther
      exact exists_map_ok_iff.mp ⟨founds, hEarlier⟩ other (List.mem_of_getElem? hOther)
  · rintro ⟨index, item, hItem, hError, hEarlier⟩
    obtain ⟨hIndex, rfl⟩ := List.getElem?_eq_some_iff.mp hItem
    have hFront : ∀ other ∈ list.take index, ∃ found, first other = .ok found := by
      intro other hOther
      obtain ⟨earlier, hLt, rfl⟩ := List.mem_take_iff_getElem.mp hOther
      exact hEarlier earlier _ (by omega) (List.getElem?_eq_getElem _)
    obtain ⟨founds, hFounds⟩ := exists_map_ok_iff.mpr hFront
    have hSplit : list = list.take index ++ list[index] :: list.drop (index + 1) := by simp
    rw [hSplit]
    exact mapM_eq_error hFounds hError

/-- What is read through a view of a store in which no call fails. -/
theorem getDecoded_ofStore {α : Type} (decode : Bytes → Except StorageError α) (key : Bytes)
    (store : Store) :
    (Action.getDecoded decode key (View.ofStore store)).1 =
      (Reader.ofStore store).decoded decode key :=
  Action.getDecoded_result decode key (View.ofStore store)

/-- A batch of a reader that replies to each key by itself finds what its accounts find one by
one. -/
theorem Balance.readMany_map (reply : Bytes → Reply) (accounts : List (Address × Identifier)) :
    readMany (fun keys => keys.map reply) accounts =
      accounts.mapM fun account => read (fun keys => keys.map reply) account.1 account.2 := by
  rw [readMany, if_pos (by simp), List.map_map, List.mapM_map]
  rfl

/-- A batch of a reader of the store finds what its accounts find one by one. -/
theorem Balance.readMany_ofStore (store : Store) (accounts : List (Address × Identifier)) :
    readMany (Reader.ofStore store) accounts =
      accounts.mapM fun account => (get account.1 account.2 (View.ofStore store)).1 := by
  have hOne : (fun account : Address × Identifier =>
      (get account.1 account.2 (View.ofStore store)).1) =
        fun account => read (Reader.ofStore store) account.1 account.2 := by
    funext account
    exact getDecoded_ofStore decode (key account.1 account.2) store
  rw [hOne]
  exact readMany_map (fun key => .ok store[key]?) accounts

/-- Readers of a store and the view that writes find the same, whatever lies in the store:
the same record, its absence, or the same reason why a value is none. A batch of balances
finds those of its accounts in order, or fails as the first of them that fails. -/
theorem readers_agree_with_view (store : Store) :
    (∀ address asset, Balance.read (Reader.ofStore store) address asset =
      (Balance.get address asset (View.ofStore store)).1) ∧
    (∀ asset destination, Loan.read (Reader.ofStore store) asset destination =
      (Loan.get asset destination (View.ofStore store)).1) ∧
    (∀ id, Asset.read (Reader.ofStore store) id = (Asset.get id (View.ofStore store)).1) ∧
    (∀ id, Order.read (Reader.ofStore store) id = (Order.get id (View.ofStore store)).1) ∧
    (∀ id, Project.read (Reader.ofStore store) id = (Project.get id (View.ofStore store)).1) ∧
    (∀ id, Update.read (Reader.ofStore store) id = (Update.get id (View.ofStore store)).1) ∧
    (∀ counter : Counter, counter.read (Reader.ofStore store) =
      (counter.get (View.ofStore store)).1) ∧
    (∀ (accounts : List (Address × Identifier)) (founds : List (Option UInt64)),
      accounts.map (fun (address, asset) => (Balance.get address asset (View.ofStore store)).1) =
        founds.map .ok →
      Balance.readMany (Reader.ofStore store) accounts = .ok founds) ∧
    (∀ (earlier later : List (Address × Identifier)) (address : Address) (asset : Identifier)
        (founds : List (Option UInt64)) (error : StorageError),
      earlier.map (fun (address, asset) => (Balance.get address asset (View.ofStore store)).1) =
        founds.map .ok →
      (Balance.get address asset (View.ofStore store)).1 = .error error →
      Balance.readMany (Reader.ofStore store) (earlier ++ (address, asset) :: later) =
        .error error) := by
  refine ⟨?_, ?_, ?_, ?_, ?_, ?_, ?_, ?_, ?_⟩
  · intro address asset
    exact (getDecoded_ofStore Balance.decode _ store).symm
  · intro asset destination
    rw [Loan.read_ofStore]
    exact (Loan.yields_get asset destination store (View.ofStore store) rfl rfl).1.symm
  · intro id
    exact (getDecoded_ofStore AssetRecord.decode _ store).symm
  · intro id
    exact (getDecoded_ofStore OrderRecord.decode _ store).symm
  · intro id
    exact (getDecoded_ofStore ProjectRecord.decode _ store).symm
  · intro id
    exact (getDecoded_ofStore UpdateRecord.decode _ store).symm
  · intro counter
    exact (getDecoded_ofStore counter.decode _ store).symm
  · intro accounts founds hFounds
    rw [Balance.readMany_ofStore]
    exact mapM_eq_ok hFounds
  · intro earlier later address asset founds error hEarlier hError
    rw [Balance.readMany_ofStore]
    exact mapM_eq_error hEarlier hError

/-- A batch that repeats an account finds it twice, and fails at a value that is none. -/
theorem batch_fails_at_foreign_value :
    let foreign : Address := .ofParts 1 default
    let store : Store :=
      (Store.put ∅ (Balance.key default default) (some [0, 0, 0, 0, 0, 0, 0, 7])).put
        (Balance.key foreign default) (some [1])
    Balance.readMany (Reader.ofStore store) [(default, default), (default, default)] =
      .ok [some 7, some 7] ∧
    Balance.readMany (Reader.ofStore store)
        [(default, default), (foreign, default), (default, default)] =
      .error (.malformed "balance" (.short 8 0 1)) := by
  intro foreign store
  obtain ⟨-, -, -, -, -, -, -, hFounds, hFails⟩ := readers_agree_with_view store
  exact ⟨hFounds _ [some 7, some 7] (by rfl),
    hFails [(default, default)] [(default, default)] foreign default [some 7] _ (by rfl) (by rfl)⟩

end DeviceLedger
