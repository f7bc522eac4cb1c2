import DeviceLedger.Proofs.Readings
import DeviceLedger.Proofs.RecordCodec

/-! What a batch of balances comes to for any reader, also one that replies with too few or too
many results, in another order, with failures or with foreign values. The balances found are
those of the replies, one for each account; a number of replies that does not fit is reported
whatever they say, and otherwise the first reply that fails decides. -/

namespace DeviceLedger

namespace Reply

/-- What a reply tells about a balance: there is none, or it is the number in eight bytes. -/
inductive Tells : Reply → Option UInt64 → Prop where
  | absent : Tells (.ok none) none
  | amount (value : Bytes) (hLength : value.length = 8) :
      Tells (.ok (some value)) (some (Bytes.toUInt64 value))

/-- How a reply fails: the reader failed, or the value has fewer or more than eight bytes. -/
inductive Fails : Reply → StorageError → Prop where
  | failure (failure : StateError) : Fails (.error failure) (.state failure)
  | short (value : Bytes) (hLength : value.length < 8) :
      Fails (.ok (some value)) (.malformed "balance" (.short 8 0 value.length))
  | long (value : Bytes) (hLength : 8 < value.length) :
      Fails (.ok (some value)) (.malformed "balance" (.trailing (value.length - 8)))

theorem tells_or_fails (reply : Reply) : (∃ found, reply.Tells found) ∨
    ∃ error, reply.Fails error := by
  cases reply with
  | error failure => exact .inr ⟨_, .failure failure⟩
  | ok value =>
      cases value with
      | none => exact .inl ⟨none, .absent⟩
      | some value =>
          obtain hShort | hLength | hLong := Nat.lt_trichotomy value.length 8
          · exact .inr ⟨_, .short value hShort⟩
          · exact .inl ⟨_, .amount value hLength⟩
          · exact .inr ⟨_, .long value hLong⟩

variable {reply : Reply}

theorem Tells.decoded_eq {found : Option UInt64} (hTells : reply.Tells found) :
    reply.decoded Balance.decode = .ok found := by
  cases hTells with
  | absent => rfl
  | amount value hLength => simp [decoded, Balance.decode, decodeAmount_eq, hLength, Except.map]

theorem Fails.decoded_eq {error : StorageError} (hFails : reply.Fails error) :
    reply.decoded Balance.decode = .error error := by
  cases hFails with
  | failure failure => rfl
  | short value hLength => simp [decoded, Balance.decode, decodeAmount_eq, hLength, Except.map]
  | long value hLength =>
      have hNotShort : ¬value.length < 8 := by omega
      simp [decoded, Balance.decode, decodeAmount_eq, hNotShort, hLength, Except.map]

theorem decoded_eq_ok_iff {found : Option UInt64} :
    reply.decoded Balance.decode = .ok found ↔ reply.Tells found := by
  constructor
  · intro hFound
    obtain ⟨other, hTells⟩ | ⟨error, hFails⟩ := reply.tells_or_fails
    · rw [hTells.decoded_eq] at hFound
      cases hFound
      exact hTells
    · rw [hFails.decoded_eq] at hFound
      cases hFound
  · exact Tells.decoded_eq

theorem decoded_eq_error_iff {error : StorageError} :
    reply.decoded Balance.decode = .error error ↔ reply.Fails error := by
  constructor
  · intro hError
    obtain ⟨found, hTells⟩ | ⟨other, hFails⟩ := reply.tells_or_fails
    · rw [hTells.decoded_eq] at hError
      cases hError
    · rw [hFails.decoded_eq] at hError
      cases hError
      exact hFails
  · exact Fails.decoded_eq

theorem exists_tells_iff : (∃ found, reply.Tells found) ↔
    reply = .ok none ∨ ∃ value, reply = .ok (some value) ∧ value.length = 8 := by
  constructor
  · rintro ⟨found, hTells⟩
    cases hTells with
    | absent => exact .inl rfl
    | amount value hLength => exact .inr ⟨value, rfl, hLength⟩
  · rintro (rfl | ⟨value, rfl, hLength⟩)
    · exact ⟨none, .absent⟩
    · exact ⟨_, .amount value hLength⟩

end Reply

namespace Balance

variable {reader : Reader} {accounts : List (Address × Identifier)} {replies : List Reply}
  (hReplies : reader (accounts.map fun (address, asset) => key address asset) = replies)
include hReplies

/-- A batch with the right number of replies decodes them in order. -/
theorem readMany_of_length_eq (hLength : replies.length = accounts.length) :
    readMany reader accounts = replies.mapM (Reply.decoded decode) := by
  subst hReplies
  exact if_pos hLength

/-- Another number of replies is reported, whatever they say. -/
theorem readMany_of_length_ne (hLength : replies.length ≠ accounts.length) :
    readMany reader accounts = .error (.state (.backend ("expected " ++
      toString accounts.length ++ " results, got " ++ toString replies.length))) := by
  subst hReplies
  exact if_neg hLength

theorem readMany_eq_ok_iff {founds : List (Option UInt64)} :
    readMany reader accounts = .ok founds ↔ replies.length = accounts.length ∧
      replies.map (Reply.decoded decode) = founds.map .ok := by
  by_cases hLength : replies.length = accounts.length
  · rw [readMany_of_length_eq hReplies hLength, mapM_eq_ok_iff, and_iff_right hLength]
  · rw [readMany_of_length_ne hReplies hLength]
    simp [hLength]

end Balance

/-- A batch of balances follows the replies of its reader, whatever function the reader is. It
finds balances if and only if there are as many replies as accounts and each says that there
is no value or gives one of eight bytes. It then finds as many balances as there are accounts,
and the one of an account is what the reply at its place, to its key, tells. Where the numbers
differ this is the error, regardless of what the replies say. Where they agree, the batch fails
with an error if and only if the first reply that fails does so with this error: as the reader
failed, or as a malformed balance where the value has another length. -/
theorem batch_follows_replies (reader : Reader) (accounts : List (Address × Identifier)) :
    let keys := accounts.map fun (address, asset) => Balance.key address asset
    let replies := reader keys
    let batch := Balance.readMany reader accounts
    ((∃ founds, batch = .ok founds) ↔ replies.length = accounts.length ∧
      ∀ reply ∈ replies, reply = .ok none ∨
        ∃ value : Bytes, reply = .ok (some value) ∧ value.length = 8) ∧
    (∀ founds, batch = .ok founds → founds.length = accounts.length ∧
      ∀ (index : Nat) (address : Address) (asset : Identifier),
        accounts[index]? = some (address, asset) →
          ∃ reply found, keys[index]? = some (Balance.key address asset) ∧
            replies[index]? = some reply ∧ founds[index]? = some found ∧ reply.Tells found) ∧
    (replies.length ≠ accounts.length → batch = .error (.state (.backend ("expected " ++
      toString accounts.length ++ " results, got " ++ toString replies.length)))) ∧
    (replies.length = accounts.length → ∀ error, batch = .error error ↔
      ∃ (index : Nat) (reply : Reply), replies[index]? = some reply ∧ reply.Fails error ∧
        ∀ (earlier : Nat) (other : Reply), earlier < index → replies[earlier]? = some other →
          ∃ found, other.Tells found) := by
  intro keys replies batch
  have hOk : ∀ founds, batch = .ok founds ↔ replies.length = accounts.length ∧
      replies.map (Reply.decoded Balance.decode) = founds.map .ok :=
    fun _ => Balance.readMany_eq_ok_iff rfl
  have hBatch : replies.length = accounts.length →
      batch = replies.mapM (Reply.decoded Balance.decode) := Balance.readMany_of_length_eq rfl
  refine ⟨?_, ?_, Balance.readMany_of_length_ne rfl, ?_⟩
  -- from here on the batch is known by what its replies are only
  all_goals clear_value batch replies
  · simp only [hOk, exists_and_left, exists_map_ok_iff, Reply.decoded_eq_ok_iff,
      Reply.exists_tells_iff]
  · intro founds hFounds
    obtain ⟨hLength, hMap⟩ := (hOk founds).mp hFounds
    have hFoundsLength : founds.length = replies.length := by
      simpa using (congrArg List.length hMap).symm
    refine ⟨hFoundsLength.trans hLength, ?_⟩
    intro index address asset hAccount
    obtain ⟨hIndex, -⟩ := List.getElem?_eq_some_iff.mp hAccount
    have hReply : replies[index]? = some replies[index] := List.getElem?_eq_getElem _
    have hFound : founds[index]? = some founds[index] := List.getElem?_eq_getElem _
    have hDecoded := congrArg (fun results => results[index]?) hMap
    simp only [List.getElem?_map, hReply, hFound, Option.map_some, Option.some.injEq] at hDecoded
    exact ⟨replies[index], founds[index], by simp [keys, hAccount], hReply, hFound,
      Reply.decoded_eq_ok_iff.mp hDecoded⟩
  · intro hLength error
    rw [hBatch hLength]
    simp only [mapM_eq_error_iff, Reply.decoded_eq_ok_iff, Reply.decoded_eq_error_iff]

/-- A failure behind a foreign value is not reported. -/
example :
    Balance.readMany (fun _ => [.ok none, .ok (some [1, 2]), .error .poisoned])
        [(default, default), (default, default), (default, default)] =
      .error (.malformed "balance" (.short 8 0 2)) := by
  rfl

end DeviceLedger
