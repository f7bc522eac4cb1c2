import DeviceLedger.Proofs.ShownRecords
import DeviceLedger.Proofs.Slots
import DeviceLedger.Proofs.WriteOnce

/-! The check of a hash against a published update. It compares the candidate with what is read
back from the second slot of the record, so it accepts one candidate, which the published hash
alone determines. -/

namespace DeviceLedger

open Fallible

namespace Update

/-- The verdict on an update that is there. -/
theorem hashMatches_of_stored {store : Store} {id : Identifier} {record : UpdateRecord}
    (hStored : store[key id]? = some record.encode) (hSlots : record.FillsSlots)
    (candidate : Bytes) :
    hashMatches (.ofStore store) id candidate =
      .ok (some (decide (candidate = Slot.trim record.executableHash))) := by
  have hVerdict : (Slot.trim record.executableHash == candidate) =
      decide (candidate = Slot.trim record.executableHash) := by
    rw [Bool.beq_comm, beq_eq_decide]
  rw [hashMatches_eq, Reader.decoded_of_stored hStored, UpdateRecord.decode_encode hSlots,
    ← hVerdict]
  rfl

/-- There is no verdict exactly where there is no record. -/
theorem hashMatches_eq_none_iff (store : Store) (id : Identifier) (candidate : Bytes) :
    hashMatches (.ofStore store) id candidate = .ok none ↔ store[key id]? = none := by
  rw [hashMatches_eq]
  cases hStored : store[key id]? with
  | none =>
      have hDecoded : (Reader.ofStore store).decoded UpdateRecord.decode (key id) = .ok none := by
        change Reply.decoded _ (.ok store[key id]?) = _
        rw [hStored]
        rfl
      rw [hDecoded]
      exact iff_of_true rfl rfl
  | some value =>
      rw [Reader.decoded_of_stored hStored]
      cases UpdateRecord.decode value with
      | ok record => exact iff_of_false nofun nofun
      | error error => exact iff_of_false nofun nofun

end Update

/-- What the check of a hash accepts. Of a hash that is published, only its first 100 bytes
count, and of these what is left when the zero bytes at both ends are taken off. Take any run
from any store, whichever calls fail in it. Once the hash was published in an update, with
whatever texts and numbers beside it, and as long as nothing else is published under the same
identifier, the check accepts this one candidate and refuses every other. So the published hash
itself is accepted exactly if it has at most 100 bytes and a zero byte at neither end. There is
no verdict exactly for an identifier without an update. -/
theorem check_accepts_one_hash :
    (∀ hash : Bytes, ∃ accepted, Slot.Strips (hash.take 100) accepted ∧
      ∀ (view : View) (steps : List LedgerStep) (policy : OverwritePolicy) (id : Identifier)
        (projectId ipfsUrl deviceName : Bytes) (version successCount : UInt8)
        (earlier later : List (LedgerStep × Except StorageError Outcome)),
      let record := UpdateRecord.ofTexts projectId hash ipfsUrl deviceName version successCount
      let (results, now) := runAll (steps.map LedgerStep.run) view
      steps.zip results = earlier ++ (.operate (.updateSet policy id record), .ok .done) :: later →
      (∀ policy other, (.operate (.updateSet policy id other), .ok .done) ∉ later) →
        (∀ candidate, Update.hashMatches (.ofStore now.store) id candidate =
          .ok (some (decide (candidate = accepted)))) ∧
        (Update.hashMatches (.ofStore now.store) id hash = .ok (some true) ↔
          hash.length ≤ 100 ∧ hash.head? ≠ some 0 ∧ hash.getLast? ≠ some 0)) ∧
    ∀ (store : Store) (id : Identifier) (candidate : Bytes),
      Update.hashMatches (.ofStore store) id candidate = .ok none ↔
        store[Update.key id]? = none := by
  refine ⟨fun hash => ?_, Update.hashMatches_eq_none_iff⟩
  refine ⟨Slot.trim (hash.take 100), Slot.strips_trim _, ?_⟩
  intro view steps policy id projectId ipfsUrl deviceName version successCount earlier later record
    hPast hLater
  have hVerdict := Update.hashMatches_of_stored (stored_until_next_update hPast hLater)
    (UpdateRecord.ofTexts_fillsSlots _ _ _ _ _ _)
  have hAccepted : Slot.trim record.executableHash = Slot.trim (hash.take 100) :=
    Slot.trim_pad hash 100
  constructor
  · intro candidate
    rw [← hAccepted]
    exact hVerdict candidate
  · rw [hVerdict, Except.ok.injEq, Option.some.injEq, decide_eq_true_iff, eq_comm]
    exact Slot.trim_pad_eq_self_iff

/-- Of 101 bytes, the first of which is zero, the 99 in the middle are accepted. The project
identifier in front of them fills its slot, and another hash is refused its place. -/
theorem middle_of_long_hash_accepted :
    let hash : Bytes := 0 :: List.replicate 100 5
    let publish (hash : Bytes) : LedgerStep := .operate (.updateSet .reject default
      (.ofTexts (List.replicate 120 7) hash [9] [9] 1 2))
    let schedule : Schedule := fun kind number =>
      if kind = .insert ∧ number = 0 then some .poisoned else none
    let now := (runAll ([publish [6], publish hash, publish [8]].map LedgerStep.run)
      ⟨∅, schedule, []⟩).2
    (∀ candidate, Update.hashMatches (.ofStore now.store) default candidate =
      .ok (some (decide (candidate = List.replicate 99 5)))) ∧
    Update.hashMatches (.ofStore now.store) default hash ≠ .ok (some true) := by
  intro hash publish schedule now
  obtain ⟨hAccepts, -⟩ := check_accepts_one_hash
  obtain ⟨accepted, hStrips, hRuns⟩ := hAccepts hash
  obtain rfl : accepted = List.replicate 99 5 := hStrips.eq_trim
  obtain ⟨hVerdicts, hOwn⟩ := hRuns ⟨∅, schedule, []⟩ [publish [6], publish hash, publish [8]]
    .reject default (List.replicate 120 7) [9] [9] 1 2 [(publish [6], .error (.state .poisoned))]
    [(publish [8], .error (.alreadyExists "update" (Update.key default)))] rfl (by simp)
  exact ⟨hVerdicts, hOwn.not.mpr (by decide)⟩

end DeviceLedger
