import DeviceLedger.Genesis
import DeviceLedger.Ledger.Operation
import DeviceLedger.Proofs.RecordCodec
import DeviceLedger.Proofs.SingleRecord

/-! Every operation acts on the record of its target only, and what it writes there has
the canonical form of the target's kind. -/

namespace DeviceLedger

/-- A value in the form in which records of a kind are written: it is accepted by the
decoder of that kind, and the decoded record has these bytes again. Balances and loans of
zero are not written, and nothing is written for warp messages. -/
def EntityKind.Canonical (kind : EntityKind) (value : Bytes) : Prop :=
  match kind with
  | .transaction => ∃ record, TransactionRecord.decode value = .ok record ∧ record.encode = value
  | .balance => ∃ amount, Balance.decode value = .ok amount ∧ encodeAmount amount = value ∧
      amount ≠ 0
  | .asset => ∃ record, AssetRecord.decode value = .ok record ∧ record.encode = .ok value
  | .order => ∃ record, OrderRecord.decode value = .ok record ∧ record.encode = value
  | .loan => ∃ amount, Loan.decode value = .ok amount ∧ encodeAmount amount = value ∧ amount ≠ 0
  | .height => ∃ number, Counter.height.decode value = .ok number ∧ encodeAmount number = value
  | .timestamp => ∃ number, Counter.timestamp.decode value = .ok number ∧
      encodeAmount number = value
  | .fee => ∃ number, Counter.fee.decode value = .ok number ∧ encodeAmount number = value
  | .project => ∃ record, ProjectRecord.decode value = .ok record ∧ record.encode = value
  | .update => ∃ record, UpdateRecord.decode value = .ok record ∧ record.encode = value
  | .incomingWarp => False
  | .outgoingWarp => False

namespace Operation

/-- The records of projects and updates that an operation writes are built from texts, cut
or filled up to their slots. -/
def WritesTexts : Operation → Prop
  | projectSet _ _ record => ∃ name description owner logo,
      record = ProjectRecord.ofTexts name description owner logo
  | updateSet _ _ record => ∃ projectId executableHash ipfsUrl deviceName version successCount,
      record = UpdateRecord.ofTexts projectId executableHash ipfsUrl deviceName version successCount
  | _ => True

open DeviceLedger.Action

theorem reads_permit (policy : OverwritePolicy) (key : Bytes) (entity : String) :
    Reads key (policy.permit key entity) := by
  refine .get _ fun found => ?_
  cases found with
  | none => exact .pure ()
  | some value =>
      cases policy with
      | allowCollision => exact .pure ()
      | reject => exact .result (.error (.alreadyExists entity key))

theorem reads_loanGet (asset destination : Identifier) :
    Reads (Loan.key asset destination) (Loan.get asset destination) := by
  refine .get _ fun found => ?_
  cases found with
  | none => exact .pure 0
  | some value => exact .result (Loan.decode value)

variable {Writable : Bytes → Prop}

/-- An amount of zero is removed, any other is written. -/
theorem edits_write {key : Bytes} {amount : UInt64}
    (hAmount : amount ≠ 0 → Writable (encodeAmount amount)) :
    Edits key Writable (Balance.write key amount) := by
  rw [Balance.write]
  split
  · exact .of_remove
  · rename_i hZero
    exact .of_insert (hAmount hZero)

/-- An amount that passes its check is written, one that does not is refused. -/
theorem edits_checked_write {key : Bytes} {amount : UInt64} {passes : Prop} [Decidable passes]
    (error : StorageError) (hAmount : amount ≠ 0 → Writable (encodeAmount amount)) :
    Edits key Writable (if passes then Balance.write key amount else throw error) := by
  split
  · exact edits_write hAmount
  · exact .throw error

theorem edits_balanceAdd (address : Address) (asset : Identifier) (amount : UInt64)
    (create : Bool) (hWritable : ∀ sum, sum ≠ 0 → Writable (encodeAmount sum)) :
    Edits (Balance.key address asset) Writable (Balance.add address asset amount create) := by
  refine (Reads.getDecoded Balance.decode).bind_edits fun found => ?_
  cases found with
  | none =>
      cases create with
      | false => exact .pure ()
      | true => exact edits_checked_write _ (hWritable _)
  | some current => exact edits_checked_write _ (hWritable _)

theorem edits_balanceSub (address : Address) (asset : Identifier) (amount : UInt64)
    (hWritable : ∀ rest, rest ≠ 0 → Writable (encodeAmount rest)) :
    Edits (Balance.key address asset) Writable (Balance.sub address asset amount) :=
  (Reads.getDecoded Balance.decode).bind_edits fun _ => edits_checked_write _ (hWritable _)

theorem edits_loanAdd (asset destination : Identifier) (amount : UInt64)
    (hWritable : ∀ sum, sum ≠ 0 → Writable (encodeAmount sum)) :
    Edits (Loan.key asset destination) Writable (Loan.add asset destination amount) :=
  (reads_loanGet asset destination).bind_edits fun _ => edits_checked_write _ (hWritable _)

theorem edits_loanSub (asset destination : Identifier) (amount : UInt64)
    (hWritable : ∀ rest, rest ≠ 0 → Writable (encodeAmount rest)) :
    Edits (Loan.key asset destination) Writable (Loan.sub asset destination amount) :=
  (reads_loanGet asset destination).bind_edits fun _ => edits_checked_write _ (hWritable _)

/-- A record that does not fit is refused before the store is touched. -/
theorem edits_assetSet (id : Identifier) (record : AssetRecord)
    (hWritable : record.Fits → Writable record.layout) :
    Edits (Asset.key id) Writable (Asset.set id record) := by
  rw [Asset.set]
  by_cases hFits : record.Fits
  · rw [AssetRecord.encode_of_fits hFits]
    exact .of_insert (hWritable hFits)
  · rw [AssetRecord.encode_of_not_fits hFits]
    exact .result _

theorem canonical_balance {amount : UInt64} (hAmount : amount ≠ 0) :
    EntityKind.balance.Canonical (encodeAmount amount) :=
  ⟨amount, decodeAmount_encodeAmount "balance" amount, rfl, hAmount⟩

theorem canonical_loan {amount : UInt64} (hAmount : amount ≠ 0) :
    EntityKind.loan.Canonical (encodeAmount amount) :=
  ⟨amount, decodeAmount_encodeAmount "loan" amount, rfl, hAmount⟩

theorem canonical_asset {record : AssetRecord} (hFits : record.Fits) :
    EntityKind.asset.Canonical record.layout :=
  ⟨record, AssetRecord.decode_layout hFits, AssetRecord.encode_of_fits hFits⟩

theorem canonical_counter (counter : Counter) (number : UInt64) :
    counter.entity.kind.Canonical (encodeAmount number) := by
  cases counter <;> exact ⟨number, decodeAmount_encodeAmount _ number, rfl⟩

/-- An operation that only writes comes to what its action comes to. -/
theorem writing_apply (action : Action Unit) (view : View) :
    writing action view = ((action view).1.map fun _ => .done, (action view).2) := by
  rw [writing, Fallible.bind_apply]
  cases action view with
  | mk result after => cases result <;> rfl

/-- An operation reads and writes at the key of its target only, and what it can write
there is canonical. -/
theorem edits (operation : Operation) :
    Edits operation.target.key
      (fun value => operation.WritesTexts → operation.target.kind.Canonical value)
      operation.run := by
  cases operation with
  | balanceGet address held => exact (Reads.getDecoded Balance.decode).edits.map _
  | balanceAmount address held =>
      exact ((Reads.getDecoded Balance.decode).edits.map _).map _
  | balanceSet address held balance =>
      exact (edits_write fun hAmount _ => canonical_balance hAmount).map _
  | balanceDelete address held => exact Edits.of_remove.map _
  | balanceAdd address held amount create =>
      exact (edits_balanceAdd address held amount create fun _ hSum _ =>
        canonical_balance hSum).map _
  | balanceSub address held amount =>
      exact (edits_balanceSub address held amount fun _ hRest _ => canonical_balance hRest).map _
  | loanGet lent destination => exact (reads_loanGet lent destination).edits.map _
  | loanSet lent destination amount =>
      exact (edits_write fun hAmount _ => canonical_loan hAmount).map _
  | loanAdd lent destination amount =>
      exact (edits_loanAdd lent destination amount fun _ hSum _ => canonical_loan hSum).map _
  | loanSub lent destination amount =>
      exact (edits_loanSub lent destination amount fun _ hRest _ => canonical_loan hRest).map _
  | assetGet id => exact (Reads.getDecoded AssetRecord.decode).edits.map _
  | assetSet id record =>
      exact (edits_assetSet id record fun hFits _ => canonical_asset hFits).map _
  | assetCreate id record policy =>
      exact ((reads_permit policy (Asset.key id) "asset").bind_edits fun _ =>
        edits_assetSet id record fun hFits _ => canonical_asset hFits).map _
  | assetDelete id => exact Edits.of_remove.map _
  | orderGet id => exact (Reads.getDecoded OrderRecord.decode).edits.map _
  | orderSet id record =>
      exact (Edits.of_insert fun _ => ⟨record, record.decode_encode, rfl⟩).map _
  | orderDelete id => exact Edits.of_remove.map _
  | transactionGet id => exact (Reads.getDecoded TransactionRecord.decode).edits.map _
  | transactionStore id record =>
      exact (Edits.of_insert fun _ => ⟨record, record.decode_encode, rfl⟩).map _
  | projectGet id => exact (Reads.getDecoded ProjectRecord.decode).edits.map _
  | projectSet policy id record =>
      refine ((reads_permit policy (Project.key id) "project").bind_edits fun _ =>
        Edits.of_insert ?_).map _
      rintro ⟨name, description, owner, logo, rfl⟩
      exact ⟨_, ProjectRecord.decode_encode (ProjectRecord.ofTexts_fillsSlots _ _ _ _), rfl⟩
  | updateGet id => exact (Reads.getDecoded UpdateRecord.decode).edits.map _
  | updateSet policy id record =>
      refine ((reads_permit policy (Update.key id) "update").bind_edits fun _ =>
        Edits.of_insert ?_).map _
      rintro ⟨projectId, executableHash, ipfsUrl, deviceName, version, successCount, rfl⟩
      exact ⟨_, UpdateRecord.decode_encode (UpdateRecord.ofTexts_fillsSlots _ _ _ _ _ _), rfl⟩
  | counterGet counter => exact (Reads.getDecoded counter.decode).edits.map _
  | counterPut counter number =>
      exact (Edits.of_insert fun _ => canonical_counter counter number).map _

end Operation

/-- A step of a ledger's history: an operation on one record, or giving out first balances. -/
inductive LedgerStep where
  | operate (operation : Operation)
  | found (genesis : Genesis)

namespace LedgerStep

def run : LedgerStep → Action Outcome
  | operate operation => operation.run
  | found genesis => Operation.writing genesis.apply

/-- The records of projects and updates that a step writes are built from texts. -/
def WritesTexts : LedgerStep → Prop
  | operate operation => operation.WritesTexts
  | found _ => True

end LedgerStep

/-- First balances are given out one by one. A failure leaves those before it in place. -/
theorem Genesis.apply_cons (allocation : Allocation) (allocations : List Allocation) :
    Genesis.apply ⟨allocation :: allocations⟩ =
      (Balance.set allocation.address Identifier.native allocation.balance >>= fun _ =>
        Genesis.apply ⟨allocations⟩) :=
  List.forM_cons

end DeviceLedger
