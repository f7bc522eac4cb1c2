import DeviceLedger.Ledger.Action

/-!
What happens when a record that should be written once is written again, and the storage settings
that choose it.
-/

namespace DeviceLedger

/-- Whether a record that is there already may be written over. -/
inductive OverwritePolicy where
  | allowCollision
  | reject
  deriving DecidableEq, Repr

instance : Inhabited OverwritePolicy := ⟨.allowCollision⟩

namespace OverwritePolicy

def name : OverwritePolicy → String
  | allowCollision => "allow_collision"
  | reject => "reject"

def ofName? (text : String) : Option OverwritePolicy :=
  [allowCollision, reject].find? fun policy => policy.name == text

/-- Look whether a key may be written: an absent key may, a key that is there only if the policy
allows it. The key is read under either policy. -/
def permit (policy : OverwritePolicy) (key : Bytes) (entity : String) : Action Unit := do
  match ← Action.get key, policy with
  | none, _ => return ()
  | some _, allowCollision => return ()
  | some _, reject => throw (.alreadyExists entity key)

end OverwritePolicy

/-- The settings of the storage. -/
structure StorageSettings where
  overwrite : OverwritePolicy
  deriving DecidableEq, Repr

instance : Inhabited StorageSettings := ⟨⟨.allowCollision⟩⟩

end DeviceLedger
