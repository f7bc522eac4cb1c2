import DeviceLedger.CommandLine.Failure
import DeviceLedger.CommandLine.Invocation
import DeviceLedger.Json.Value

/-!
The command that prints the storage key of an entity.
-/

namespace DeviceLedger.CommandLine

/-- The value of a fixed width that was written for a field. -/
def fixed (width : Nat) (field written : String) : Except Failure (Fixed width) :=
  (Fixed.ofHex width written).mapError (.identifier field written)

/-- The identifier that was written for a field. -/
def identifier (field written : String) : Except Failure Identifier := fixed 32 field written

/-- The entity of a kind whose identifiers were written in order. There is none if their number is
not that of the kind. -/
def entityOf? : EntityKind → List String → Option (Except Failure Entity)
  | .transaction, [id] => some (.transaction <$> identifier "id" id)
  | .balance, [address, held] => some do
    let address ← fixed 33 "address" address
    return .balance address (← identifier "asset" held)
  | .asset, [id] => some (.asset <$> identifier "id" id)
  | .order, [id] => some (.order <$> identifier "id" id)
  | .loan, [lent, destination] => some do
    let lent ← identifier "asset" lent
    return .loan lent (← identifier "destination" destination)
  | .height, [] => some (.ok .height)
  | .timestamp, [] => some (.ok .timestamp)
  | .fee, [] => some (.ok .fee)
  | .incomingWarp, [sourceChain, message] => some do
    let sourceChain ← identifier "source chain" sourceChain
    return .incomingWarp sourceChain (← identifier "message" message)
  | .outgoingWarp, [id] => some (.outgoingWarp <$> identifier "id" id)
  | .project, [id] => some (.project <$> identifier "id" id)
  | .update, [id] => some (.update <$> identifier "id" id)
  | _, _ => none

def keyObject (entity : Entity) : Json := .sortedObject [
  ("entity", .text entity.kind.name),
  ("key", .text (Hex.encode entity.key)),
  ("len", .nat entity.key.length),
  ("chunks", (entity.kind.chunks.map fun chunks => Json.nat chunks.toNat).getD .null)]

def keyLines (entity : Entity) : String :=
  entity.kind.name ++ ": " ++ Hex.encode entity.key ++ "\n  " ++ toString entity.key.length ++
    " bytes, chunks " ++ (entity.kind.chunks.map fun chunks => toString chunks.toNat).getD "-" ++
    "\n"

/-- The key of an entity in a format. -/
def showKey (entity : Entity) : OutputFormat → String
  | .text => keyLines entity
  | .json => (keyObject entity).pretty ++ "\n"

end DeviceLedger.CommandLine
