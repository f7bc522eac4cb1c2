import DeviceLedger.Identifier

/-!
Storage keys. A key is one byte for the kind of entity, the bytes of its identifiers in order and,
for kinds that are stored in chunks, two bytes for their number. Transactions and balances share
their first byte and are told apart by length.
-/

namespace DeviceLedger

/-- The kinds of entity that have keys. -/
inductive EntityKind where
  | transaction
  | balance
  | asset
  | order
  | loan
  | height
  | timestamp
  | fee
  | incomingWarp
  | outgoingWarp
  | project
  | update
  deriving DecidableEq, Repr

/-- How the keys of one kind are built. -/
structure KeyLayout where
  name : String
  tag : UInt8
  widths : List Nat
  chunks : Option UInt16

namespace EntityKind

/-- All kinds, in the order in which they are listed. -/
def all : List EntityKind :=
  [transaction, balance, asset, order, loan, height, timestamp, fee, incomingWarp, outgoingWarp,
    project, update]

def layout : EntityKind → KeyLayout
  | transaction => ⟨"transaction", 0x0, [32], none⟩
  | balance => ⟨"balance", 0x0, [33, 32], some 1⟩
  | asset => ⟨"asset", 0x1, [32], some 5⟩
  | order => ⟨"order", 0x2, [32], some 2⟩
  | loan => ⟨"loan", 0x3, [32, 32], some 1⟩
  | height => ⟨"height", 0x4, [], none⟩
  | timestamp => ⟨"timestamp", 0x5, [], none⟩
  | fee => ⟨"fee", 0x6, [], none⟩
  | incomingWarp => ⟨"incoming-warp", 0x7, [32, 32], none⟩
  | outgoingWarp => ⟨"outgoing-warp", 0x8, [32], none⟩
  | project => ⟨"project", 0x9, [32], some 100⟩
  | update => ⟨"update", 0xA, [32], some 100⟩

def name (kind : EntityKind) : String := kind.layout.name

/-- The first byte of its keys. -/
def tag (kind : EntityKind) : UInt8 := kind.layout.tag

/-- The number of chunks in its keys, for kinds stored in chunks. -/
def chunks (kind : EntityKind) : Option UInt16 := kind.layout.chunks

def keyLength (kind : EntityKind) : Nat :=
  kind.layout.widths.foldr (fun width total => width + total)
    (if kind.chunks.isSome then 3 else 1)

/-- The kind of a key: the first whose first byte and length are those of the key. -/
def ofKey? (key : Bytes) : Option EntityKind :=
  match key with
  | [] => none
  | first :: _ => all.find? fun kind => kind.tag == first && kind.keyLength == key.length

end EntityKind

/-- A first byte, the parts in order and, where there is one, the number of chunks. -/
def assembleKey (tag : UInt8) (parts : List Bytes) (chunks : Option UInt16) : Bytes :=
  tag :: (parts.flatten ++ (chunks.map Bytes.ofUInt16).getD [])

/-- The number of chunks in a key of a kind that has one. -/
def writtenChunks (key : Bytes) : Option UInt16 := do
  let kind ← EntityKind.ofKey? key
  let _ ← kind.chunks
  return Bytes.toUInt16 (key.drop (key.length - 2))

/-- An entity by its kind and identifiers. -/
inductive Entity where
  | transaction (id : Identifier)
  | balance (address : Address) (asset : Identifier)
  | asset (id : Identifier)
  | order (id : Identifier)
  | loan (asset destination : Identifier)
  | height
  | timestamp
  | fee
  | incomingWarp (sourceChain message : Identifier)
  | outgoingWarp (id : Identifier)
  | project (id : Identifier)
  | update (id : Identifier)
  deriving DecidableEq

namespace Entity

def kind : Entity → EntityKind
  | transaction _ => .transaction
  | balance _ _ => .balance
  | asset _ => .asset
  | order _ => .order
  | loan _ _ => .loan
  | height => .height
  | timestamp => .timestamp
  | fee => .fee
  | incomingWarp _ _ => .incomingWarp
  | outgoingWarp _ => .outgoingWarp
  | project _ => .project
  | update _ => .update

/-- The bytes of its identifiers in order. -/
def parts : Entity → List Bytes
  | transaction id => [id.bytes]
  | balance address held => [address.bytes, held.bytes]
  | asset id => [id.bytes]
  | order id => [id.bytes]
  | loan lent destination => [lent.bytes, destination.bytes]
  | height => []
  | timestamp => []
  | fee => []
  | incomingWarp sourceChain message => [sourceChain.bytes, message.bytes]
  | outgoingWarp id => [id.bytes]
  | project id => [id.bytes]
  | update id => [id.bytes]

/-- The key at which an entity is stored. -/
def key : Entity → Bytes
  | transaction id => assembleKey 0x0 [id.bytes] none
  | balance address held => assembleKey 0x0 [address.bytes, held.bytes] (some 1)
  | asset id => assembleKey 0x1 [id.bytes] (some 5)
  | order id => assembleKey 0x2 [id.bytes] (some 2)
  | loan lent destination => assembleKey 0x3 [lent.bytes, destination.bytes] (some 1)
  | height => [0x4]
  | timestamp => [0x5]
  | fee => [0x6]
  | incomingWarp sourceChain message =>
    assembleKey 0x7 [sourceChain.bytes, message.bytes] none
  | outgoingWarp id => assembleKey 0x8 [id.bytes] none
  | project id => assembleKey 0x9 [id.bytes] (some 100)
  | update id => assembleKey 0xA [id.bytes] (some 100)

end Entity

end DeviceLedger
