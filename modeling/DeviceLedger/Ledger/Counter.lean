import DeviceLedger.Ledger.Action
import DeviceLedger.Entity
import DeviceLedger.Record.Cursor

/-!
The three counters of the chain.
-/

namespace DeviceLedger

/-- A counter of the chain. -/
inductive Counter where
  | height
  | timestamp
  | fee
  deriving DecidableEq, Repr

namespace Counter

/-- All counters, in the order in which they are listed. -/
def all : List Counter := [height, timestamp, fee]

def name : Counter → String
  | height => "height"
  | timestamp => "timestamp"
  | fee => "fee"

def ofName? (text : String) : Option Counter :=
  all.find? fun counter => counter.name == text

def entity : Counter → Entity
  | height => .height
  | timestamp => .timestamp
  | fee => .fee

def key (counter : Counter) : Bytes := counter.entity.key

def decode (counter : Counter) (value : Bytes) : Except StorageError UInt64 :=
  decodeAmount counter.name value

/-- The number of a counter, if it was ever put. -/
def get (counter : Counter) : Action (Option UInt64) :=
  Action.getDecoded counter.decode counter.key

def put (counter : Counter) (number : UInt64) : Action Unit :=
  Action.insert counter.key (encodeAmount number)

/-- The number of a counter as a reader sees it. -/
def read (reader : Reader) (counter : Counter) : Except StorageError (Option UInt64) :=
  reader.decoded counter.decode counter.key

end Counter

end DeviceLedger
