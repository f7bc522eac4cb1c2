import DeviceLedger.Bytes.Hex
import DeviceLedger.Digest.Blake3

/-!
Identifiers of a fixed width. An `Identifier` (of a transaction, an asset, an order, a chain, a
project or an update) has 32 bytes; an `Address` has 33, one byte for its type and 32 for its key.
Their text is hexadecimal, and they are ordered as byte strings.
-/

namespace DeviceLedger

/-- Why a text or a byte string is no value of a fixed width. -/
inductive WidthError where
  | hex (fault : Hex.Fault)
  | length (expected actual : Nat)
  deriving DecidableEq, Repr

def WidthError.message : WidthError → String
  | .hex fault => "invalid hex string: " ++ fault.message
  | .length expected actual =>
    "invalid byte length: expected " ++ toString expected ++ ", got " ++ toString actual

/-- A byte string of exactly `width` bytes. -/
@[ext] structure Fixed (width : Nat) where
  bytes : Bytes
  length_eq : bytes.length = width
  deriving DecidableEq

namespace Fixed

variable {width : Nat}

def zero (width : Nat) : Fixed width :=
  ⟨List.replicate width 0, by simp⟩

instance : Inhabited (Fixed width) := ⟨zero width⟩

/-- A byte string of the right length, as a value. -/
def ofBytes (width : Nat) (bytes : Bytes) : Except WidthError (Fixed width) :=
  if h : bytes.length = width then .ok ⟨bytes, h⟩ else .error (.length width bytes.length)

/-- Lower-case hexadecimal text. -/
def toHex (fixed : Fixed width) : String :=
  Hex.encode fixed.bytes

/-- The value that a hexadecimal text of the right length stands for. -/
def ofHex (width : Nat) (text : String) : Except WidthError (Fixed width) :=
  match Hex.decode text with
  | .error fault => .error (.hex fault)
  | .ok bytes => ofBytes width bytes

/-- Values are compared byte by byte. -/
instance : Ord (Fixed width) where
  compare first second := compare first.bytes second.bytes

@[simp] theorem ofBytes_bytes (fixed : Fixed width) : ofBytes width fixed.bytes = .ok fixed := by
  simp [ofBytes, fixed.length_eq]

end Fixed

/-- A 32-byte identifier. -/
abbrev Identifier := Fixed 32

namespace Identifier

/-- The identifier of a content: its hash. -/
def ofContent (content : Bytes) : Identifier := ⟨Blake3.hash content, Blake3.length_hash content⟩

/-- The identifier of the native asset. -/
def native : Identifier := Fixed.zero 32

def isEmpty (id : Identifier) : Bool := id == Fixed.zero 32

/-- The first four bytes in hexadecimal, as in logs. -/
def shortHex (id : Identifier) : String := Hex.encode (id.bytes.take 4)

/-- The short form that names the type. -/
def display (id : Identifier) : String := "Id(" ++ shortHex id ++ ")"

end Identifier

/-- A 33-byte account address. -/
abbrev Address := Fixed 33

namespace Address

/-- The address of a key under a type byte. -/
def ofParts (type : UInt8) (key : Identifier) : Address :=
  ⟨type :: key.bytes, by simp [key.length_eq]⟩

def type (address : Address) : UInt8 := address.bytes.headD 0

/-- The short form that names the type. -/
def display (address : Address) : String := "Address(" ++ Hex.encode (address.bytes.take 5) ++ ")"

end Address

end DeviceLedger
