import DeviceLedger.Text.Utf8

/-!
Slots of a fixed width, filled up with zero bytes on the right. A slot cannot tell a value that ends
in zero bytes from its padding, so `trim` takes zero bytes off both ends.
-/

namespace DeviceLedger.Slot

/-- A byte string cut to a width, or filled up to it with zero bytes. -/
def pad (value : Bytes) (width : Nat) : Bytes :=
  value.take width ++ List.replicate (width - value.length) 0

/-- A byte string without the zero bytes at its two ends. -/
def trim (slot : Bytes) : Bytes :=
  (((slot.dropWhile (· == 0)).reverse).dropWhile (· == 0)).reverse

def text (slot : Bytes) : String :=
  Utf8.lossy (trim slot)

@[simp] theorem length_pad (value : Bytes) (width : Nat) : (pad value width).length = width := by
  simp [pad]
  omega

end DeviceLedger.Slot
