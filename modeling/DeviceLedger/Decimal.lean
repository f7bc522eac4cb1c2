/-!
Decimal numbers beside the range of double precision. A decimal is a number of digits times a power
of ten. `isTooLarge` rounds the decimal as a whole, `isTooLargeStepwise` rounds the digits, the
power and their product one by one; near the bound the two differ.
-/

namespace DeviceLedger.Decimal

/-- The least number that is rounded beyond the greatest double-precision number: half a step above
it. -/
def overflowBound : Nat := Nat.pow 2 1024 - Nat.pow 2 970

/-- Whether a decimal is rounded beyond the greatest double-precision number. Decimals of another
order of magnitude than the bound are told by their count of digits. -/
def isTooLarge (digits : Nat) (scale : Int) : Bool :=
  if digits = 0 then false
  else
    let magnitude : Int := (Nat.toDigits 10 digits).length + scale
    if 310 < magnitude then true
    else if magnitude < 300 then false
    else if scale < 0 then decide (overflowBound * Nat.pow 10 (-scale).toNat ≤ digits)
    else decide (overflowBound ≤ digits * Nat.pow 10 scale.toNat)

/-- The nearest number of at most 53 binary digits and a power of two; of two that are equally near,
the one whose digits are even. -/
def roundBinary (number : Nat) : Nat :=
  let unit := 1 <<< (number.log2 + 1 - 53)
  let digits := number / unit
  let rest := number % unit
  let roundsUp := unit < 2 * rest ∨ (unit = 2 * rest ∧ digits % 2 = 1)
  (if roundsUp then digits + 1 else digits) * unit

/-- Whether a decimal becomes greater than every double-precision number if its digits and its power
of ten are rounded first and then multiplied. Dividing by a power of ten never does that. -/
def isTooLargeStepwise (digits : Nat) : Int → Bool
  | .ofNat power =>
    digits != 0 &&
      (decide (308 < power) ||
        decide (overflowBound ≤ roundBinary digits * roundBinary (Nat.pow 10 power)))
  | .negSucc _ => false

end DeviceLedger.Decimal
