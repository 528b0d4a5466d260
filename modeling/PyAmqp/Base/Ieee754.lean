import Mathlib.Data.Nat.Log
import Mathlib.Algebra.Order.Ring.Nat
import PyAmqp.Base.Binary64

/-!
Binary64 and binary32 bit patterns. `widen` is exact; `narrow` rounds to nearest,
ties to even, and has no result where a finite number leaves the binary32 range.
A signalling NaN becomes quiet, as conversions make it.
-/

namespace Ieee754

def widen (x : UInt32) : UInt64 :=
  let sign := x.toNat / 2 ^ 31
  let exponent := x.toNat / 2 ^ 23 % 256
  let fraction := x.toNat % 2 ^ 23
  let magnitude :=
    if exponent = 255 then
      let quiet := if fraction = 0 then 0 else fraction ||| 2 ^ 22
      2047 * 2 ^ 52 + quiet * 2 ^ 29
    else if exponent = 0 then
      if fraction = 0 then 0
      else
        let lead := Nat.log2 fraction
        (lead + 874) * 2 ^ 52 + (fraction - 2 ^ lead) * 2 ^ (52 - lead)
    else (exponent + 896) * 2 ^ 52 + fraction * 2 ^ 29
  UInt64.ofNat (sign * 2 ^ 63 + magnitude)

def narrow (x : UInt64) : Option UInt32 :=
  let sign := x.toNat / 2 ^ 63
  let exponent := x.toNat / 2 ^ 52 % 2048
  let fraction := x.toNat % 2 ^ 52
  if exponent = 2047 then
    let quiet := if fraction = 0 then 0 else fraction / 2 ^ 29 ||| 2 ^ 22
    some (UInt32.ofNat (sign * 2 ^ 31 + 255 * 2 ^ 23 + quiet))
  else
    -- 897 is the biased exponent of the least normal binary32 number.
    let shift := 29 + (897 - exponent)
    let significand := 2 ^ 52 + fraction
    let kept := significand / 2 ^ shift
    let lost := significand % 2 ^ shift
    let half := 2 ^ (shift - 1)
    let rounded := if half < lost ∨ (lost = half ∧ kept % 2 = 1) then kept + 1 else kept
    let magnitude := (exponent - 897) * 2 ^ 23 + rounded
    if 255 * 2 ^ 23 ≤ magnitude then none
    else some (UInt32.ofNat (sign * 2 ^ 31 + magnitude))

/-- The float nearest to a number, none where that is too large. -/
def ofRat (negative : Bool) (magnitude : ℚ) : Option UInt64 :=
  let value := Binary64.nearest magnitude
  let exponent := Binary64.exponent value
  let significand := ⌊value / 2 ^ exponent⌋
  let bits := if value = 0 then 0 else ((exponent + 1074) * 2 ^ 52 + significand).toNat
  if bits < 2047 * 2 ^ 52 then some (UInt64.ofNat (negative.toNat * 2 ^ 63 + bits)) else none

example : ofRat true (1 / 10) = some 0xBFB999999999999A := by decide +kernel

def infinity (negative : Bool) : UInt64 := UInt64.ofNat (negative.toNat * 2 ^ 63 + 2047 * 2 ^ 52)

def quietNaN (negative : Bool) : UInt64 := UInt64.ofNat (negative.toNat * 2 ^ 63 + 4095 * 2 ^ 51)

def isZero (x : UInt64) : Bool := x.toNat % 2 ^ 63 = 0

/-- The integer part, towards zero; none for infinities and NaNs. -/
def truncate (x : UInt64) : Option Int :=
  let exponent := x.toNat / 2 ^ 52 % 2048
  let significand := 2 ^ 52 + x.toNat % 2 ^ 52
  if exponent = 2047 then none
  else
    let whole : Nat :=
      if exponent < 1023 then 0
      else if exponent < 1075 then significand / 2 ^ (1075 - exponent)
      else significand * 2 ^ (exponent - 1075)
    some (if 2 ^ 63 ≤ x.toNat then -whole else whole)

def isNaN (x : UInt64) : Bool :=
  x.toNat / 2 ^ 52 % 2048 = 2047 ∧ x.toNat % 2 ^ 52 ≠ 0

example : narrow 0x3FF0000000000000 = some 0x3F800000 := by decide
example : narrow 0x47EFFFFFF0000000 = none := by decide
example : widen 0x00000001 = 0x36A0000000000000 := by decide

end Ieee754
