/-!
# Whole and fractional parts of single-precision numbers

From `2 ^ 23` on every single-precision number is whole; below, the whole part goes through
a 64-bit integer without loss.
-/

set_option autoImplicit false

namespace Chiptune.Single

/-- From here on there are no fractions. -/
def wholeFrom : Float32 := 8388608.0

/-- Fractional part of a number that is not negative. What has no fraction gives zero, what
is infinite or not a number gives no number. -/
def fractOfPos (x : Float32) : Float32 :=
  if x < wholeFrom then x - x.toUInt64.toFloat32 else x - x

/-- Fractional part, with the sign of the number. -/
def fract (x : Float32) : Float32 :=
  if x < 0.0 then -fractOfPos (-x) else fractOfPos x

/-- The nearest natural number, halves upward; zero for negative numbers and for what is not
a number. Large numbers stop at `2 ^ 64 - 1`. -/
def roundNat (x : Float32) : Nat :=
  if 0.0 < x then
    let whole := x.toUInt64.toNat
    if 0.5 ≤ fractOfPos x then whole + 1 else whole
  else
    0

end Chiptune.Single
