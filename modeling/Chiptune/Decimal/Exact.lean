/-!
# Exact decimal arithmetic

Binary fractions `m * 2 ^ q` and decimal grids as quotients of natural numbers, and the
rounding of a quotient.
-/

set_option autoImplicit false

namespace Chiptune.Decimal

/-- A quotient of natural numbers. -/
structure Ratio where
  num : Nat
  den : Nat
deriving DecidableEq, Repr

/-- A power as a quotient, also for negative exponents. -/
def Ratio.pow (base : Nat) (exponent : Int) : Ratio :=
  match exponent with
  | .ofNat e => ⟨Nat.pow base e, 1⟩
  | .negSucc e => ⟨1, Nat.pow base (e + 1)⟩

/-- Product of a number and a quotient. -/
def Ratio.scale (n : Nat) (r : Ratio) : Ratio := ⟨n * r.num, r.den⟩

/-- Quotient of two quotients. -/
def Ratio.div (r s : Ratio) : Ratio := ⟨r.num * s.den, r.den * s.num⟩

/-- Whether a quotient is less than another. -/
def Ratio.less (r s : Ratio) : Bool := r.num * s.den < s.num * r.den

/-- The largest natural number that is no larger. -/
def Ratio.floor (r : Ratio) : Nat := r.num / r.den

/-- The nearest natural number; a half goes to the even neighbour. -/
def roundHalfEven (r : Ratio) : Nat :=
  let whole := r.num / r.den
  let rest := r.num % r.den
  if 2 * rest < r.den then whole
  else if r.den < 2 * rest then whole + 1
  else if whole % 2 = 0 then whole else whole + 1

/-- Decimal digits of a number, most significant first. -/
def digits (n : Nat) : List Char := Nat.toDigits 10 n

/-- How many decimal digits a number has, none for zero. -/
def digitCount (n : Nat) : Nat := if n = 0 then 0 else (digits n).length

/-- The power of ten of the first digit of a positive quotient. -/
def leadingExponent (r : Ratio) : Int :=
  if r.den ≤ r.num then
    Int.ofNat (digitCount (r.num / r.den)) - 1
  else
    -Int.ofNat (digitCount ((r.den + r.num - 1) / r.num - 1))

/-- A quotient with a fixed number of places behind the point, halves to even. -/
def fixed (places : Nat) (r : Ratio) : String :=
  let scaled := roundHalfEven (r.scale (Nat.pow 10 places))
  let whole := toString (scaled / Nat.pow 10 places)
  if places = 0 then
    whole
  else
    let fraction := digits (scaled % Nat.pow 10 places)
    whole ++ "." ++ String.ofList (List.replicate (places - fraction.length) '0' ++ fraction)

/-- A single-precision number that is not negative and not infinite, as a quotient. -/
def ofSingle (x : Float32) : Ratio :=
  let bits := x.toBits.toNat
  let exponent := (bits >>> 23) % 0x100
  let fraction := bits % (1 <<< 23)
  if exponent = 0 then
    (Ratio.pow 2 (-149)).scale fraction
  else
    (Ratio.pow 2 (Int.ofNat exponent - 150)).scale ((1 <<< 23) + fraction)

end Chiptune.Decimal
