import Chiptune.Decimal.Exact
/-!
# Shortest decimal text of a double-precision number

The fewest digits that read back as the same number, and of those the nearest. For each
number of digits the two neighbours on that decimal grid are tested against the interval of
reals that round to the number, whose ends belong to it when the mantissa is even.
-/

set_option autoImplicit false

namespace Chiptune.Decimal

/-- The reals that round to a number: `value`, and the ends of the interval around it. -/
structure Rounding where
  value : Ratio
  low : Ratio
  high : Ratio
  /-- The ends belong to the interval. -/
  closed : Bool

/-- The interval of a positive double-precision number. -/
def Rounding.ofDouble (x : Float) : Rounding :=
  let bits := x.toBits.toNat
  let exponent := (bits >>> 52) % 0x800
  let fraction := bits % (1 <<< 52)
  let mantissa := if exponent = 0 then fraction else (1 <<< 52) + fraction
  let quarter := Ratio.pow 2 (Int.ofNat (max exponent 1) - 1077)
  -- Below a power of two the neighbours are half as far apart.
  let below := if fraction = 0 && 1 < exponent then 1 else 2
  { value := quarter.scale (4 * mantissa)
    low := quarter.scale (4 * mantissa - below)
    high := quarter.scale (4 * mantissa + 2)
    closed := mantissa % 2 = 0 }

/-- Whether a point lies in the interval. -/
def Rounding.contains (r : Rounding) (point : Ratio) : Bool :=
  if r.closed then
    !point.less r.low && !r.high.less point
  else
    r.low.less point && point.less r.high

/-- The point nearest to the value on the grid of a power of ten, if one of the value's two
neighbours there lies in the interval. Of two at the same distance it is the even one. -/
def Rounding.nearestOn (r : Rounding) (exponent : Int) : Option Nat :=
  let step := Ratio.pow 10 exponent
  let lower := (r.value.div step).floor
  let upper := lower + 1
  match r.contains (step.scale lower), r.contains (step.scale upper) with
  | true, true => some (roundHalfEven (r.value.div step))
  | true, false => some lower
  | false, true => some upper
  | false, false => none

/-- Digits, without zeros at the end, and the power of ten of the first. -/
structure Digits where
  chars : List Char
  exponent : Int
deriving DecidableEq, Repr

/-- The fewest digits that read back as a positive number. -/
def shortest (x : Float) : Digits :=
  let r := Rounding.ofDouble x
  let leading := leadingExponent r.value
  let found := (List.range 17).findSome? fun more =>
    let exponent := leading - Int.ofNat more
    (r.nearestOn exponent).map fun n => (n, exponent)
  match found with
  | some (n, exponent) =>
    let all := digits n
    { chars := (all.reverse.dropWhile (· == '0')).reverse
      exponent := exponent + Int.ofNat all.length - 1 }
  | none => { chars := ['0'], exponent := 0 }

/-- How numbers are laid out. -/
structure FloatStyle where
  /-- Lowest power of ten of the first digit that is written out in full. -/
  minPositional : Int
  /-- Highest power of ten of the first digit that is written out in full. -/
  maxPositional : Int
deriving DecidableEq, Repr

/-- Digits with the point where it belongs; whole numbers end in `.0`. -/
def Digits.positional (d : Digits) : List Char :=
  match d.exponent with
  | .ofNat e =>
    let whole := d.chars.take (e + 1)
    let rest := d.chars.drop (e + 1)
    whole ++ List.replicate (e + 1 - whole.length) '0' ++ ['.']
      ++ (if rest.isEmpty then ['0'] else rest)
  | .negSucc e => '0' :: '.' :: (List.replicate e '0' ++ d.chars)

/-- Digits with a point after the first and a signed exponent. -/
def Digits.scientific (d : Digits) : List Char :=
  d.chars.take 1 ++ (if d.chars.length ≤ 1 then [] else '.' :: d.chars.drop 1)
    ++ ['e', if d.exponent < 0 then '-' else '+'] ++ digits d.exponent.natAbs

/-- Text of a finite number in a style. -/
def FloatStyle.render (style : FloatStyle) (x : Float) : String :=
  let negative := 1 <<< 63 ≤ x.toBits.toNat
  let text :=
    if x == 0.0 then
      "0.0".toList
    else
      let d := shortest x
      if style.minPositional ≤ d.exponent && d.exponent ≤ style.maxPositional then
        d.positional
      else
        d.scientific
  String.ofList (if negative then '-' :: text else text)

end Chiptune.Decimal
