import Chiptune.Decimal.Exact
/-!
# Reading single-precision numbers

The grammar: an optional sign; then `inf`, `infinity` or `nan` in any case, or digits with an
optional point among or around them and an optional exponent. At least one digit is needed,
and one in an exponent. The result is the nearest number, halves to even.
-/

set_option autoImplicit false

namespace Chiptune.Decimal

/-- Why a text is not a number. -/
inductive ReadFault where
  | empty
  | invalid
deriving DecidableEq, Repr

/-- Wording of the fault. -/
def ReadFault.message : ReadFault → String
  | empty => "cannot parse float from empty string"
  | invalid => "invalid float literal"

/-- Leading decimal digits, and what follows them. -/
def spanDigits (cs : List Char) : List Char × List Char :=
  (cs.takeWhile Char.isDigit, cs.dropWhile Char.isDigit)

/-- Number that digits stand for. -/
def valueOf (ds : List Char) : Nat := ds.foldl (fun n c => 10 * n + (c.toNat - 48)) 0

/-- A sign, and what follows it. -/
def readSign : List Char → Bool × List Char
  | '-' :: rest => (true, rest)
  | '+' :: rest => (false, rest)
  | cs => (false, cs)

/-- An exponent that ends the text; no text is an exponent of zero. -/
def readExponent : List Char → Option Int
  | [] => some 0
  | c :: rest =>
    if c == 'e' || c == 'E' then
      let (negative, rest) := readSign rest
      let (ds, tail) := spanDigits rest
      if ds.isEmpty || !tail.isEmpty then
        none
      else
        some (if negative then -Int.ofNat (valueOf ds) else Int.ofNat (valueOf ds))
    else
      none

/-- A decimal number `coefficient * 10 ^ exponent`. -/
structure Scaled where
  coefficient : Nat
  exponent : Int
deriving DecidableEq, Repr

/-- Digits with an optional point and exponent that make up the whole text. -/
def readScaled (cs : List Char) : Option Scaled :=
  let (whole, rest) := spanDigits cs
  let (fraction, rest) :=
    match rest with
    | '.' :: rest => spanDigits rest
    | _ => ([], rest)
  if whole.isEmpty && fraction.isEmpty then
    none
  else
    (readExponent rest).map fun exponent =>
      { coefficient := valueOf (whole ++ fraction)
        exponent := exponent - Int.ofNat fraction.length }

/-- Infinity in single precision. -/
def infinity : Float32 := 1.0 / 0.0

/-- What is not a number. -/
def notANumber : Float32 := 0.0 / 0.0

/-- The nearest single-precision number. Magnitudes far outside the range are settled
without computing their power of ten. -/
def Scaled.toSingle (s : Scaled) : Float32 :=
  let leading := s.exponent + Int.ofNat (digitCount s.coefficient)
  if s.coefficient = 0 || leading < -60 then
    0.0
  else if 60 < leading then
    infinity
  else
    Float32.ofScientific s.coefficient (s.exponent < 0) s.exponent.natAbs

/-- A text in small letters that names a special value. -/
def readSpecial (cs : List Char) : Option Float32 :=
  let word := String.ofList (cs.map Char.toLower)
  if word = "inf" || word = "infinity" then some infinity
  else if word = "nan" then some notANumber
  else none

/-- Reads a single-precision number. -/
def readSingle (text : String) : Except ReadFault Float32 :=
  match text.toList with
  | [] => .error .empty
  | cs =>
    let (negative, cs) := readSign cs
    match ((readScaled cs).map Scaled.toSingle).or (readSpecial cs) with
    | some x => .ok (if negative then -x else x)
    | none => .error .invalid

end Chiptune.Decimal
