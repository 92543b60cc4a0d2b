import Chiptune.Decimal.Read
import Chiptune.Json.Fault
/-!
# Numbers of a JSON text

Whole numbers that fit 64 bits are read exactly. All others become double-precision numbers
by one multiplication or division with a power of ten, so that the result can be off in its
last place. A number that is skipped is checked for its form alone.
-/

set_option autoImplicit false

namespace Chiptune.Json

/-- A number that was read. -/
inductive Number where
  | unsigned (value : Nat)
  | negative (value : Int)
  | float (value : Float)

/-- The number as a found value. -/
def Number.found : Number → Found
  | unsigned value => .integer value
  | negative value => .integer value
  | float value => .float value

/-- Largest whole number that is read exactly. -/
def maxUnsigned : Nat := UInt64.size - 1

/-- Magnitude of the lowest negative number that is read exactly. -/
def maxNegative : Nat := UInt64.size / 2

/-- Largest exponent that is taken in. -/
def maxExponent : Nat := UInt32.size / 2 - 1

/-- Largest power of ten that a number is scaled by in one step. -/
def maxScale : Nat := 308

/-- Ten to a power in double precision. -/
def powerOfTen (exponent : Nat) : Float := Float.ofScientific 1 false exponent

/-- Scales a number by a power of ten, none if it grows beyond all bounds. Small numbers are
divided in steps until they fit or vanish. -/
def scale (fuel : Nat) (x : Float) (exponent : Int) : Option Float :=
  if exponent.natAbs ≤ maxScale then
    if 0 ≤ exponent then
      let y := x * powerOfTen exponent.natAbs
      if y == 1.0 / 0.0 then none else some y
    else
      some (x / powerOfTen exponent.natAbs)
  else if x == 0.0 then
    some x
  else if 0 ≤ exponent then
    none
  else
    match fuel with
    | 0 => some 0.0
    | fuel + 1 => scale fuel (x / powerOfTen maxScale) (exponent + maxScale)

/-- Steps after which every number has vanished: two reach below the smallest. -/
def scaleSteps : Nat := 4

/-- A number with a sign; a negative zero keeps it. -/
def signed (negative : Bool) (x : Float) : Float := if negative then -x else x

/-- The number made of a significand and an exponent, in front of what is left. -/
def assemble (negative : Bool) (significand : Nat) (exponent : Int) (rest : List Char) :
    Except Fault (Read Float) :=
  match scale scaleSteps significand.toUInt64.toFloat exponent with
  | some x => .ok (signed negative x, rest)
  | none => .error (.here .numberOutOfRange rest)

/-- Digits of an exponent behind its first; none in place of a number that is too large. -/
def exponentDigits : Nat → List Char → Option Nat × List Char
  | n, c :: rest =>
    if c.isDigit then
      let grown := 10 * n + (c.toNat - 48)
      if maxExponent < grown then (none, rest) else exponentDigits grown rest
    else
      (some n, c :: rest)
  | n, [] => (some n, [])

/-- An exponent behind its letter. -/
def readExponent (negative : Bool) (significand : Nat) (base : Int) (cs : List Char) :
    Except Fault (Read Float) :=
  let (down, cs) := Decimal.readSign cs
  match cs with
  | [] => .error (.here .endOfValue cs)
  | c :: rest =>
    if c.isDigit then
      match exponentDigits (c.toNat - 48) rest with
      | (some n, rest) =>
        assemble negative significand (if down then base - Int.ofNat n else base + Int.ofNat n)
          rest
      | (none, rest) =>
        if significand != 0 && !down then
          .error (.here .numberOutOfRange rest)
        else
          .ok (signed negative 0.0, rest.dropWhile Char.isDigit)
    else
      .error (.past .invalidNumber 1 cs)

/-- What may follow the digits of a number: an exponent, or nothing. -/
def readTail (negative : Bool) (significand : Nat) (exponent : Int) (cs : List Char) :
    Except Fault (Read Float) :=
  match cs with
  | c :: rest =>
    if c = 'e' || c = 'E' then readExponent negative significand exponent rest
    else assemble negative significand exponent cs
  | [] => assemble negative significand exponent cs

/-- Digits behind the point, taken in while the significand fits 64 bits; gives the
significand, the number of digits taken in and what is left. -/
def fractionDigits : Nat → Nat → List Char → Nat × Nat × List Char
  | significand, taken, c :: rest =>
    if c.isDigit then
      let grown := 10 * significand + (c.toNat - 48)
      if maxUnsigned < grown then
        (significand, taken, c :: rest)
      else
        fractionDigits grown (taken + 1) rest
    else
      (significand, taken, c :: rest)
  | significand, taken, [] => (significand, taken, [])

/-- The part of a number behind its point. -/
def readFraction (negative : Bool) (significand : Nat) (exponent : Int) (cs : List Char) :
    Except Fault (Read Float) :=
  let (significand, taken, rest) := fractionDigits significand 0 cs
  let beyond := rest.dropWhile Char.isDigit
  if taken = 0 && beyond.length = rest.length then
    .error (.next (if rest.isEmpty then .endOfValue else .invalidNumber) rest)
  else
    readTail negative significand (exponent - Int.ofNat taken) beyond

/-- A whole number that does not fit 64 bits: the digits that are left count as places. -/
def readLong (negative : Bool) (significand : Nat) (cs : List Char) : Except Fault (Read Float) :=
  let (more, rest) := Decimal.spanDigits cs
  match rest with
  | '.' :: rest => readFraction negative significand (Int.ofNat more.length) rest
  | _ => readTail negative significand (Int.ofNat more.length) rest

/-- A number whose digits before the point or exponent fit 64 bits. -/
def finish (negative : Bool) (significand : Nat) (cs : List Char) : Except Fault (Read Number) :=
  match cs with
  | '.' :: rest => do
    let (x, rest) ← readFraction negative significand 0 rest
    pure (.float x, rest)
  | c :: rest =>
    if c = 'e' || c = 'E' then do
      let (x, rest) ← readExponent negative significand 0 rest
      pure (.float x, rest)
    else
      .ok (whole, cs)
  | [] => .ok (whole, cs)
where
  /-- The number without fraction and exponent. -/
  whole : Number :=
    if !negative then
      .unsigned significand
    else if significand = 0 || maxNegative < significand then
      .float (-significand.toUInt64.toFloat)
    else
      .negative (-Int.ofNat significand)

/-- Digits of a whole number behind its first. -/
def wholeDigits (negative : Bool) : Nat → List Char → Except Fault (Read Number)
  | significand, c :: rest =>
    if c.isDigit then
      let grown := 10 * significand + (c.toNat - 48)
      if maxUnsigned < grown then do
        let (x, rest) ← readLong negative significand (c :: rest)
        pure (.float x, rest)
      else
        wholeDigits negative grown rest
    else
      finish negative significand (c :: rest)
  | significand, [] => finish negative significand []

/-- A number behind its sign. A leading zero stands alone. -/
def readNumber (negative : Bool) (cs : List Char) : Except Fault (Read Number) :=
  match cs with
  | [] => .error (.here .endOfValue cs)
  | c :: rest =>
    if c = '0' then
      match rest with
      | d :: _ =>
        if d.isDigit then .error (.next .invalidNumber rest) else finish negative 0 rest
      | [] => finish negative 0 rest
    else if c.isDigit then
      wholeDigits negative (c.toNat - 48) rest
    else
      .error (.past .invalidNumber 1 cs)

/-- Skips an exponent behind its letter. -/
def skipExponent (cs : List Char) : Except Fault (List Char) :=
  let cs := (Decimal.readSign cs).2
  match cs with
  | c :: rest =>
    if c.isDigit then .ok (rest.dropWhile Char.isDigit)
    else .error (.past .invalidNumber 1 cs)
  | [] => .error (.here .invalidNumber cs)

/-- Skips what may follow the digits of a number. -/
def skipTail (cs : List Char) : Except Fault (List Char) :=
  match cs with
  | c :: rest => if c = 'e' || c = 'E' then skipExponent rest else .ok cs
  | [] => .ok cs

/-- Skips a fraction, if there is one, and what follows. -/
def skipFraction (cs : List Char) : Except Fault (List Char) :=
  match cs with
  | '.' :: rest =>
    let (ds, rest) := Decimal.spanDigits rest
    if ds.isEmpty then .error (.next .invalidNumber rest) else skipTail rest
  | _ => skipTail cs

/-- Skips a number behind its sign. -/
def skipNumber (cs : List Char) : Except Fault (List Char) :=
  match cs with
  | [] => .error (.here .invalidNumber cs)
  | c :: rest =>
    if c = '0' then
      match rest with
      | d :: _ => if d.isDigit then .error (.next .invalidNumber rest) else skipFraction rest
      | [] => skipFraction rest
    else if c.isDigit then
      skipFraction (rest.dropWhile Char.isDigit)
    else
      .error (.past .invalidNumber 1 cs)

end Chiptune.Json
