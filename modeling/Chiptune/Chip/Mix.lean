/-!
# Output mixer

The nonlinear sums of the voices' levels, in mono and panned stereo, and their conversion to
16-bit samples. All arithmetic is single precision, in the order written.
-/

set_option autoImplicit false

namespace Chiptune

/-- Levels of the five voices at one moment, with the noise period that pans the noise. -/
structure Levels where
  pulse1 : Nat := 0
  pulse2 : Nat := 0
  triangle : Nat := 0
  noise : Nat := 0
  dmc : Nat := 0
  noisePeriod : Nat := 0
deriving DecidableEq, Repr

namespace Mix

/-- Louder pulses make up for the split between the sides. -/
def stereoPulseBoost : Float32 := 1.4

/-- Share of a leaning voice on its near side. -/
def panMajor : Float32 := 0.7

/-- Share of a leaning voice on its far side. -/
def panMinor : Float32 := 0.3

/-- A level as a number to compute with. -/
@[inline] def scale (level : Nat) : Float32 := level.toUInt64.toFloat32

/-- Output of the pulse group for a sum of levels. -/
def pulseGroup (sum : Float32) : Float32 :=
  if 0.0 < sum then 95.52 / (8128.0 / sum + 100.0) else 0.0

/-- Output of the triangle, noise and delta group for a weighted sum of levels. -/
def tripleGroup (index : Float32) : Float32 :=
  if 0.0 < index then 163.67 / (24329.0 / index + 100.0) else 0.0

/-- Mono mix. -/
def mono (l : Levels) : Float32 :=
  let pulses := scale l.pulse1 + scale l.pulse2
  let triple := 3.0 * scale l.triangle + 2.0 * scale l.noise + scale l.dmc
  pulseGroup pulses + tripleGroup triple

/-- Stereo mix. The first pulse leans left and the second right; the noise moves from left
to right as its period grows; triangle and delta voice stay in the centre. -/
def stereo (l : Levels) : Float32 × Float32 :=
  let p1 := scale l.pulse1 * stereoPulseBoost
  let p2 := scale l.pulse2 * stereoPulseBoost
  let pan := scale (l.noisePeriod % 16) / 15.0 * 0.4
  let noiseLeft := scale l.noise * (panMajor - pan)
  let noiseRight := scale l.noise * (panMinor + pan)
  let centered := 3.0 * scale l.triangle + scale l.dmc
  let left := pulseGroup (p1 * panMajor + p2 * panMinor)
    + tripleGroup (centered + 2.0 * noiseLeft)
  let right := pulseGroup (p1 * panMinor + p2 * panMajor)
    + tripleGroup (centered + 2.0 * noiseRight)
  (left, right)

/-- Bounds a sample to the range from -1 to 1. What is not a number stays so. -/
def clampUnit (x : Float32) : Float32 :=
  if x < -1.0 then -1.0 else if 1.0 < x then 1.0 else x

/-- A sample as a 16-bit number, cut off toward zero. What is not a number gives zero. -/
def toPcm (x : Float32) : Int16 :=
  let y := clampUnit x * 32767.0
  if y < 0.0 then -(-y).toUInt16.toInt16 else y.toUInt16.toInt16

end Mix

end Chiptune
