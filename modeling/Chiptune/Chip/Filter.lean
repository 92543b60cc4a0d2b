/-!
# Analog output path

The console's three output filters: high-pass at 90 Hz and 440 Hz, low-pass at 14 kHz. The
coefficients depend on the sample rate alone; each output has a chain of its own.
-/

set_option autoImplicit false

namespace Chiptune

/-- Coefficients for one sample rate. -/
structure FilterCoefficients where
  highPass90 : Float32
  highPass440 : Float32
  lowPass14k : Float32

namespace FilterCoefficients

/-- The circle constant in single precision. -/
def pi : Float32 := 3.14159265358979323846264338327950288

/-- What a high-pass keeps of its last output. -/
def highPass (cutoff rate : Float32) : Float32 := (-2.0 * pi * cutoff / rate).exp

/-- How far a low-pass moves toward its input. -/
def lowPass (cutoff rate : Float32) : Float32 := 1.0 - (-2.0 * pi * cutoff / rate).exp

/-- Coefficients for a sample rate in hertz; zero counts as one. -/
def ofRate (sampleRate : UInt32) : FilterCoefficients :=
  let rate := (max sampleRate 1).toFloat32
  { highPass90 := highPass 90.0 rate
    highPass440 := highPass 440.0 rate
    lowPass14k := lowPass 14000.0 rate }

end FilterCoefficients

/-- Memory of the three filters of one output. -/
structure FilterChain where
  in90 : Float32 := 0.0
  out90 : Float32 := 0.0
  in440 : Float32 := 0.0
  out440 : Float32 := 0.0
  out14k : Float32 := 0.0

namespace FilterChain

/-- Runs one sample through the chain. -/
def process (f : FilterChain) (c : FilterCoefficients) (sample : Float32) :
    Float32 × FilterChain :=
  let high90 := sample - f.in90 + c.highPass90 * f.out90
  let high440 := high90 - f.in440 + c.highPass440 * f.out440
  let low := f.out14k + c.lowPass14k * (high440 - f.out14k)
  (low,
    { in90 := sample, out90 := high90, in440 := high90, out440 := high440, out14k := low })

/-- Whether the memory equals that of a fresh chain, as numbers: both zeros count, what is
not a number does not. -/
def atRest (f : FilterChain) : Bool :=
  f.in90 == 0.0 && f.out90 == 0.0 && f.in440 == 0.0 && f.out440 == 0.0 && f.out14k == 0.0

end FilterChain

end Chiptune
