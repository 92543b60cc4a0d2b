/-!
# Constants of the sound chip

The lookup tables of the five voices and the clock that drives them. Periods are counted
in clocks of the processor that shares the chip's die.
-/

set_option autoImplicit false

namespace Chiptune

/-- Processor clock in hertz, as the single-precision number the sample clock is built from. -/
def cpuClockHz : Float32 := 1789773.0

/-- Output rate a chip is built for when no other is asked for. -/
def defaultSampleRate : UInt32 := 44100

/-- Starting values of the length counters, by the five-bit index of a length register. -/
def lengthTable : Array Nat :=
  #[10, 254, 20, 2, 40, 4, 80, 6, 160, 8, 60, 10, 14, 12, 26, 14,
    12, 16, 24, 18, 48, 20, 96, 22, 192, 24, 72, 26, 16, 28, 32, 30]

/-- Pulse waveforms by duty setting, in table order. The sequencer walks them backwards:
positions 0, 7, 6, 5, 4, 3, 2, 1. -/
def dutyTable : Array (Array Nat) :=
  #[#[0, 0, 0, 0, 0, 0, 0, 1],
    #[0, 0, 0, 0, 0, 0, 1, 1],
    #[0, 0, 0, 0, 1, 1, 1, 1],
    #[1, 1, 1, 1, 1, 1, 0, 0]]

/-- One period of the triangle waveform, down and up again. -/
def triangleTable : Array Nat :=
  #[15, 14, 13, 12, 11, 10, 9, 8, 7, 6, 5, 4, 3, 2, 1, 0,
    0, 1, 2, 3, 4, 5, 6, 7, 8, 9, 10, 11, 12, 13, 14, 15]

/-- Noise timer periods in processor clocks. -/
def noisePeriodTable : Array Nat :=
  #[4, 8, 16, 32, 64, 96, 128, 160, 202, 254, 380, 508, 762, 1016, 2034, 4068]

/-- Delta sample bit periods in processor clocks. -/
def deltaRateTable : Array Nat :=
  #[428, 380, 340, 320, 286, 254, 226, 214, 190, 160, 142, 128, 106, 84, 72, 54]

/-- Starting value of a length counter, zero outside the table. -/
def lengthOf (index : Nat) : Nat := lengthTable.getD index 0

/-- Duty bit at a position of a waveform, zero outside the table. -/
def dutyBit (duty position : Nat) : Nat := (dutyTable.getD duty #[]).getD position 0

/-- Triangle level at a step, zero outside the table. -/
def triangleLevel (step : Nat) : Nat := triangleTable.getD step 0

/-- Noise timer period by index, zero outside the table. -/
def noisePeriodOf (index : Nat) : Nat := noisePeriodTable.getD index 0

/-- Delta bit period by index, zero outside the table. -/
def deltaRateOf (index : Nat) : Nat := deltaRateTable.getD index 0

end Chiptune
