import Chiptune.Chip.Tables
import Chiptune.Ring
/-!
# Player settings

The settings that are kept between runs, in machine words, with the conditions under which
a player can be built from them.
-/

set_option autoImplicit false

namespace Chiptune

/-- What a player is built from. -/
structure Settings where
  sampleRate : UInt32 := defaultSampleRate
  /-- Pan pulse and noise voices instead of mixing to mono. -/
  stereo : Bool := true
  /-- Run the mix through the analog output path. -/
  filters : Bool := false
  /-- Slots for register writes queued ahead of the audio side. -/
  commandQueueCapacity : UInt64 := 1024
  dacBufferCapacity : UInt64 := 8192
  /-- Silence queued when a DAC voice starts, to ride out the first blocks. -/
  dacPrefillSamples : UInt64 := 512
  /-- Sample blocks shared by all sources of the audio graph. -/
  audioMemoryBlocks : UInt64 := 16
deriving DecidableEq, Repr

/-- The two capacities that have to be powers of two. -/
inductive CapacityField where
  | commandQueue
  | dacBuffer
deriving DecidableEq, Repr

/-- Name of the field as it is written. -/
def CapacityField.name : CapacityField → String
  | commandQueue => "command_queue_capacity"
  | dacBuffer => "dac_buffer_capacity"

/-- Why settings are refused. -/
inductive SettingsFault where
  | sampleRateTooLow (rate : UInt32)
  | badCapacity (field : CapacityField) (capacity : UInt64)
  | prefillTooLong (samples capacity : UInt64)
  | tooFewBlocks (blocks : UInt64)
deriving DecidableEq, Repr

/-- Wording of the fault. -/
def SettingsFault.message : SettingsFault → String
  | sampleRateTooLow rate =>
    "sample_rate must be at least 8000 Hz, got " ++ toString rate.toNat
  | badCapacity field capacity =>
    field.name ++ " must be a power of two of at least 2, got " ++ toString capacity.toNat
  | prefillTooLong samples capacity =>
    "dac_prefill_samples (" ++ toString samples.toNat
      ++ ") must be smaller than dac_buffer_capacity (" ++ toString capacity.toNat ++ ")"
  | tooFewBlocks blocks =>
    "audio_memory_blocks must be at least 2, got " ++ toString blocks.toNat

namespace Settings

/-- Lowest sample rate that is played. -/
def minSampleRate : UInt32 := 8000

/-- Whether a ring can be made with the capacity. -/
def ringCapacity (capacity : UInt64) : Bool :=
  2 ≤ capacity.toNat && isPowerOfTwo capacity.toNat

/-- The first condition that does not hold, in the order of the fields. -/
def fault? (s : Settings) : Option SettingsFault :=
  if s.sampleRate < minSampleRate then
    some (.sampleRateTooLow s.sampleRate)
  else if !ringCapacity s.commandQueueCapacity then
    some (.badCapacity .commandQueue s.commandQueueCapacity)
  else if !ringCapacity s.dacBufferCapacity then
    some (.badCapacity .dacBuffer s.dacBufferCapacity)
  else if s.dacBufferCapacity ≤ s.dacPrefillSamples then
    some (.prefillTooLong s.dacPrefillSamples s.dacBufferCapacity)
  else if s.audioMemoryBlocks < 2 then
    some (.tooFewBlocks s.audioMemoryBlocks)
  else
    none

/-- Accepts the settings or says what is wrong with them. -/
def validate (s : Settings) : Except SettingsFault Unit :=
  match s.fault? with
  | some fault => .error fault
  | none => .ok ()

end Settings

end Chiptune
