import Chiptune.Decimal.Exact
import Chiptune.Settings.Basic
/-!
# Fields of the settings

The fields in the order in which they are written, and their names.
-/

set_option autoImplicit false

namespace Chiptune.Settings

/-- A field of the settings. -/
inductive Field where
  | sampleRate
  | stereo
  | filters
  | commandQueueCapacity
  | dacBufferCapacity
  | dacPrefillSamples
  | audioMemoryBlocks
deriving DecidableEq, Repr

namespace Field

/-- Fields in order. -/
def all : List Field :=
  [sampleRate, stereo, filters, commandQueueCapacity, dacBufferCapacity, dacPrefillSamples,
    audioMemoryBlocks]

/-- Name of a field as it is written. -/
def name : Field → String
  | sampleRate => "sample_rate"
  | stereo => "stereo"
  | filters => "filters"
  | commandQueueCapacity => CapacityField.commandQueue.name
  | dacBufferCapacity => CapacityField.dacBuffer.name
  | dacPrefillSamples => "dac_prefill_samples"
  | audioMemoryBlocks => "audio_memory_blocks"

/-- The field of a name. -/
def ofName? (name : List Char) : Option Field := all.find? fun f => f.name.toList == name

end Field

end Chiptune.Settings
