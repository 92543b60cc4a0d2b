import Chiptune.Settings.Field
/-!
# Writing settings

Settings are written as a JSON object, a field a line, indented by two blanks.
-/

set_option autoImplicit false

namespace Chiptune.Settings

/-- Decimal text of a number. -/
def natText (n : Nat) : List Char := Decimal.digits n

/-- Text of a truth value. -/
def boolText (b : Bool) : List Char := if b then "true".toList else "false".toList

/-- Text of a field's value. -/
def valueText (s : Settings) : Field → List Char
  | .sampleRate => natText s.sampleRate.toNat
  | .stereo => boolText s.stereo
  | .filters => boolText s.filters
  | .commandQueueCapacity => natText s.commandQueueCapacity.toNat
  | .dacBufferCapacity => natText s.dacBufferCapacity.toNat
  | .dacPrefillSamples => natText s.dacPrefillSamples.toNat
  | .audioMemoryBlocks => natText s.audioMemoryBlocks.toNat

/-- A field on a line of its own. -/
def fieldText (s : Settings) (f : Field) : List Char :=
  "\n  \"".toList ++ f.name.toList ++ "\": ".toList ++ valueText s f

/-- Fields with commas between them. -/
def fieldsText (s : Settings) : List Field → List Char
  | [] => []
  | [f] => fieldText s f
  | f :: fs => fieldText s f ++ ',' :: fieldsText s fs

/-- The text settings are kept as. -/
def print (s : Settings) : String :=
  String.ofList ('\x7b' :: fieldsText s Field.all ++ ['\n', '\x7d'])

end Chiptune.Settings
