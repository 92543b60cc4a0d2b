import Chiptune.Notice
import Chiptune.Output.Feed
/-!
# Output devices

A device offers a sample format, a channel count and a rate, and may fail when it is asked
for them, when its stream is built or when playback starts. An output is a feed on an open
device.
-/

set_option autoImplicit false

namespace Chiptune

/-- Formats a device may ask for; three of them are played. -/
inductive SampleFormat where
  | i8
  | i16
  | i32
  | i64
  | u8
  | u16
  | u32
  | u64
  | f32
  | f64
deriving DecidableEq, Repr

/-- Name of a format. -/
def SampleFormat.name : SampleFormat → String
  | i8 => "I8"
  | i16 => "I16"
  | i32 => "I32"
  | i64 => "I64"
  | u8 => "U8"
  | u16 => "U16"
  | u32 => "U32"
  | u64 => "U64"
  | f32 => "F32"
  | f64 => "F64"

/-- What a device can fail at. -/
inductive DeviceStage where
  /-- Naming its default configuration. -/
  | query
  | build
  | play
  /-- Streaming; the stream goes on. -/
  | stream
deriving DecidableEq, Repr

/-- An output device. -/
structure Device where
  format : SampleFormat
  channels : Nat
  sampleRate : UInt32
  /-- The stage at which the device fails, in its own words. -/
  trouble : Option (DeviceStage × String) := none
deriving DecidableEq, Repr

/-- Why there is no output. -/
inductive OutputFault where
  | noDevice
  | query (message : String)
  | unsupportedFormat (format : SampleFormat)
  | build (message : String)
  | play (message : String)
deriving DecidableEq, Repr

/-- Wording of the fault. -/
def OutputFault.message : OutputFault → String
  | noDevice => "no default audio output device"
  | query message => "failed to query default audio config: " ++ message
  | unsupportedFormat format => "unsupported audio sample format: " ++ format.name
  | build message => "failed to build audio output stream: " ++ message
  | play message => "failed to start audio output stream: " ++ message

namespace Device

/-- The device's own words for its failure at a stage. -/
def troubleAt? (d : Device) (stage : DeviceStage) : Option String :=
  match d.trouble with
  | some (at_, message) => if at_ = stage then some message else none
  | none => none

/-- A device that names its configuration. -/
def query (device : Option Device) : Except OutputFault Device :=
  match device with
  | none => .error .noDevice
  | some d =>
    match d.troubleAt? .query with
    | some message => .error (.query message)
    | none => .ok d

/-- Default rate of the default device. -/
def probeSampleRate (device : Option Device) : Except OutputFault UInt32 :=
  (query device).map Device.sampleRate

/-- Whether samples can be converted to the format. -/
def playable (format : SampleFormat) : Bool :=
  format == .f32 || format == .i16 || format == .u16

/-- Opens the default device for playback. -/
def openDefault (device : Option Device) : Except OutputFault (Outcome Device Unit) := do
  let d ← query device
  if !playable d.format then
    throw (.unsupportedFormat d.format)
  if let some message := d.troubleAt? .build then
    throw (.build message)
  if let some message := d.troubleAt? .play then
    throw (.play message)
  let heard := match d.troubleAt? .stream with
    | some message => [Notice.outputTrouble message]
    | none => []
  pure
    { result := ()
      state := d
      notices := heard ++ [.outputRunning d.sampleRate.toNat d.channels] }

end Device

/-- Samples in the format of a device. -/
inductive Samples where
  | float (values : List Float32)
  | signed (values : List Int16)
  | unsigned (values : List UInt16)

namespace Samples

/-- A sample as a number from -1 up to 1. -/
def toFloat (sample : Int16) : Float32 :=
  let magnitude := sample.toInt.natAbs.toUInt64.toFloat32
  (if sample < 0 then -magnitude else magnitude) / 32768.0

/-- A sample as an unsigned number around `$8000`. -/
def toUnsigned (sample : Int16) : UInt16 := UInt16.ofNat (sample.toInt + 32768).toNat

end Samples

/-- A feed that plays on an open device. -/
structure Output (σ : Type) where
  device : Device
  feed : Feed σ

namespace Output

variable {σ ω : Type}

/-- The contents of a buffer that the device asks for; none for formats that are not
played. -/
def fill (play : Playing σ ω) (length : Nat) (o : Output σ) (world : ω) :
    Samples × Output σ × ω :=
  match o.device.format with
  | .f32 =>
    let (values, feed, world) :=
      Feed.fill play Samples.toFloat o.device.channels length (o.feed, world)
    (.float values, { o with feed := feed }, world)
  | .u16 =>
    let (values, feed, world) :=
      Feed.fill play Samples.toUnsigned o.device.channels length (o.feed, world)
    (.unsigned values, { o with feed := feed }, world)
  | _ =>
    let (values, feed, world) :=
      Feed.fill play id o.device.channels length (o.feed, world)
    (.signed values, { o with feed := feed }, world)

end Output

end Chiptune
