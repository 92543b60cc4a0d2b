import Chiptune.Byte
import Chiptune.Chip.Basic
import Chiptune.Chip.Dmc
import Chiptune.Chip.Envelope
import Chiptune.Chip.Filter
import Chiptune.Chip.FrameSequencer
import Chiptune.Chip.LengthCounter
import Chiptune.Chip.Mix
import Chiptune.Chip.Noise
import Chiptune.Chip.Pulse
import Chiptune.Chip.Register
import Chiptune.Chip.SampleMemory
import Chiptune.Chip.Sweep
import Chiptune.Chip.Tables
import Chiptune.Chip.Triangle
import Chiptune.CommandLine
import Chiptune.Decimal.Exact
import Chiptune.Decimal.Read
import Chiptune.Decimal.Shortest
import Chiptune.Demo
import Chiptune.Engine.Basic
import Chiptune.Engine.Pacer
import Chiptune.Files
import Chiptune.Frames
import Chiptune.Graph.Basic
import Chiptune.Graph.Cycle
import Chiptune.Graph.Host
import Chiptune.Graph.Source
import Chiptune.Json.Fault
import Chiptune.Json.Number
import Chiptune.Json.Text
import Chiptune.Json.Value
import Chiptune.Main
import Chiptune.Notice
import Chiptune.Output.Device
import Chiptune.Output.Feed
import Chiptune.Pool
import Chiptune.Proofs.Chip.Bounds
import Chiptune.Proofs.Chip.Controls
import Chiptune.Proofs.Chip.Counts
import Chiptune.Proofs.Chip.Decay
import Chiptune.Proofs.Chip.DeltaPlayback
import Chiptune.Proofs.Chip.DeltaReader
import Chiptune.Proofs.Chip.FullClock
import Chiptune.Proofs.Chip.Gating
import Chiptune.Proofs.Chip.Lengths
import Chiptune.Proofs.Chip.NoiseRegister
import Chiptune.Proofs.Chip.PowerUp
import Chiptune.Proofs.Chip.PulseRun
import Chiptune.Proofs.Chip.Run
import Chiptune.Proofs.Chip.SampleClocks
import Chiptune.Proofs.Chip.SampleLoading
import Chiptune.Proofs.Chip.Separation
import Chiptune.Proofs.Chip.Silence
import Chiptune.Proofs.Chip.SweepCourse
import Chiptune.Proofs.Chip.Timers
import Chiptune.Proofs.Chip.Ultrasonic
import Chiptune.Proofs.Chip.Words
import Chiptune.Proofs.CommandLine
import Chiptune.Proofs.Dyadic
import Chiptune.Proofs.Engine.Accounts
import Chiptune.Proofs.Engine.Lined
import Chiptune.Proofs.Engine.Options
import Chiptune.Proofs.Engine.Order
import Chiptune.Proofs.Engine.Pacer
import Chiptune.Proofs.Engine.Release
import Chiptune.Proofs.Engine.Run
import Chiptune.Proofs.Engine.Skips
import Chiptune.Proofs.Engine.Ticks
import Chiptune.Proofs.Files
import Chiptune.Proofs.Graph.Commands
import Chiptune.Proofs.Graph.Conservation
import Chiptune.Proofs.Graph.Ensemble
import Chiptune.Proofs.Graph.Mixing
import Chiptune.Proofs.Graph.Refusals
import Chiptune.Proofs.Graph.Run
import Chiptune.Proofs.Graph.Sources
import Chiptune.Proofs.Graph.Turns
import Chiptune.Proofs.Json
import Chiptune.Proofs.Lending
import Chiptune.Proofs.Output.Gapless
import Chiptune.Proofs.Pool
import Chiptune.Proofs.Relay.HoldLast
import Chiptune.Proofs.Relay.Run
import Chiptune.Proofs.Relay.Silence
import Chiptune.Proofs.Ring
import Chiptune.Proofs.Rounding
import Chiptune.Proofs.Settings
import Chiptune.Proofs.SettingsText
import Chiptune.Queue
import Chiptune.Relay
import Chiptune.Ring
import Chiptune.Session
import Chiptune.Settings.Basic
import Chiptune.Settings.Field
import Chiptune.Settings.Printer
import Chiptune.Settings.Reader
import Chiptune.Single
import Chiptune.Storage
import Chiptune.Text.Invisible
import Chiptune.Text.Quoted
import Chiptune.Timer
