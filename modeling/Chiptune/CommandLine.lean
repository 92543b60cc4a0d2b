import Chiptune.Decimal.Read
/-!
# Command line

Options come in any order; those with a value take the next argument as it is. The last
value of an option counts. The first argument that is wrong, or asks for help, decides the
outcome.
-/

set_option autoImplicit false

namespace Chiptune

/-- What the command line asks for. -/
structure Invocation where
  /-- Where to read settings from. -/
  config : Option String := none
  /-- Where to write the settings to, in place of playing. -/
  writeConfig : Option String := none
  /-- Length of the demo. -/
  seconds : Float32 := 4.0
  mono : Bool := false
  filters : Bool := false
  dac : Bool := false
  verbose : Bool := false

namespace CommandLine

/-- Options with a value. -/
inductive ValueOption where
  | config
  | writeConfig
  | seconds
deriving DecidableEq, Repr

/-- Options without. -/
inductive Switch where
  | mono
  | filters
  | dac
  | verbose
deriving DecidableEq, Repr

/-- What an argument stands for where an option is expected. -/
inductive Word where
  | valued (option : ValueOption)
  | plain (switch : Switch)
  | help
  | other
deriving DecidableEq, Repr

/-- Meaning of an argument. -/
def Word.ofArgument (arg : String) : Word :=
  if arg = "--config" then valued .config
  else if arg = "--write-config" then valued .writeConfig
  else if arg = "--seconds" then valued .seconds
  else if arg = "--mono" then plain .mono
  else if arg = "--filters" then plain .filters
  else if arg = "--dac" then plain .dac
  else if arg = "--verbose" || arg = "-v" then plain .verbose
  else if arg = "--help" || arg = "-h" then help
  else other

/-- Why a command line is refused. -/
inductive UsageFault where
  | missingValue (option : ValueOption)
  | badSeconds (value : String) (fault : Decimal.ReadFault)
  | unknownArgument (arg : String)
deriving DecidableEq, Repr

/-- Wording of the fault. -/
def UsageFault.message : UsageFault → String
  | missingValue .config => "--config requires a path, e.g. --config chipwave.json"
  | missingValue .writeConfig =>
    "--write-config requires a path, e.g. --write-config chipwave.json"
  | missingValue .seconds => "--seconds requires a number, e.g. --seconds 4"
  | badSeconds value fault => "invalid --seconds value: " ++ value ++ ": " ++ fault.message
  | unknownArgument arg => "unknown argument: " ++ arg

/-- What a command line comes to. -/
inductive Request where
  | run (invocation : Invocation)
  | help

/-- Takes in the value of an option. -/
def setValue (i : Invocation) (option : ValueOption) (value : String) :
    Except UsageFault Invocation :=
  match option with
  | .config => .ok { i with config := some value }
  | .writeConfig => .ok { i with writeConfig := some value }
  | .seconds =>
    match Decimal.readSingle value with
    | .ok seconds => .ok { i with seconds := seconds }
    | .error fault => .error (.badSeconds value fault)

/-- Takes in a switch. -/
def setSwitch (i : Invocation) (switch : Switch) : Invocation :=
  match switch with
  | .mono => { i with mono := true }
  | .filters => { i with filters := true }
  | .dac => { i with dac := true }
  | .verbose => { i with verbose := true }

/-- Reads the arguments that are left on top of what has been asked for. -/
def parseFrom (i : Invocation) : List String → Except UsageFault Request
  | [] => .ok (.run i)
  | arg :: rest =>
    match Word.ofArgument arg, rest with
    | .valued option, [] => .error (.missingValue option)
    | .valued option, value :: rest =>
      match setValue i option value with
      | .ok i => parseFrom i rest
      | .error fault => .error fault
    | .plain switch, rest => parseFrom (setSwitch i switch) rest
    | .help, _ => .ok .help
    | .other, _ => .error (.unknownArgument arg)

/-- Reads a command line. -/
def parse (args : List String) : Except UsageFault Request := parseFrom {} args

/-- Text of the help. -/
def helpText : String :=
  String.intercalate "\n" [
    "chipwave",
    "",
    "Usage:",
    "cargo run --release -- [options]",
    "",
    "Options:",
    "--config <path>        Load player settings from a JSON file",
    "--write-config <path>  Write the effective settings to a JSON file and exit",
    "--seconds <n>          Demo length in seconds (default 4)",
    "--mono                 Mix to mono instead of stereo",
    "--filters              Emulate the console's analog output filters",
    "--dac                  Also stream an 8-bit DAC voice",
    "-v, --verbose          Debug logging",
    "-h, --help             Show this help",
    ""]

end CommandLine

end Chiptune
