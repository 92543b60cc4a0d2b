import Chiptune.Json.Value
import Chiptune.Settings.Field
/-!
# Reading settings

Settings are read from a JSON object or from a list of the values in order. What is left out
keeps its default, unknown fields are skipped, and a field that comes twice is refused. The
settings that were read then have to be valid.
-/

set_option autoImplicit false

namespace Chiptune.Settings

open Chiptune.Json (Fault Read skipBlanks)

/-- What the text as a whole should be. -/
def expectedWhole : String := "struct PlayerConfig"

/-- Reads a 32-bit number. -/
def readWord32 (cs : List Char) : Except Fault (Read UInt32) := do
  let (n, rest) ← Json.readNat (UInt32.size - 1) "u32" cs
  pure (UInt32.ofNat n, rest)

/-- Reads a 64-bit number. -/
def readWord64 (cs : List Char) : Except Fault (Read UInt64) := do
  let (n, rest) ← Json.readNat (UInt64.size - 1) "usize" cs
  pure (UInt64.ofNat n, rest)

/-- Reads the value of a field into the settings. -/
def readField (f : Field) (s : Settings) (cs : List Char) : Except Fault (Read Settings) :=
  match f with
  | .sampleRate => do
    let (n, rest) ← readWord32 cs
    pure ({ s with sampleRate := n }, rest)
  | .stereo => do
    let (b, rest) ← Json.readBool cs
    pure ({ s with stereo := b }, rest)
  | .filters => do
    let (b, rest) ← Json.readBool cs
    pure ({ s with filters := b }, rest)
  | .commandQueueCapacity => do
    let (n, rest) ← readWord64 cs
    pure ({ s with commandQueueCapacity := n }, rest)
  | .dacBufferCapacity => do
    let (n, rest) ← readWord64 cs
    pure ({ s with dacBufferCapacity := n }, rest)
  | .dacPrefillSamples => do
    let (n, rest) ← readWord64 cs
    pure ({ s with dacPrefillSamples := n }, rest)
  | .audioMemoryBlocks => do
    let (n, rest) ← readWord64 cs
    pure ({ s with audioMemoryBlocks := n }, rest)

/-- The end of an object behind its last field. -/
def endObject (cs : List Char) : Except Fault (List Char) :=
  match skipBlanks cs with
  | '\x7d' :: rest => .ok rest
  | ',' :: rest => .error (.next .trailingComma (',' :: rest))
  | [] => .error (.next .endOfObject [])
  | cs => .error (.next .trailingCharacters cs)

/-- The end of a list behind its last value. -/
def endList (cs : List Char) : Except Fault (List Char) :=
  match skipBlanks cs with
  | ']' :: rest => .ok rest
  | ',' :: rest =>
    match skipBlanks rest with
    | ']' :: rest => .error (.next .trailingComma (']' :: rest))
    | cs => .error (.next .trailingCharacters cs)
  | [] => .error (.next .endOfList [])
  | cs => .error (.next .trailingCharacters cs)

/-- A field that comes twice; its place is behind the blanks after the name, and behind the
end of the object if that follows. -/
def duplicate (f : Field) (cs : List Char) : Fault :=
  match skipBlanks cs with
  | '\x7d' :: rest => .here (.duplicateField f.name) rest
  | cs => .here (.duplicateField f.name) cs

/-- Finds the next name in an object: the characters behind its opening quote, or none at
the end of the object. -/
def nextName (first : Bool) (cs : List Char) : Except Fault (Option (List Char)) :=
  match skipBlanks cs with
  | [] => .error (.next .endOfObject [])
  | c :: rest =>
    if c = '\x7d' then
      .ok none
    else if first then
      if c = '"' then .ok (some rest) else .error (.next .keyNotString (c :: rest))
    else if c = ',' then
      match skipBlanks rest with
      | '"' :: rest => .ok (some rest)
      | '\x7d' :: rest => .error (.next .trailingComma ('\x7d' :: rest))
      | [] => .error (.next .endOfValue [])
      | cs => .error (.next .keyNotString cs)
    else
      .error (.next .expectedObjectEnd (c :: rest))

/-- Reads the fields of an object up to its end, at most `fuel` of them. -/
def readFields : Nat → Bool → List Field → Settings → List Char → Except Fault (Read Settings)
  | 0, _, _, s, cs => .ok (s, cs)
  | fuel + 1, first, seen, s, cs => do
    match ← nextName first cs with
    | none => pure (s, cs)
    | some rest =>
      let (name, rest) ← Json.readText rest
      match Field.ofName? name with
      | some f =>
        if seen.contains f then
          throw (duplicate f rest)
        else
          let (s, rest) ← readField f s (← Json.skipColon rest)
          readFields fuel false (f :: seen) s rest
      | none =>
        let rest ← Json.skipValue (← Json.skipColon rest)
        readFields fuel false seen s rest

/-- Finds the next value of a list, or none at its end. -/
def nextItem (first : Bool) (cs : List Char) : Except Fault (Option (List Char)) :=
  match skipBlanks cs with
  | [] => .error (.next .endOfList [])
  | c :: rest =>
    if c = ']' then
      .ok none
    else if first then
      .ok (some (c :: rest))
    else if c = ',' then
      match skipBlanks rest with
      | ']' :: rest => .error (.next .trailingComma (']' :: rest))
      | [] => .error (.next .endOfValue [])
      | cs => .ok (some cs)
    else
      .error (.next .expectedListEnd (c :: rest))

/-- Reads the values of a list into the fields in order, as far as they go. -/
def readItems : List Field → Bool → Settings → List Char → Except Fault (Read Settings)
  | [], _, s, cs => .ok (s, cs)
  | f :: fields, first, s, cs => do
    match ← nextItem first cs with
    | none => pure (s, cs)
    | some rest =>
      let (s, rest) ← readField f s rest
      readItems fields false s rest

/-- Reads settings, leaving what follows them. -/
def readValue (cs : List Char) : Except Fault (Read Settings) :=
  match skipBlanks cs with
  | [] => .error (.next .endOfValue [])
  | '\x7b' :: rest => do
    let (s, rest) ← readFields rest.length true [] {} rest
    pure (s, ← endObject rest)
  | '[' :: rest => do
    let (s, rest) ← readItems Field.all true {} rest
    pure (s, ← endList rest)
  | cs => .error (Json.unexpected expectedWhole cs)

/-- Reads settings that make up a whole text. -/
def readWhole (cs : List Char) : Except Fault Settings := do
  let (s, rest) ← readValue cs
  match skipBlanks rest with
  | [] => pure s
  | rest => throw (.next .trailingCharacters rest)

/-- Why a text does not give settings. -/
inductive TextFault where
  | malformed (text : String) (fault : Fault)
  | refused (fault : SettingsFault)

/-- Wording of the fault. -/
def TextFault.message : TextFault → String
  | malformed text fault => "failed to parse config JSON: " ++ fault.message text
  | refused fault => fault.message

/-- Reads valid settings. -/
def ofText (text : String) : Except TextFault Settings :=
  match readWhole text.toList with
  | .error fault => .error (.malformed text fault)
  | .ok s =>
    match s.fault? with
    | some fault => .error (.refused fault)
    | none => .ok s

end Chiptune.Settings
