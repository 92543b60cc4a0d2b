import Chiptune.Decimal.Shortest
import Chiptune.Text.Quoted
/-!
# What can be wrong with a JSON text

The problems of a text, and where they are: a line and a column, counted in bytes, of the
byte that was read last or, for a problem with the next byte, of that byte.

A reader keeps the characters that are left; a place in the text is known by the number of
bytes from there to the end.
-/

set_option autoImplicit false

namespace Chiptune.Json

/-- Kind of a value that was found where another was expected. -/
inductive Found where
  | null
  | boolean (value : Bool)
  | integer (value : Int)
  | float (value : Float)
  | string (text : List Char)
  | sequence
  | map

/-- How numbers are laid out in reports. -/
def floatStyle : Decimal.FloatStyle :=
  { minPositional := -5, maxPositional := 15 }

/-- Wording of what was found. -/
def Found.describe : Found → String
  | null => "null"
  | boolean value => "boolean `" ++ toString value ++ "`"
  | integer value => "integer `" ++ toString value ++ "`"
  | float value => "floating point `" ++ floatStyle.render value ++ "`"
  | string text => "string " ++ Text.quote text
  | sequence => "sequence"
  | map => "map"

/-- What is wrong with a text. -/
inductive Problem where
  | endOfValue
  | endOfList
  | endOfObject
  | endOfString
  | expectedColon
  | expectedListEnd
  | expectedObjectEnd
  | expectedWord
  | expectedValue
  | keyNotString
  | trailingComma
  | trailingCharacters
  | invalidNumber
  | numberOutOfRange
  | invalidEscape
  | controlCharacter
  | loneSurrogate
  | unfinishedSurrogatePair
  | duplicateField (name : String)
  | invalidType (found : Found) (expected : String)
  | invalidValue (found : Found) (expected : String)

/-- Wording of a problem. -/
def Problem.message : Problem → String
  | endOfValue => "EOF while parsing a value"
  | endOfList => "EOF while parsing a list"
  | endOfObject => "EOF while parsing an object"
  | endOfString => "EOF while parsing a string"
  | expectedColon => "expected `:`"
  | expectedListEnd => "expected `,` or `]`"
  | expectedObjectEnd => "expected `,` or `\x7d`"
  | expectedWord => "expected ident"
  | expectedValue => "expected value"
  | keyNotString => "key must be a string"
  | trailingComma => "trailing comma"
  | trailingCharacters => "trailing characters"
  | invalidNumber => "invalid number"
  | numberOutOfRange => "number out of range"
  | invalidEscape => "invalid escape"
  | controlCharacter => "control character (\\u0000-\\u001F) found while parsing a string"
  | loneSurrogate => "lone leading surrogate in hex escape"
  | unfinishedSurrogatePair => "unexpected end of hex escape"
  | duplicateField name => "duplicate field `" ++ name ++ "`"
  | invalidType found expected => "invalid type: " ++ found.describe ++ ", expected " ++ expected
  | invalidValue found expected =>
    "invalid value: " ++ found.describe ++ ", expected " ++ expected

/-- Bytes of the encoded characters. -/
def byteLength (cs : List Char) : Nat := cs.foldl (fun n c => n + c.utf8Size) 0

/-- A problem, and how many bytes of the text lie behind its place. -/
structure Fault where
  problem : Problem
  remaining : Nat

namespace Fault

/-- A problem with what has been read, in front of what is left. -/
def here (problem : Problem) (rest : List Char) : Fault := ⟨problem, byteLength rest⟩

/-- A problem with the next byte, or at the end of the text. -/
def next (problem : Problem) (rest : List Char) : Fault := ⟨problem, byteLength rest - 1⟩

/-- A problem with the next bytes, of which there are enough. -/
def past (problem : Problem) (bytes : Nat) (rest : List Char) : Fault :=
  ⟨problem, byteLength rest - bytes⟩

/-- Line and column after a number of bytes of a text. -/
def position (line column : Nat) : Nat → List Char → Nat × Nat
  | _, [] => (line, column)
  | bytes, c :: rest =>
    if bytes = 0 then
      (line, column)
    else if c = '\n' then
      position (line + 1) 0 (bytes - 1) rest
    else
      position line (column + min bytes c.utf8Size) (bytes - c.utf8Size) rest

/-- Wording of a fault in a text, with its place. -/
def message (fault : Fault) (text : String) : String :=
  let cs := text.toList
  let (line, column) := position 1 0 (byteLength cs - fault.remaining) cs
  fault.problem.message ++ " at line " ++ toString line ++ " column " ++ toString column

end Fault

/-- A value that was read, and the characters left. -/
abbrev Read (α : Type) := α × List Char

/-- Whether a character may stand between the parts of a text. -/
def isBlank (c : Char) : Bool := c = ' ' || c = '\n' || c = '\t' || c = '\r'

/-- Drops blanks. -/
def skipBlanks (cs : List Char) : List Char := cs.dropWhile isBlank

end Chiptune.Json
