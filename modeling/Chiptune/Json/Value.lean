import Chiptune.Json.Number
import Chiptune.Json.Text
/-!
# Values of a JSON text

Reading a value of a known kind, and skipping one of any kind and depth. A value of another
kind than the one expected is read to its end if it is a scalar, so that the place of the
fault lies behind it; a sequence or a map is not entered.
-/

set_option autoImplicit false

namespace Chiptune.Json

/-- Reads the letters of a word. -/
def readWord : List Char → List Char → Except Fault (List Char)
  | [], cs => .ok cs
  | _ :: _, [] => .error (.here .endOfValue [])
  | w :: word, c :: cs =>
    if c = w then readWord word cs else .error (.past .expectedWord 1 (c :: cs))

/-- The fault of a value where another kind is expected. -/
def unexpected (expected : String) (cs : List Char) : Fault :=
  let wrong (found : Found) (rest : List Char) : Fault := .here (.invalidType found expected) rest
  let word (letters : String) (found : Found) (rest : List Char) : Fault :=
    match readWord letters.toList rest with
    | .ok rest => wrong found rest
    | .error fault => fault
  let number (negative : Bool) (rest : List Char) : Fault :=
    match readNumber negative rest with
    | .ok (n, rest) => wrong n.found rest
    | .error fault => fault
  match cs with
  | 'n' :: rest => word "ull" .null rest
  | 't' :: rest => word "rue" (.boolean true) rest
  | 'f' :: rest => word "alse" (.boolean false) rest
  | '-' :: rest => number true rest
  | '"' :: rest =>
    match readText rest with
    | .ok (text, rest) => wrong (.string text) rest
    | .error fault => fault
  | '[' :: _ => wrong .sequence cs
  | '\x7b' :: _ => wrong .map cs
  | c :: _ => if c.isDigit then number false cs else .next .expectedValue cs
  | [] => .next .expectedValue cs

/-- A number as a natural number up to a limit. -/
def Number.fit (n : Number) (limit : Nat) (expected : String) (rest : List Char) :
    Except Fault (Read Nat) :=
  match n with
  | .unsigned value =>
    if value ≤ limit then .ok (value, rest)
    else .error (.here (.invalidValue (.integer value) expected) rest)
  | .negative value => .error (.here (.invalidValue (.integer value) expected) rest)
  | .float value => .error (.here (.invalidType (.float value) expected) rest)

/-- Reads a natural number up to a limit. -/
def readNat (limit : Nat) (expected : String) (cs : List Char) : Except Fault (Read Nat) :=
  match skipBlanks cs with
  | [] => .error (.next .endOfValue [])
  | c :: rest =>
    if c = '-' then do
      let (n, rest) ← readNumber true rest
      n.fit limit expected rest
    else if c.isDigit then do
      let (n, rest) ← readNumber false (c :: rest)
      n.fit limit expected rest
    else
      .error (unexpected expected (c :: rest))

/-- Reads a truth value. -/
def readBool (cs : List Char) : Except Fault (Read Bool) :=
  match skipBlanks cs with
  | [] => .error (.next .endOfValue [])
  | 't' :: rest => do pure (true, ← readWord "rue".toList rest)
  | 'f' :: rest => do pure (false, ← readWord "alse".toList rest)
  | cs => .error (unexpected "a boolean" cs)

/-- What a value can be inside of. -/
inductive Frame where
  | list
  | object
deriving DecidableEq, Repr

/-- The character that ends a list or an object. -/
def Frame.close : Frame → Char
  | list => ']'
  | object => '\x7d'

/-- Problem of a text that ends inside. -/
def Frame.endProblem : Frame → Problem
  | list => .endOfList
  | object => .endOfObject

/-- Problem of an item that nothing separates from the next. -/
def Frame.separatorProblem : Frame → Problem
  | list => .expectedListEnd
  | object => .expectedObjectEnd

/-- What may come next while a value is skipped. -/
inductive Expecting where
  | value
  /-- An item or the end, right after an opening. -/
  | firstItem
  /-- A comma or the end, after an item. -/
  | separator
deriving DecidableEq, Repr

/-- Skips the colon behind a key. -/
def skipColon (cs : List Char) : Except Fault (List Char) :=
  match skipBlanks cs with
  | ':' :: rest => .ok rest
  | [] => .error (.next .endOfObject [])
  | cs => .error (.next .expectedColon cs)

/-- Skips what stands in front of an item's value: nothing in a list, key and colon in an
object. -/
def skipKey (frame : Frame) (cs : List Char) : Except Fault (List Char) :=
  match frame with
  | .list => .ok cs
  | .object =>
    match skipBlanks cs with
    | '"' :: rest => do skipColon (← skipText rest)
    | [] => .error (.next .endOfObject [])
    | cs => .error (.next .keyNotString cs)

/-- Skips a value that is neither a list nor an object. -/
def skipScalar (cs : List Char) : Except Fault (List Char) :=
  match cs with
  | 'n' :: rest => readWord "ull".toList rest
  | 't' :: rest => readWord "rue".toList rest
  | 'f' :: rest => readWord "alse".toList rest
  | '-' :: rest => skipNumber rest
  | '"' :: rest => skipText rest
  | c :: _ => if c.isDigit then skipNumber cs else .error (.next .expectedValue cs)
  | [] => .error (.next .endOfValue [])

/-- Skips the rest of a value inside the given lists and objects, innermost first. Two steps
take up at least one character. -/
def skipWithin : Nat → Expecting → List Frame → List Char → Except Fault (List Char)
  | 0, _, _, _ => .error (.here .endOfValue [])
  | fuel + 1, .value, stack, cs =>
    match skipBlanks cs with
    | [] => .error (.next .endOfValue [])
    | '[' :: rest => skipWithin fuel .firstItem (.list :: stack) rest
    | '\x7b' :: rest => skipWithin fuel .firstItem (.object :: stack) rest
    | cs => do
      let rest ← skipScalar cs
      if stack.isEmpty then pure rest else skipWithin fuel .separator stack rest
  | _ + 1, _, [], cs => .ok cs
  | fuel + 1, expecting, frame :: stack, cs =>
    match skipBlanks cs with
    | [] => .error (.next frame.endProblem [])
    | c :: rest =>
      if c = frame.close then
        if stack.isEmpty then .ok rest else skipWithin fuel .separator stack rest
      else if expecting = .firstItem then do
        skipWithin fuel .value (frame :: stack) (← skipKey frame (c :: rest))
      else if c = ',' then do
        skipWithin fuel .value (frame :: stack) (← skipKey frame rest)
      else
        .error (.next frame.separatorProblem (c :: rest))

/-- Skips a value. -/
def skipValue (cs : List Char) : Except Fault (List Char) :=
  skipWithin (2 * cs.length + 2) .value [] cs

end Chiptune.Json
