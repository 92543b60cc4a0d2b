import Chiptune.Json.Fault
/-!
# Strings of a JSON text

A string is read behind its opening quote. Escapes stand for the characters they name; a
character outside the basic plane takes two numeric escapes, a leading and a trailing
surrogate. A string that is skipped is checked for its form alone, in which surrogates need
not be paired.

What an escape leaves is shorter than what it started from, so that reading ends.
-/

set_option autoImplicit false

namespace Chiptune.Json

/-- Characters left behind something that was read. -/
abbrev Shorter (cs : List Char) := { rest : List Char // rest.length < cs.length }

/-- Value of a hexadecimal digit. -/
def hexDigit? (c : Char) : Option Nat :=
  if c.isDigit then some (c.toNat - 48)
  else if 'a' ≤ c && c ≤ 'f' then some (c.toNat - 87)
  else if 'A' ≤ c && c ≤ 'F' then some (c.toNat - 55)
  else none

/-- Value of hexadecimal digits. -/
def hexValue? (cs : List Char) : Option Nat :=
  cs.foldl (fun n c => do pure (16 * (← n) + (← hexDigit? c))) (some 0)

/-- What is wrong with a numeric escape: it is cut short, or its four bytes are not digits. -/
def hexFault (cs : List Char) : Fault :=
  if byteLength cs < 4 then .here .endOfString [] else .past .invalidEscape 4 cs

/-- Four hexadecimal digits. -/
def readHex (cs : List Char) : Except Fault (Nat × Shorter cs) :=
  match cs with
  | a :: b :: c :: d :: rest =>
    match hexValue? [a, b, c, d] with
    | some n => .ok (n, ⟨rest, by simp only [List.length_cons]; omega⟩)
    | none => .error (hexFault (a :: b :: c :: d :: rest))
  | cs => .error (hexFault cs)

/-- A leading surrogate. -/
def isLeading (n : Nat) : Bool := 0xD800 ≤ n && n ≤ 0xDBFF

/-- A trailing surrogate. -/
def isTrailing (n : Nat) : Bool := 0xDC00 ≤ n && n ≤ 0xDFFF

/-- The character of a pair of surrogates. -/
def pairChar (leading trailing : Nat) : Char :=
  Char.ofNat ((leading - 0xD800) * 1024 + (trailing - 0xDC00) + 0x10000)

/-- The trailing half of a pair of numeric escapes. -/
def readTrailing (leading : Nat) (cs : List Char) : Except Fault (Char × Shorter cs) :=
  match cs with
  | [] => .error (.here .endOfString [])
  | '\\' :: [] => .error (.here .endOfString [])
  | '\\' :: 'u' :: rest => do
    let (n, tail) ← readHex rest
    if isTrailing n then
      pure (pairChar leading n,
        ⟨tail.val, by have := tail.property; simp only [List.length_cons]; omega⟩)
    else
      throw (.here .loneSurrogate tail.val)
  | '\\' :: rest => .error (.past .unfinishedSurrogatePair 1 rest)
  | cs => .error (.past .unfinishedSurrogatePair 1 cs)

/-- A numeric escape behind its letter. -/
def readNumeric (cs : List Char) : Except Fault (Char × Shorter cs) := do
  let (n, rest) ← readHex cs
  if isTrailing n then
    throw (.here .loneSurrogate rest.val)
  else if isLeading n then
    let (c, tail) ← readTrailing n rest.val
    pure (c, ⟨tail.val, by have := tail.property; have := rest.property; omega⟩)
  else
    pure (Char.ofNat n, rest)

/-- The character of a short escape. -/
def shortEscape? (c : Char) : Option Char :=
  match c with
  | '"' => some '"'
  | '\\' => some '\\'
  | '/' => some '/'
  | 'b' => some '\x08'
  | 'f' => some '\x0c'
  | 'n' => some '\n'
  | 'r' => some '\r'
  | 't' => some '\t'
  | _ => none

/-- An escape behind its backslash. -/
def readEscape (cs : List Char) : Except Fault (Char × Shorter cs) :=
  match cs with
  | [] => .error (.here .endOfString [])
  | c :: rest =>
    match shortEscape? c with
    | some meant => .ok (meant, ⟨rest, by simp⟩)
    | none =>
      if c = 'u' then do
        let (meant, tail) ← readNumeric rest
        pure (meant,
          ⟨tail.val, by have := tail.property; simp only [List.length_cons]; omega⟩)
      else
        .error (.past .invalidEscape 1 (c :: rest))

/-- Reads a string behind its opening quote; `done` holds what has been read, last first. -/
def readTextOnto (done : List Char) (cs : List Char) : Except Fault (Read (List Char)) :=
  match cs with
  | [] => .error (.here .endOfString [])
  | c :: rest =>
    if c = '"' then
      .ok (done.reverse, rest)
    else if c = '\\' then
      match readEscape rest with
      | .ok (meant, tail) => readTextOnto (meant :: done) tail.val
      | .error fault => .error fault
    else if c.toNat < 0x20 then
      .error (.here .controlCharacter rest)
    else
      readTextOnto (c :: done) rest
termination_by cs.length
decreasing_by
  · have := tail.property
    simp only [List.length_cons]
    omega
  · simp

/-- Reads a string behind its opening quote. -/
def readText (cs : List Char) : Except Fault (Read (List Char)) := readTextOnto [] cs

/-- Skips an escape behind its backslash. -/
def skipEscape (cs : List Char) : Except Fault (Shorter cs) :=
  match cs with
  | [] => .error (.here .endOfString [])
  | c :: rest =>
    match shortEscape? c with
    | some _ => .ok ⟨rest, by simp⟩
    | none =>
      if c = 'u' then do
        let (_, tail) ← readHex rest
        pure ⟨tail.val, by have := tail.property; simp only [List.length_cons]; omega⟩
      else
        .error (.past .invalidEscape 1 (c :: rest))

/-- Skips a string behind its opening quote. -/
def skipText (cs : List Char) : Except Fault (List Char) :=
  match cs with
  | [] => .error (.here .endOfString [])
  | c :: rest =>
    if c = '"' then
      .ok rest
    else if c = '\\' then
      match skipEscape rest with
      | .ok tail => skipText tail.val
      | .error fault => .error fault
    else if c.toNat < 0x20 then
      .error (.here .controlCharacter (c :: rest))
    else
      skipText rest
termination_by cs.length
decreasing_by
  · have := tail.property
    simp only [List.length_cons]
    omega
  · simp

end Chiptune.Json
