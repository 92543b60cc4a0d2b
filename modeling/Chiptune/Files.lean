/-!
# Files by path

A tree of files and directories, and what reading or writing a path in it comes to. Paths are
taken apart at slashes; every name on the way has to be that of a directory. A path that ends
in a slash means a directory, which can be neither read nor written.
-/

set_option autoImplicit false

namespace Chiptune

/-- Why a path cannot be read or written. -/
inductive FileFault where
  | notFound
  | notDirectory
  | isDirectory
  | nameTooLong
  | nulInName
  /-- The contents are not encoded text. -/
  | notText
  /-- Anything else, in the system's own words. -/
  | other (message : String)
deriving DecidableEq, Repr

/-- Wording of the fault. -/
def FileFault.message : FileFault → String
  | notFound => "No such file or directory (os error 2)"
  | notDirectory => "Not a directory (os error 20)"
  | isDirectory => "Is a directory (os error 21)"
  | nameTooLong => "File name too long (os error 36)"
  | nulInName => "file name contained an unexpected NUL byte"
  | notText => "stream did not contain valid UTF-8"
  | other message => message

/-- What a path leads to. -/
inductive Entry where
  | file (bytes : ByteArray)
  | directory

/-- A tree of entries by the names that lead to them. The root is always there. -/
structure Files where
  entries : List (List String × Entry) := []
  /-- The place that paths start out from when they do not begin with a slash. -/
  home : List String := []

namespace Files

/-- Longest name in bytes. -/
def maxName : Nat := 255

/-- Longest path in bytes. -/
def maxPath : Nat := 4095

/-- A path taken apart. -/
structure Path where
  /-- The names between slashes. Slashes next to each other count as one. -/
  names : List String
  /-- The path begins with a slash, so that it starts out from the root. -/
  fromRoot : Bool
  /-- The path ends in a slash. -/
  asDirectory : Bool
deriving DecidableEq, Repr

/-- Takes a path apart. -/
def Path.ofText (path : String) : Except FileFault Path :=
  if path.toList.contains '\x00' then .error .nulInName
  else if path = "" then .error .notFound
  else if maxPath < path.utf8ByteSize then .error .nameTooLong
  else
    .ok { names := (path.splitOn "/").filter (· ≠ "")
          fromRoot := path.toList.head? = some '/'
          asDirectory := path.toList.getLast? = some '/' }

/-- The entry at a place. -/
def entryAt? (f : Files) (place : List String) : Option Entry :=
  if place.isEmpty then some .directory
  else (f.entries.find? fun (names, _) => names == place).map Prod.snd

/-- Puts an entry at a place. -/
def put (f : Files) (place : List String) (entry : Entry) : Files :=
  { f with entries := (place, entry) :: f.entries.filter fun (names, _) => names != place }

/-- Puts a file at a place, and directories on the way there. -/
def putFile (f : Files) (place : List String) (bytes : ByteArray) : Files :=
  let parents := (List.range place.length).map place.take
  (parents.foldl (fun f parent => f.put parent .directory) f).put place (.file bytes)

/-- Makes sure that there is a directory at a place. -/
def enter (f : Files) (place : List String) : Except FileFault Unit :=
  match f.entryAt? place with
  | none => .error .notFound
  | some (.file _) => .error .notDirectory
  | some .directory => .ok ()

/-- Follows names from a place; each has to start out from a directory. -/
def walk (f : Files) : List String → List String → Except FileFault (List String)
  | place, [] => .ok place
  | place, name :: rest => do
    f.enter place
    if name = "." then walk f place rest
    else if name = ".." then walk f place.dropLast rest
    else if maxName < name.utf8ByteSize then .error .nameTooLong
    else walk f (place ++ [name]) rest

/-- The place that a path starts out from. -/
def start (f : Files) (path : Path) : List String := if path.fromRoot then [] else f.home

/-- The bytes of a file. -/
def readBytes (f : Files) (path : String) : Except FileFault ByteArray := do
  let path ← Path.ofText path
  match f.entryAt? (← f.walk (f.start path) path.names) with
  | none => throw .notFound
  | some .directory => throw .isDirectory
  | some (.file bytes) => if path.asDirectory then throw .notDirectory else pure bytes

/-- Bytes as text. -/
def decode (bytes : ByteArray) : Except FileFault String :=
  match String.fromUTF8? bytes with
  | some text => .ok text
  | none => .error .notText

/-- The text of a file. -/
def readText (f : Files) (path : String) : Except FileFault String := do
  decode (← f.readBytes path)

/-- Makes or replaces a file. Where the path means a directory, its last name is not looked
up: all that can go wrong before is on the way there. -/
def writeText (f : Files) (path text : String) : Except FileFault Files := do
  let path ← Path.ofText path
  if path.asDirectory then
    f.enter (← f.walk (f.start path) path.names.dropLast)
    throw .isDirectory
  else
    let place ← f.walk (f.start path) path.names
    match f.entryAt? place with
    | some .directory => throw .isDirectory
    | _ => pure (f.put place (.file text.toUTF8))

end Files

end Chiptune
