/-!
# CanvasLink — files

A tree of files in memory with a working directory. Paths are resolved step by step from there or
from the root, and every step but the last must lead to a directory. A `Place` is where a path has
come to, together with the way back up, so that each step takes no longer than the look-up of one
name.

`parent` is about paths alone: the path of the directory that holds what a path leads to.
-/

namespace CanvasLink.Files

/-- Why a file cannot be read or written. -/
inductive FileError where
  | notFound
  | notDirectory
  | isDirectory
  /-- A name of the path, or all of it, is longer than a system takes. -/
  | nameTooLong
  /-- The contents are not UTF-8. -/
  | notText
  /-- The character NUL is in the path. -/
  | nulInPath
  /-- Anything else, in the words of the system. -/
  | other (message : String)
deriving DecidableEq, Repr

def FileError.message : FileError → String
  | notFound => "No such file or directory (os error 2)"
  | notDirectory => "Not a directory (os error 20)"
  | isDirectory => "Is a directory (os error 21)"
  | nameTooLong => "File name too long (os error 36)"
  | notText => "stream did not contain valid UTF-8"
  | nulInPath => "file name contained an unexpected NUL byte"
  | other message => message

/-- The text that bytes stand for. -/
def decodeText (bytes : ByteArray) : Except FileError String :=
  match String.fromUTF8? bytes with
  | some text => .ok text
  | none => .error .notText

/-! ## Entries and places -/

/-- What has a name in a directory. -/
inductive Entry where
  | file (bytes : ByteArray)
  | directory (children : List (String × Entry))

/-- The entries of a directory by name. -/
abbrev Children := List (String × Entry)

/-- The children with what is now under a name. -/
def putChild (name : String) (entry : Option Entry) (children : Children) : Children :=
  let others := children.filter (·.1 ≠ name)
  match entry with
  | some entry => (name, entry) :: others
  | none => others

/-- Where a path has come to. -/
structure Place where
  /-- What is there, if anything is. -/
  entry : Option Entry
  /-- The directories above, the nearest first, each with the name by which it was left. -/
  above : List (String × Children)

namespace Place

/-- The directory above, with what is here in it. The root is above itself. -/
def up (p : Place) : Place :=
  match p.above with
  | [] => p
  | (name, children) :: above => ⟨some (.directory (putChild name p.entry children)), above⟩

/-- Longest name in a directory, in bytes. -/
def nameLimit : Nat := 255

/-- The place that one name of a path leads to. -/
def step (p : Place) (name : String) : Except FileError Place :=
  match p.entry with
  | none => .error .notFound
  | some (.file _) => .error .notDirectory
  | some (.directory children) =>
    if name = "" || name = "." then .ok p
    else if name = ".." then .ok p.up
    else if nameLimit < name.utf8ByteSize then .error .nameTooLong
    else .ok ⟨children.lookup name, (name, children) :: p.above⟩

/-- The directory that one name of a path leads to, which is made if nothing is there. -/
def stepMaking (p : Place) (name : String) : Except FileError Place := do
  let place ← p.step name
  match place.entry with
  | none => .ok { place with entry := some (.directory []) }
  | some (.file _) => .error .notDirectory
  | some (.directory _) => .ok place

/-- What is at the root above a place. -/
def rootOf (entry : Option Entry) : List (String × Children) → Option Entry
  | [] => entry
  | (name, children) :: above =>
    rootOf (some (.directory (putChild name entry children))) above

end Place

/-! ## Trees -/

/-- A tree of files. -/
structure Tree where
  /-- What is in the root. -/
  root : Children
  /-- The names on the way from the root to the working directory. -/
  here : List String

namespace Tree

/-- The root as a place. -/
def top (t : Tree) : Place :=
  ⟨some (.directory t.root), []⟩

/-- The tree in which a place was changed. -/
def withPlace (t : Tree) (place : Place) : Tree :=
  match Place.rootOf place.entry place.above with
  | some (.directory children) => { t with root := children }
  | _ => t

/-- The place where a path begins. -/
def origin (t : Tree) (path : String) : Except FileError Place :=
  if path.startsWith "/" then .ok t.top else t.here.foldlM Place.step t.top

/-- Whether the character NUL is in a path; no file has such a path. -/
def holdsNul (path : String) : Bool :=
  path.toList.contains '\x00'

/-- Longest path, in bytes. -/
def pathLimit : Nat := 4095

/-- Why a path leads nowhere, whatever there is. -/
def checkPath (path : String) : Except FileError Unit :=
  if holdsNul path then .error .nulInPath
  else if pathLimit < path.utf8ByteSize then .error .nameTooLong
  else .ok ()

/-- The place of a path. -/
def resolve (t : Tree) (path : String) : Except FileError Place := do
  checkPath path
  if path = "" then .error .notFound
  else (path.splitOn "/").foldlM Place.step (← t.origin path)

/-- Whether there is something at a path. -/
def contains (t : Tree) (path : String) : Bool :=
  match t.resolve path with
  | .ok place => place.entry.isSome
  | .error _ => false

/-- Reads the text of a file. -/
def read (t : Tree) (path : String) : Except FileError String := do
  match (← t.resolve path).entry with
  | none => .error .notFound
  | some (.directory _) => .error .isDirectory
  | some (.file bytes) => decodeText bytes

/-- Writes bytes to a file, which is made if need be. -/
def writeBytes (t : Tree) (path : String) (bytes : ByteArray) : Except FileError Tree := do
  let place ← t.resolve path
  match place.entry with
  | some (.directory _) => .error .isDirectory
  | _ => .ok (t.withPlace { place with entry := some (.file bytes) })

/-- Writes a text to a file. -/
def write (t : Tree) (path text : String) : Except FileError Tree :=
  t.writeBytes path text.toUTF8

/-- Removes a file. -/
def remove (t : Tree) (path : String) : Except FileError Tree := do
  let place ← t.resolve path
  match place.entry with
  | none => .error .notFound
  | some (.directory _) => .error .isDirectory
  | some (.file _) => .ok (t.withPlace { place with entry := none })

/-- Makes a directory and all that lead to it. -/
def makeDirectories (t : Tree) (path : String) : Except FileError Tree := do
  checkPath path
  return t.withPlace (← (path.splitOn "/").foldlM Place.stepMaking (← t.origin path))

end Tree

/-! ## Paths -/

/-- Drops what a path may end in without leading elsewhere: separators, and the name `.` behind one.
The path is given from its end; a separator at its beginning stays. -/
def trimSeparators : List Char → List Char
  | ['/'] => ['/']
  | '/' :: rest => trimSeparators rest
  | '.' :: '/' :: rest => trimSeparators ('/' :: rest)
  | path => path

/-- The path of the directory that holds what a path leads to; a bare name is in the empty path. -/
def parent (path : String) : String :=
  let stem := (trimSeparators path.toList.reverse).dropWhile (· ≠ '/')
  String.ofList (trimSeparators stem).reverse

/-- A name in a directory. -/
def join (directory name : String) : String :=
  if directory = "" then name
  else if directory.endsWith "/" then directory ++ name
  else directory ++ "/" ++ name

end CanvasLink.Files
