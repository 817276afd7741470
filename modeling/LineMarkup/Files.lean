/-!
# Files

A hierarchical tree of files and directories without links. A path is a text whose
names are separated by slashes; it is followed name by name, and every name but the
last must lead to a directory. A path and each of its names have a greatest length.
Directories are never removed, so a path that leads to a place once leads to the same
place ever after.
-/

namespace LineMarkup

/-- A place in a file tree: the names from the root on. -/
abbrev Location := List String

inductive Entry where
  | file (content : ByteArray)
  | directory
  deriving Inhabited

/-- A file tree, seen from a working directory. The root is always a directory. -/
structure FileTree where
  workingDirectory : Location
  entries : List (Location × Entry)
  deriving Inhabited

namespace FileTree

/-- A tree with nothing but an empty working directory. -/
def fresh (workingDirectory : Location) : FileTree :=
  { workingDirectory := workingDirectory, entries := [(workingDirectory, .directory)] }

def entry? (tree : FileTree) (location : Location) : Option Entry :=
  if location.isEmpty then some .directory else tree.entries.lookup location

def isDirectory (tree : FileTree) (location : Location) : Bool :=
  match tree.entry? location with
  | some .directory => true
  | _ => false

def put (tree : FileTree) (location : Location) (entry : Entry) : FileTree :=
  { tree with entries := (location, entry) :: tree.entries.filter (·.1 != location) }

def erase (tree : FileTree) (location : Location) : FileTree :=
  { tree with entries := tree.entries.filter (·.1 != location) }

/-- The greatest length of a path, in bytes. -/
def pathLimit : Nat := 4095

/-- The greatest length of a name, in bytes. -/
def nameLimit : Nat := 255

/-- Whether a text can be a path at all: it is not empty, has no null character, and is
short enough. Its names are not looked at before the path is followed. -/
def isPath (path : String) : Bool :=
  !path.isEmpty && !path.toList.contains '\x00' && path.utf8ByteSize ≤ pathLimit

/-- What stands between the slashes of a path, even where it is nothing. -/
def parts (path : String) : List String := (path.toList.splitOn '/').map String.ofList

/-- Where a path begins: at the root if it begins with a slash. -/
def start (tree : FileTree) (path : String) : Location :=
  if path.toList.head? = some '/' then [] else tree.workingDirectory

/-- Follow one name from a directory. An empty name and a dot stay there, two dots lead
to the directory above, and a name that is too long leads nowhere. -/
def follow? (tree : FileTree) (location : Location) (name : String) : Option Location :=
  if !tree.isDirectory location then none
  else if name = "" ∨ name = "." then some location
  else if name = ".." then some location.dropLast
  else if name.utf8ByteSize ≤ nameLimit then some (location ++ [name])
  else none

/-- Follow several names. Something need not be found behind the last of them. -/
def followAll? (tree : FileTree) : Location → List String → Option Location
  | location, [] => some location
  | location, name :: names => do tree.followAll? (← tree.follow? location name) names

/-- The location that a path names. -/
def locate? (tree : FileTree) (path : String) : Option Location :=
  if isPath path then tree.followAll? (tree.start path) (parts path) else none

def contains (tree : FileTree) (path : String) : Bool :=
  ((tree.locate? path).bind tree.entry?).isSome

def read? (tree : FileTree) (path : String) : Option ByteArray :=
  match (tree.locate? path).bind tree.entry? with
  | some (.file content) => some content
  | _ => none

/-- The text of the file under a path, which must be UTF-8. -/
def readText? (tree : FileTree) (path : String) : Option String :=
  (tree.read? path).bind String.fromUTF8?

/-- Write a file in a directory that is there. -/
def write? (tree : FileTree) (path : String) (content : ByteArray) : Option FileTree := do
  let location ← tree.locate? path
  if tree.isDirectory location then none else some (tree.put location (.file content))

def remove? (tree : FileTree) (path : String) : Option FileTree := do
  let location ← tree.locate? path
  match tree.entry? location with
  | some (.file _) => some (tree.erase location)
  | _ => none

/-- Make the directories along several names where they are missing. What was made
before a failure stays. The answer says whether all of them are there; a missing
directory is not made when only a dot follows its name. -/
def makeAlong (tree : FileTree) (location : Location) : List String → FileTree × Bool
  | [] => (tree, true)
  | name :: names =>
      match tree.follow? location name with
      | none => (tree, false)
      | some next =>
          match tree.entry? next with
          | some .directory => tree.makeAlong next names
          | some (.file _) => (tree, false)
          | none =>
              if !names.isEmpty && names.all (· = ".") then (tree, false)
              else (tree.put next .directory).makeAlong next names

/-- The names of a path that say something, without the empty ones. -/
def names (path : String) : List String := (parts path).filter (· ≠ "")

/-- Parts of a path without the empty ones and the dots at the end, which name nothing. -/
def dropIdle (parts : List String) : List String :=
  (parts.reverse.dropWhile fun part => part = "" ∨ part = ".").reverse

/-- The path of the directory that holds what a path names. It is empty where that is the
place at which the path begins. -/
def parent (path : String) : String :=
  "/".intercalate (dropIdle (dropIdle (parts path)).dropLast)

/-- Make a directory with all that leads to it, name by name. What cannot be a path makes
nothing; a name that leads nowhere fails only where it is reached. -/
def makeDirectory (tree : FileTree) (path : String) : FileTree × Bool :=
  if path.isEmpty then (tree, true)
  else if isPath path then tree.makeAlong (tree.start path) (names path)
  else (tree, false)

/-- Write a file, and make the directories that lead to it first. They stay even if the
file cannot be written. -/
def writeDeep (tree : FileTree) (path : String) (content : ByteArray) : FileTree × Bool :=
  match tree.makeDirectory (parent path) with
  | (made, false) => (made, false)
  | (made, true) =>
      match made.write? path content with
      | some written => (written, true)
      | none => (made, false)

end FileTree

end LineMarkup
