import TreeLint.Command.Files

/-!
# Directories

The files around a working directory and what can be done to them. A path is followed name by name:
every name but the last has to lead to a directory, and two dots lead up. So a path through a
directory that is still to be made cannot be followed, even if it leads back out at once.
-/

set_option autoImplicit false

namespace TreeLint

/-- A place among the files: so many levels up from the working directory, or from a root, and then
down along names. -/
structure Place where
  root : String
  up : Nat
  names : List String
  deriving DecidableEq, Repr

namespace Place

/-- The place that a name leads to. Nothing is above a root. -/
def step (place : Place) (name : String) : Place :=
  if name == ".." then
    if !place.names.isEmpty then { place with names := place.names.dropLast }
    else if place.root.isEmpty then { place with up := place.up + 1 }
    else place
  else { place with names := place.names ++ [name] }

def isBelow (place other : Place) : Bool :=
  place.root == other.root && place.up == other.up && other.names.isPrefixOf place.names &&
    place.names != other.names

end Place

/-- The files that are known, and the directories that were made. Around the working directory
nothing else is there. -/
structure Directory where
  files : List (Place × List UInt8)
  made : List Place

namespace Directory

/-- A working directory with files in it, given by the names that lead down to them. -/
def ofFiles (files : List (List String × List UInt8)) : Directory :=
  ⟨files.map fun (names, bytes) => (⟨"", 0, names⟩, bytes), []⟩

/-- Whether a directory stands at a place: the working directory, one above it or a root, one that
was made, or one with a file below it. -/
def isDirectory (directory : Directory) (place : Place) : Bool :=
  place.names.isEmpty || directory.made.contains place ||
    directory.files.any fun (file, _) => file.isBelow place

def entry? (directory : Directory) (place : Place) : Option FileEntry :=
  if directory.isDirectory place then some .directory
  else (directory.files.lookup place).map .file

/-- The greatest number of bytes in a name. -/
def nameLimit : Nat := 255

/-- The greatest number of bytes in a path. -/
def pathLimit : Nat := 4095

/-- Follows names. The last of them need not lead to anything. -/
def follow (directory : Directory) (path : PathName) (place : Place) :
    List String → Except FileError Place
  | [] => .ok place
  | name :: rest =>
      match directory.entry? place with
      | none => .error (.missing path)
      | some (.file _) => .error (.notDirectory path)
      | some .directory =>
          if nameLimit < name.utf8ByteSize then .error (.nameTooLong path)
          else directory.follow path (place.step name) rest

def locate (directory : Directory) (path : PathName) : Except FileError Place :=
  if path.hasNull then .error .nullCharacter
  else if pathLimit < path.text.utf8ByteSize then .error (.nameTooLong path)
  else directory.follow path ⟨path.root, 0, []⟩ path.names

def find (directory : Directory) (path : PathName) : Except FileError FileEntry := do
  let place ← directory.locate path
  match directory.entry? place with
  | some entry => return entry
  | none => throw (.missing path)

def toFiles (directory : Directory) (load : Loader) : Files := ⟨directory.find, load⟩

def make (directory : Directory) (path : PathName) : Except FileError Directory := do
  let place ← directory.locate path
  match path.names.getLast?, directory.entry? place with
  | some "..", _ => throw (.occupied path)
  | _, some _ => throw (.occupied path)
  | _, none => return { directory with made := place :: directory.made }

/-- Makes one directory unless it is there already. -/
def require (directory : Directory) (path : PathName) : Except FileError Directory :=
  match directory.make path, directory.find path with
  | .ok made, _ => .ok made
  | .error _, .ok .directory => .ok directory
  | .error error, _ => .error error

/-- Makes a directory, given by its names from the last to the first, and those above it that are
missing. -/
def requireAll (directory : Directory) (root : String) :
    List String → Except FileError Directory
  | [] => directory.require ⟨root, []⟩
  | name :: outer =>
      let path : PathName := ⟨root, (name :: outer).reverse⟩
      match directory.require path with
      | .error (.missing _) => do
          let outside ← directory.requireAll root outer
          outside.require path
      | result => result

def setFile (directory : Directory) (place : Place) (bytes : List UInt8) : Directory :=
  { directory with files := (place, bytes) :: directory.files.filter (·.1 != place) }

def write (directory : Directory) (path : PathName) (bytes : List UInt8) :
    Except FileError Directory := do
  let place ← directory.locate path
  match directory.entry? place with
  | some .directory => throw (.isDirectory path)
  | _ => return directory.setFile place bytes

/-- Writes a file; the directories that it needs are made. -/
def save (directory : Directory) (path : PathName) (bytes : List UInt8) :
    Except FileError Directory := do
  let ready ← directory.requireAll path.root path.parent.names.reverse
  ready.write path bytes

/-- The files of the working directory that are not the same in an earlier state of it. -/
def changedSince (directory earlier : Directory) : List (List String × List UInt8) :=
  (directory.files.filter fun (place, bytes) =>
    place.root.isEmpty && place.up == 0 && earlier.files.lookup place != some bytes).map
      fun (place, bytes) => (place.names, bytes)

end Directory

end TreeLint
