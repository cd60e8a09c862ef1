import TreeLint.Command.Utf8
import TreeLint.Glob.Path
import TreeLint.Text.Basic
import TreeLint.Value.Display

/-!
# Files

What the program needs to know of files: what is found under a path, what may stand in the way, and
the document in a file. How a text is read as a document is left open.
-/

set_option autoImplicit false

namespace TreeLint

/-- A path, split at slashes. Empty pieces and single dots are left out. -/
structure PathName where
  /-- The slashes in front of an absolute path. -/
  root : String
  names : List String
  deriving DecidableEq, Repr

namespace PathName

def ofText (text : String) : PathName :=
  ⟨String.ofList (Glob.rootOf text.toList), (Glob.segments text.toList).map String.ofList⟩

def text (path : PathName) : String :=
  if path.root.isEmpty && path.names.isEmpty then "."
  else path.root ++ Text.join "/" path.names

/-- Whether the path cannot be named at all, because of a null character in it. -/
def hasNull (path : PathName) : Bool :=
  path.text.toList.contains (Char.ofNat 0)

def parent (path : PathName) : PathName :=
  { path with names := path.names.dropLast }

end PathName

inductive FileError where
  | missing (path : PathName)
  | occupied (path : PathName)
  | notDirectory (path : PathName)
  | isDirectory (path : PathName)
  | nameTooLong (path : PathName)
  | nullCharacter
  /-- Anything else, in the words of the operating system. -/
  | other (message : String)
  deriving DecidableEq, Repr

def FileError.message : FileError → String
  | missing path => "[Errno 2] No such file or directory: " ++ Text.quoted path.text
  | occupied path => "[Errno 17] File exists: " ++ Text.quoted path.text
  | notDirectory path => "[Errno 20] Not a directory: " ++ Text.quoted path.text
  | isDirectory path => "[Errno 21] Is a directory: " ++ Text.quoted path.text
  | nameTooLong path => "[Errno 36] File name too long: " ++ Text.quoted path.text
  | nullCharacter => "embedded null byte"
  | other message => message

inductive FileEntry where
  | file (bytes : List UInt8)
  | directory

inductive LoadError where
  | malformed
  /-- The text is a document, but a value in it cannot be had. -/
  | unusable (message : String)

abbrev Loader := String → Except LoadError Value

/-- The files at hand, and how their texts are read. -/
structure Files where
  find : PathName → Except FileError FileEntry
  load : Loader

def Files.ofEntries (load : Loader) (entries : List (PathName × Except FileError FileEntry)) :
    Files :=
  ⟨fun path => (entries.lookup path).getD (.error (.missing path)), load⟩

inductive DocumentError where
  | refused (error : FileError)
  | encoding (error : Utf8.DecodeError)
  | notYaml (path : PathName)
  | unusable (message : String)

/-- The wording, up to the description of a mistake in the document's writing. -/
def DocumentError.message : DocumentError → String
  | refused error => error.message
  | encoding error => error.message
  | notYaml path => path.text ++ " is not valid YAML"
  | unusable message => message

def Loader.document (load : Loader) (path : PathName) (bytes : List UInt8) :
    Except DocumentError Value :=
  match Utf8.decode bytes with
  | .error error => .error (.encoding error)
  | .ok text =>
      match load text with
      | .ok value => .ok value
      | .error .malformed => .error (.notYaml path)
      | .error (.unusable message) => .error (.unusable message)

/-- Reads the document of a file. A file that is not there counts as null, also when its path
cannot be followed or named. -/
def Files.document (files : Files) (path : PathName) : Except DocumentError Value :=
  match files.find path with
  | .ok (.file bytes) => files.load.document path bytes
  | .ok .directory => .error (.refused (.isDirectory path))
  | .error (.missing _) => .ok .null
  | .error (.notDirectory _) => .ok .null
  | .error .nullCharacter => .ok .null
  | .error error => .error (.refused error)

end TreeLint
