import TreeLint.Command.Program

/-!
# The program on the operating system's files

Looks up the files that the program may need, runs it, and saves the file that it asks for.
-/

set_option autoImplicit false

namespace TreeLint.Program

/-- The error code for reading a directory as a file. -/
def readsDirectory : UInt32 := 21

def probe (path : PathName) : IO (Except FileError FileEntry) := do
  if path.hasNull then return .error .nullCharacter
  try
    let bytes ← IO.FS.readBinFile path.text
    return .ok (.file bytes.toList)
  catch error =>
    match error with
    | .inappropriateType _ code _ =>
        return if code == readsDirectory then .ok .directory else .error (.notDirectory path)
    | .noFileOrDirectory .. => return .error (.missing path)
    | error => return .error (.other (toString error))

/-- Looks up the paths that a command line may need; a misused one needs none. -/
def gather (load : Loader) (arguments : List String) : IO Files := do
  match Options.parse arguments with
  | .error _ => return .ofEntries load []
  | .ok options =>
      let entries ← (paths options).mapM fun path => do return (path, ← probe path)
      return .ofEntries load entries

/-- Saves a file; the directories that it needs are made. -/
def save (path : PathName) (bytes : List UInt8) : IO (Except FileError Unit) := do
  if path.hasNull then return .error .nullCharacter
  try
    IO.FS.createDirAll path.parent.text
    IO.FS.writeBinFile path.text ⟨bytes.toArray⟩
    return .ok ()
  catch error => return .error (.other (toString error))

def finish : Course → IO Result
  | .ended result => return result
  | .saving path bytes result => do return result (← save path bytes)

/-- Runs the program; its status is the exit status. -/
def perform (load : Loader) (arguments : List String) : IO UInt32 := do
  let files ← gather load arguments
  let result ← finish (run arguments files)
  IO.print result.stdout
  IO.eprint result.stderr
  match result.ending with
  | .exit status => return status.toUInt32
  | .abort message =>
      IO.eprintln message
      return 1
  | .crash cause =>
      IO.eprintln cause.message
      return 1

end TreeLint.Program
