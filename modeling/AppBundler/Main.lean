import AppBundler.Command.Run
/-!
# The command line

A command is worked out from the files that are known, at first none. The files that it asked for are then
read, and it is worked out again, until it asks for no other. Only then a file is written.
-/

namespace AppBundler

namespace CommandLine

/-- What reading a file brought. -/
abbrev Reading := Except FileFault (List UInt8)

/-- The number of an error of the system, which may be given with either sign. -/
def errorNumber (code : UInt32) : UInt32 := if code < 0x80000000 then code else 0 - code

/-- The fault that an error of the system stands for. -/
def faultOf : IO.Error → FileFault
  | .noFileOrDirectory .. => .notFound
  | .noSuchThing .. => .notFound
  | .inappropriateType _ code _ => if errorNumber code = 21 then .isDirectory else .notADirectory
  | .alreadyExists .. => .notADirectory
  | .invalidArgument _ code _ => if errorNumber code = 36 then .nameTooLong else .invalidName
  | _ => .denied

/-- The outcome of an access to files. -/
def attempt {α : Type} (access : IO α) : IO (Except FileFault α) := do
  try return .ok (← access)
  catch e => return .error (faultOf e)

/-- Reads a file. -/
def readFile (path : String) : IO Reading := attempt do
  return (← IO.FS.readBinFile path).toList

/-- Writes a file. -/
def writeFile (path : String) (bytes : List UInt8) : IO Unit :=
  IO.FS.writeBinFile path (ByteArray.mk bytes.toArray)

/-- A directory with a file in it, as one path. -/
def pathIn (directory : String) (names : List String) : String :=
  names.foldl Framework.joinPath directory

/-- Stores content in a file of its own; no reader meets a part of it. -/
def storeBlob (root : String) (upload : PendingUpload) : IO Unit := do
  let draft := pathIn root (BlobFiles.draftPath upload.digest (toString (← IO.monoNanosNow)))
  IO.FS.createDirAll (pathIn root (BlobFiles.directory upload.digest))
  writeFile draft upload.bytes
  IO.FS.rename draft (pathIn root (BlobFiles.path upload.digest))

/-- Writes a file, or stores content that is not there. -/
def write : FileWrite → IO (Except FileFault Unit)
  | .file path bytes => attempt (writeFile path bytes)
  | .blob directory upload => do
    match ← readFile (pathIn directory (BlobFiles.path upload.digest)) with
    | .error .notFound => attempt (storeBlob directory upload)
    | r => return r.map fun _ => ()

/-- Does what a command does in the end, and says what is shown. -/
def perform (e : Effect) : IO Output := do
  match e.write with
  | none => return e.written
  | some w =>
    match ← write w with
    | .ok () => return e.written
    | .error fault => return e.failed fault

/-- A machine of which the given files are known; no other file is there. -/
def withFiles (machine : Machine) (known : List (String × Reading)) : Machine :=
  { machine with readFile := fun path =>
      match known.find? fun k => k.1 = path with
      | some (_, r) => r
      | none => .error .notFound }

/-- Works out a command, reading the files that it asks for. Every round but the last reads a module further
into the graph, so that there are no more rounds than modules. -/
def settle (machine : Machine) (arguments : List String) : (rounds : Nat) → List (String × Reading) → IO Effect
  | 0, known => return (Command.run (withFiles machine known) arguments).1
  | rounds + 1, known => do
    let (effect, files) := Command.run (withFiles machine known) arguments
    let new := (files.filter fun path => !known.any fun k => k.1 = path).eraseDups
    if new.isEmpty then return effect
    settle machine arguments rounds ((← new.mapM fun path => do return (path, ← readFile path)) ++ known)

/-- The variables of the environment that commands ask for. -/
def environment : IO (String → Option String) := do
  let given ← Command.variableNames.mapM fun name => do return (name, ← IO.getEnv name)
  return fun name => (given.find? fun g => g.1 = name).bind (·.2)

/-- Runs a command. Nothing outlives it, so the clock of the process serves as a calendar. -/
def run (arguments : List String) : IO UInt32 := do
  let machine : Machine := ⟨fun _ => .error .notFound, ← environment, .offline, ← IO.monoMsNow⟩
  let output ← perform (← settle machine arguments (moduleLimit + 2) [])
  IO.print output.stdout
  IO.eprint output.stderr
  return output.code.toUInt32

end CommandLine

end AppBundler

/-- The entry point of the program. -/
def main (arguments : List String) : IO UInt32 := AppBundler.CommandLine.run arguments
