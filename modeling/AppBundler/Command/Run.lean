import AppBundler.App.Reader
import AppBundler.Command.Arguments
import AppBundler.Publish.Publisher
/-!
# Commands

A command works out what is to be shown and which file is to be written, from the files and settings of the
machine that it runs on. What is shown in the end depends only on whether the file could be written.
-/

namespace AppBundler

/-- What a command can ask of the machine. -/
structure Machine where
  readFile : String → Except FileFault (List UInt8)
  environment : String → Option String
  fetch : Fetcher
  /-- Milliseconds of the calendar. -/
  calendar : Int

/-- What a command shows in the end. -/
structure Output where
  code : Nat
  stdout : String
  stderr : String
deriving DecidableEq

namespace Output

/-- A command that did its work. -/
def success (text : String) : Output := ⟨0, text, ""⟩

/-- The lines of a text, all but the first behind blanks. -/
def hanging (blanks : String) (s : String) : String :=
  ("\n" ++ blanks).intercalate ((Text.splitLines s.toList).map String.ofList)

/-- A number in five places. -/
def inFivePlaces (n : Nat) : String :=
  String.ofList (List.replicate (5 - (Nat.toDigits 10 n).length) ' ') ++ toString n

/-- The causes of an error, numbered when there are several. -/
def causesText : List String → String
  | [] => ""
  | [cause] => "\n\nCaused by:\n    " ++ hanging "    " cause
  | causes => "\n\nCaused by:" ++ String.join (causes.zipIdx.map fun (cause, n) =>
      "\n" ++ inFivePlaces n ++ ": " ++ hanging "       " cause)

/-- A command that failed, with the causes from the outermost to the innermost. -/
def failure (error : String) (causes : List String) : Output :=
  ⟨1, "", "Error: " ++ error ++ causesText causes ++ "\n"⟩

/-- A command that was not understood. -/
def usage (fault : UsageFault) : Output := ⟨2, "", "error: " ++ fault.message ++ "\n"⟩

end Output

/-- A file to be written. -/
inductive FileWrite where
  /-- Replaces what is there; the directory must be there. -/
  | file (path : String) (bytes : List UInt8)
  /-- Stores content below a directory unless it is there; directories are made. -/
  | blob (directory : String) (upload : PendingUpload)

/-- What a command does in the end. -/
structure Effect where
  write : Option FileWrite
  /-- What is shown when the file was written, or when there is none. -/
  written : Output
  /-- What is shown when the file could not be written. -/
  failed : FileFault → Output

namespace Effect

/-- Shows something and writes nothing. -/
def showing (output : Output) : Effect := ⟨none, output, fun _ => output⟩

end Effect

namespace Command

/-- The text of a file that a command is given. -/
def readGiven (machine : Machine) (path : String) : Except Output String :=
  match (machine.readFile path).bind FileTree.textOf with
  | .ok s => .ok s
  | .error fault => .error (.failure ("Failed to read " ++ Text.shownPath path) [fault.message])

/-- The app that a file describes. -/
def readApp (machine : Machine) (path : String) : Except Output App := do
  let s ← readGiven machine path
  match App.ofText s with
  | .ok app => .ok app
  | .error reason => .error (.failure ("Invalid app JSON in " ++ Text.shownPath path) [reason])

/-- Shows the schema of a script. -/
def runSchema (machine : Machine) (file : String) (strict : Bool) : Except Output Output := do
  let source ← readGiven machine file
  match ScriptSchema.ofSource source strict with
  | .ok found => .ok (.success (found.toJson.pretty ++ "\n"))
  | .error e => .error (.failure ("Schema extraction failed for " ++ Text.shownPath file) e.causes)

/-- Shows the hash of an app. -/
def runHash (machine : Machine) (config : BuildConfig) (path : String) : Except Output Output := do
  let app ← readApp machine path
  let digest := app.hash config.frameworkVersion
  let version := versionOfHash digest
  .ok (.success ("Hash:    " ++ digest ++ "\nVersion: " ++ version ++ "\nURL:     " ++
    deploymentUrl "https" app.slug version ++ "\n"))

/-- The surroundings of builds on a machine. -/
def surroundings (machine : Machine) : Surroundings where
  readFile path := (machine.readFile path).bind FileTree.textOf
  remote := ⟨machine.fetch, .all .sound, machine.calendar⟩

/-- Nothing has been loaded. -/
def freshLoading : LoadState := ⟨⟨⟨[]⟩, 0, []⟩, []⟩

/-- Builds an app and writes its artifact. -/
def runBuild (machine : Machine) (config : BuildConfig) (path target : String) (baseUrl output : Option String) :
    Except Output Effect × List String :=
  match readApp machine path with
  | .error o => (.error o, [])
  | .ok app =>
    let version := versionOfHash (app.hash config.frameworkVersion)
    let (built, s) :=
      buildArtifact config .default (surroundings machine) ⟨app, target, version, baseUrl⟩ freshLoading
    match built with
    | .error e => (.error (.failure ("Build of " ++ app.slug ++ " failed") e.causes), s.filesRead)
    | .ok a =>
      let output := output.getD (app.slug ++ "-" ++ version ++ ".json")
      let shown := "Built " ++ app.slug ++ " v" ++ version ++ " (" ++ toString a.modules.length ++
        " modules)\n  Artifact: " ++ output ++ "\n"
      (.ok ⟨some (.file output (utf8Bytes a.text)), .success shown,
        fun fault => .failure ("Failed to write " ++ Text.shownPath output) [fault.message]⟩, s.filesRead)

/-- A store that holds nothing, for versions of which there are no records yet. -/
def emptyStore : BlobAccess Unit where
  contains _ _ := .ok false
  put _ bytes := (some (.ok (.ofBytes bytes)), ())

/-- Publishes an app and stores its artifact. -/
def runPublish (machine : Machine) (config : BuildConfig) (path target : String) (baseUrl : Option String)
    (directory : String) : Except Output Effect × List String :=
  match readApp machine path with
  | .error o => (.error o, [])
  | .ok app =>
    let p : Publisher := ⟨config, .default, surroundings machine⟩
    let (outcome, s) :=
      p.publish emptyStore () machine.calendar ⟨app, target, baseUrl⟩ ⟨⟨[]⟩, freshLoading, default⟩
    match outcome with
    | .error e => (.error (.failure ("Publish of " ++ app.slug ++ " failed") e.causes), s.loading.filesRead)
    | .ok o =>
      let verb := if o.reused then "Reused" else "Published"
      let shown := verb ++ " " ++ app.slug ++ " v" ++ o.record.version ++ "\n  Hash:     " ++ o.record.hash ++
        "\n  Artifact: " ++ o.record.artifact.hex ++ "\n  URL:      " ++
        deploymentUrl "https" app.slug o.record.version ++ "\n"
      (.ok ⟨o.upload.map (.blob directory), .success shown, fun fault =>
        .failure "Failed to store the artifact" (BuildError.storage (.file fault)).causes⟩, s.loading.filesRead)

/-- Lists the versions of an app of which there are no records. -/
def runVersions (appId : String) : Output := .success ("No versions found for '" ++ appId ++ "'\n")

/-- Runs a command with settings; says which files were asked for. -/
def runWith (machine : Machine) (config : BuildConfig) : Command → Except Output Effect × List String
  | .schema file strict => ((runSchema machine file strict).map .showing, [file])
  | .hash app => ((runHash machine config app).map .showing, [app])
  | .build app target baseUrl output =>
    let (r, files) := runBuild machine config app target baseUrl output
    (r, app :: files)
  | .publish app target baseUrl directory =>
    let (r, files) := runPublish machine config app target baseUrl directory
    (r, app :: files)
  | .versions appId => (.ok (.showing (runVersions appId)), [])

/-- The settings of an invocation. -/
def settings (machine : Machine) (i : Invocation) : Except Output BuildConfig :=
  match BuildConfig.ofEnvironment machine.environment with
  | .error fault => .error (.failure "Invalid build configuration" (BuildError.config fault).causes)
  | .ok config => .ok { config with frameworkDir := i.frameworkDirectory.getD config.frameworkDir }

/-- Runs the command that arguments stand for; says which files were asked for. -/
def run (machine : Machine) (arguments : List String) : Effect × List String :=
  match Arguments.parse machine.environment arguments with
  | .error fault => (.showing (.usage fault), [])
  | .ok i =>
    match settings machine i with
    | .error output => (.showing output, [])
    | .ok config =>
      match runWith machine config i.command with
      | (.ok effect, files) => (effect, files)
      | (.error output, files) => (.showing output, files)

/-- The variables that commands ask for. -/
def variableNames : List String := BuildConfig.variableNames ++ Arguments.variableNames

end Command

namespace FileTree

/-- The tree after a file was written. -/
def apply (t : FileTree) : FileWrite → Except FileFault FileTree
  | .file path bytes => t.write path bytes
  | .blob directory upload =>
    let place := plainNames directory ++ BlobFiles.path upload.digest
    if t.isBlocked place then .error .notADirectory
    else if (t.entry? place).isSome then .ok t
    else .ok (t.put place upload.bytes)

/-- The tree after what a command does in the end, and what it shows. -/
def perform (t : FileTree) (e : Effect) : Output × FileTree :=
  match e.write with
  | none => (e.written, t)
  | some w =>
    match t.apply w with
    | .ok t => (e.written, t)
    | .error fault => (e.failed fault, t)

end FileTree

end AppBundler
