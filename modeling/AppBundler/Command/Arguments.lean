import AppBundler.Text.Parts
/-!
# Arguments of the command line

A command is named by the first argument that is no option; the options that every command has may stand in
front of it. An option with a value takes it after an equals sign, or from the next argument. Two hyphens end
the options.
-/

namespace AppBundler

/-- A command with its arguments. -/
inductive Command where
  /-- Shows the schema of a script. -/
  | schema (file : String) (strict : Bool)
  /-- Shows the hash and the version of an app. -/
  | hash (app : String)
  /-- Writes the artifact of an app. -/
  | build (app target : String) (baseUrl output : Option String)
  /-- Stores a version of an app with its artifact. -/
  | publish (app target : String) (baseUrl : Option String) (blobDirectory : String)
  /-- Lists the versions of an app. -/
  | versions (appId : String)
deriving DecidableEq

/-- A command and what is said for every command. -/
structure Invocation where
  frameworkDirectory : Option String
  command : Command
deriving DecidableEq

/-- What is wrong with arguments. -/
inductive UsageFault where
  | unexpected (argument : String)
  | missingValue (option : String)
  | emptyValue (option : String)
  | repeated (option : String)
  | unknownCommand (name : String)
  | missingCommand
  | missingArgument (name : String)
deriving DecidableEq

/-- The wording of a fault. -/
def UsageFault.message : UsageFault → String
  | .unexpected argument => "unexpected argument '" ++ argument ++ "' found"
  | .missingValue option => "a value is required for '" ++ option ++ "' but none was supplied"
  | .emptyValue option => "a value is required for '" ++ option ++ "' but none was supplied"
  | .repeated option => "the argument '" ++ option ++ "' cannot be used multiple times"
  | .unknownCommand name => "unrecognized subcommand '" ++ name ++ "'"
  | .missingCommand => "a subcommand is required"
  | .missingArgument name => "the required argument <" ++ name ++ "> was not provided"

/-- An option. -/
structure OptionSpec where
  long : String
  short : Option Char
  hasValue : Bool

/-- Arguments while they are taken apart. -/
structure ParsedArguments where
  /-- The options that stood in front of the command. -/
  outer : List (String × String)
  /-- The options since the command. -/
  options : List (String × String)
  positional : List String
deriving Inhabited

namespace ParsedArguments

/-- The value of an option. What stands behind the command wins. -/
def value? (p : ParsedArguments) (long : String) : Option String :=
  ((p.options ++ p.outer).find? fun o => o.1 = long).map (·.2)

/-- Adds an option that was not given before on the same side of the command. -/
def withOption (p : ParsedArguments) (long value : String) : Except UsageFault ParsedArguments :=
  if p.options.any fun o => o.1 = long then .error (.repeated ("--" ++ long))
  else .ok { p with options := (long, value) :: p.options }

/-- Goes on behind the command. -/
def behindCommand (p : ParsedArguments) : ParsedArguments := { p with outer := p.options, options := [] }

/-- Adds an argument that is no option. -/
def withPositional (p : ParsedArguments) (argument : String) : ParsedArguments :=
  { p with positional := p.positional ++ [argument] }

end ParsedArguments

namespace Arguments

/-- The options of every command. -/
def globalSpecs : List OptionSpec :=
  [⟨"verbose", some 'v', false⟩, ⟨"json", none, false⟩, ⟨"framework-dir", none, true⟩]

/-- The options of the commands that build. -/
def buildSpecs : List OptionSpec := [⟨"target", some 't', true⟩, ⟨"base-url", none, true⟩]

/-- The options of a command besides those of every command; none when there is no such command. -/
def specsOf? (name : String) : Option (List OptionSpec) :=
  if name = "schema" then some [⟨"strict", none, false⟩]
  else if name = "hash" || name = "versions" then some []
  else if name = "build" then some (buildSpecs ++ [⟨"output", some 'o', true⟩])
  else if name = "publish" then some (buildSpecs ++ [⟨"blob-dir", none, true⟩])
  else none

/-- Whether an argument has the form of an option. -/
def isOption (argument : String) : Bool :=
  match argument.toList with
  | '-' :: _ :: _ => true
  | _ => false

/-- The value of an option from the next argument. -/
def nextValue (name : String) : List String → Except UsageFault (String × List String)
  | [] => .error (.missingValue name)
  | v :: r => if isOption v then .error (.missingValue name) else .ok (v, r)

/-- Takes an option of one letter, and those that stand behind it in the same argument. -/
def takeShort (specs : List OptionSpec) (p : ParsedArguments) : List Char → List String →
    Except UsageFault (ParsedArguments × List String)
  | [], rest => .ok (p, rest)
  | c :: r, rest =>
    match specs.find? fun s => s.short = some c with
    | none => .error (.unexpected ("-" ++ String.singleton c))
    | some s =>
      if s.hasValue then do
        let (value, rest) ← match r with
          | [] => nextValue ("-" ++ String.singleton c) rest
          | '=' :: v => .ok (String.ofList v, rest)
          | v => .ok (String.ofList v, rest)
        .ok (← p.withOption s.long value, rest)
      else do takeShort specs (← p.withOption s.long "") r rest

/-- Takes an option with a long name. -/
def takeLong (specs : List OptionSpec) (p : ParsedArguments) (text : List Char) (rest : List String) :
    Except UsageFault (ParsedArguments × List String) := do
  let (name, given) := match Text.splitOnce? '=' text with
    | some (name, value) => (String.ofList name, some (String.ofList value))
    | none => (String.ofList text, none)
  match specs.find? fun s => s.long = name, given with
  | none, _ => .error (.unexpected ("--" ++ name))
  | some s, some value =>
    if s.hasValue then .ok (← p.withOption s.long value, rest) else .error (.unexpected ("--" ++ String.ofList text))
  | some s, none =>
    if s.hasValue then do
      let (value, rest) ← nextValue ("--" ++ name) rest
      .ok (← p.withOption s.long value, rest)
    else .ok (← p.withOption s.long "", rest)

/-- Takes arguments apart. The first argument that is no option names the command and brings its options. -/
def take : (fuel : Nat) → (command : Option String) → List OptionSpec → ParsedArguments → List String →
    Except UsageFault (Option String × ParsedArguments)
  | 0, command, _, p, _ => .ok (command, p)
  | _ + 1, command, _, p, [] => .ok (command, p)
  | fuel + 1, command, specs, p, argument :: rest =>
    match argument.toList, command with
    | ['-', '-'], some name => .ok (name, rest.foldl ParsedArguments.withPositional p)
    | '-' :: '-' :: text, _ => do
      let (p, rest) ← takeLong specs p text rest
      take fuel command specs p rest
    | '-' :: c :: text, _ => do
      let (p, rest) ← takeShort specs p (c :: text) rest
      take fuel command specs p rest
    | _, some name => take fuel name specs (p.withPositional argument) rest
    | _, none =>
      match specsOf? argument with
      | some more => take fuel (some argument) (specs ++ more) p.behindCommand rest
      | none => .error (.unknownCommand argument)

/-- The only argument of a command. -/
def only (name : String) : List String → Except UsageFault String
  | [] => .error (.missingArgument name)
  | [x] => .ok x
  | _ :: x :: _ => .error (.unexpected x)

/-- The value of an option for a path, which must not be empty. -/
def pathValue? (p : ParsedArguments) (long : String) (otherwise : Option String) :
    Except UsageFault (Option String) :=
  match (p.value? long).or otherwise with
  | some "" => .error (.emptyValue ("--" ++ long))
  | v => .ok v

/-- The usual target of a build. -/
def defaultTarget : String := "deno"

/-- The usual directory of stored artifacts. -/
def defaultBlobDirectory : String := ".applet/blobs"

/-- The variables that stand in for options. -/
def variableNames : List String := ["APPLET_FRAMEWORK_DIR", "APPLET_BLOB_DIR"]

/-- The command of a name with the arguments that were taken apart. -/
def command (environment : String → Option String) (name : String) (p : ParsedArguments) :
    Except UsageFault Command := do
  let target := (p.value? "target").getD defaultTarget
  let baseUrl := p.value? "base-url"
  if name = "schema" then return .schema (← only "FILE" p.positional) (p.value? "strict").isSome
  else if name = "versions" then return .versions (← only "APP_ID" p.positional)
  else
    let app ← only "APP" p.positional
    if name = "hash" then return .hash app
    else if name = "build" then return .build app target baseUrl (← pathValue? p "output" none)
    else
      let directory ← pathValue? p "blob-dir" (environment "APPLET_BLOB_DIR")
      return .publish app target baseUrl (directory.getD defaultBlobDirectory)

/-- The invocation that arguments stand for in an environment. -/
def parse (environment : String → Option String) (arguments : List String) : Except UsageFault Invocation := do
  match ← take (arguments.length + 1) none globalSpecs default arguments with
  | (none, _) => .error .missingCommand
  | (some name, p) =>
    let directory ← pathValue? p "framework-dir" (environment "APPLET_FRAMEWORK_DIR")
    return ⟨directory, ← command environment name p⟩

end Arguments

end AppBundler
