import SchemaPackage.Compile

/-!
The command line. Its only command compiles a schema; help and version are asked for in the
usual ways. Arguments are read one by one, so help is given only if nothing before it is amiss.
-/
namespace SchemaPackage.CommandLine

/-- The options that take a value. -/
inductive Setting
  | source
  | shared
  | target
  | release
  | snapshots
deriving DecidableEq

def settingNames : List (Text × Setting) :=
  [("source", .source), ("common", .shared), ("target", .target), ("release", .release),
   ("enable-snapshot", .snapshots)]

def settingLetters : List (Char × Setting) :=
  [('s', .source), ('c', .shared), ('t', .target), ('r', .release)]

/-- The options given so far. -/
structure Given where
  source : Option Text := none
  shared : Option Text := none
  target : Option Text := none
  release : Option Text := none
  snapshots : Option Text := none
  verbose : Bool := false

namespace Given

def value? (g : Given) : Setting → Option Text
  | .source => g.source
  | .shared => g.shared
  | .target => g.target
  | .release => g.release
  | .snapshots => g.snapshots

def set (s : Setting) (value : Text) (g : Given) : Given :=
  match s with
  | .source => { g with source := some value }
  | .shared => { g with shared := some value }
  | .target => { g with target := some value }
  | .release => { g with release := some value }
  | .snapshots => { g with snapshots := some value }

/-- Only folders need a value that is not empty. -/
def mayBeEmpty : Setting → Bool
  | .release => true
  | .snapshots => true
  | _ => false

/-- No option is given twice. -/
def put? (s : Setting) (value : Text) (g : Given) : Option Given :=
  if (g.value? s).isSome then none
  else if value.isEmpty && !mayBeEmpty s then none
  else some (g.set s value)

/-- Closes an option whose value has not come, if there is one. Snapshots are switched on by the
bare option. -/
def settle? (waiting : Option Setting) (g : Given) : Option Given :=
  match waiting with
  | none => some g
  | some .snapshots => g.put? .snapshots "true"
  | some _ => none

def chatty? (g : Given) : Option Given :=
  if g.verbose then none else some { g with verbose := true }

end Given

/-- What has come of the arguments read so far. -/
inductive Reading
  | going (g : Given) (waiting : Option Setting)
  | help
  | misuse

def Reading.ofGiven : Option Given → Reading
  | some g => .going g none
  | none => .misuse

/-- Reads an option by its name and the value attached to it. -/
def readNamed (g : Given) (name : Text) (value : Option Text) : Reading :=
  match settingNames.lookup name, value with
  | some s, some value => .ofGiven (g.put? s value)
  | some s, none => .going g (some s)
  | none, some _ => .misuse
  | none, none =>
    if name == "verbose" then .ofGiven g.chatty?
    else if name == "help" then .help
    else .misuse

/-- A value attached to a letter may have an equals sign in front. -/
def attached : Text → Option Text
  | [] => none
  | '=' :: value => some value
  | value => some value

/-- Reads letters that share a dash, up to the first one that takes a value. -/
def readLetters (g : Given) : Text → Reading
  | [] => .going g none
  | c :: rest =>
    match settingLetters.lookup c with
    | some s =>
      match attached rest with
      | some value => .ofGiven (g.put? s value)
      | none => .going g (some s)
    | none =>
      if c = 'h' then .help
      else if c = 'v' then
        match g.chatty? with
        | some g => readLetters g rest
        | none => .misuse
      else .misuse

/-- The name and the attached value of an option. -/
def splitNamed (named : Text) : Text × Option Text :=
  let name := named.takeWhile (· != '=')
  match named.dropWhile (· != '=') with
  | '=' :: value => (name, some value)
  | _ => (name, none)

/-- Reads one argument. A single dash alone counts as a value. -/
def readArgument (g : Given) (waiting : Option Setting) (arg : Text) : Reading :=
  match arg with
  | '-' :: '-' :: named =>
    match g.settle? waiting with
    | some g => let (name, value) := splitNamed named; readNamed g name value
    | none => .misuse
  | '-' :: c :: letters =>
    match g.settle? waiting with
    | some g => readLetters g (c :: letters)
    | none => .misuse
  | _ =>
    match waiting with
    | some s => .ofGiven (g.put? s arg)
    | none => .misuse

/-- Two dashes end the options, and nothing else is expected. -/
def readArguments (g : Given) (waiting : Option Setting) : List Text → Reading
  | [] => .ofGiven (g.settle? waiting)
  | ['-', '-'] :: rest => if rest.isEmpty then .ofGiven (g.settle? waiting) else .misuse
  | arg :: rest =>
    match readArgument g waiting arg with
    | .going g waiting => readArguments g waiting rest
    | .help => .help
    | .misuse => .misuse

inductive Request
  | compile (settings : Settings) (verbose : Bool)
  | help
  | version
  | misuse

/-- The request of complete options; snapshots may also be switched on from the environment. -/
def Given.request (snapshotVariable : Option Text) (g : Given) : Request :=
  match g.source, g.target, g.release with
  | some source, some target, some release =>
    .compile
      { source := .ofText source
        shared := g.shared.map Path.ofText
        target := .ofText target
        release
        tracked := ((g.snapshots <|> snapshotVariable).map isTruthy).getD false }
      g.verbose
  | _, _, _ => .misuse

/-- Help can be had on each command, itself included. -/
def helpTopics : List (List Text) := [[], ["compile"], ["help"]]

def helpRequest (topics : List Text) : Request :=
  if helpTopics.contains topics then .help else .misuse

/-- What the arguments of the command ask for. -/
def compileRequest (snapshotVariable : Option Text) (args : List Text) : Request :=
  match readArguments {} none args with
  | .going g _ => g.request snapshotVariable
  | .help => .help
  | .misuse => .misuse

/-- What an option in the place of a command asks for. -/
def bareRequest (option : Text) : Request :=
  if option == "--help" then .help
  else if option == "--version" then .version
  else match option with
    | '-' :: 'h' :: _ => .help
    | '-' :: 'V' :: _ => .version
    | _ => .misuse

/-- The request of a command line, given the variable that switches snapshots on. -/
def request (snapshotVariable : Option Text) : List Text → Request
  | [] => .misuse
  | command :: args =>
    if command == "compile" then compileRequest snapshotVariable args
    else if command == "help" then helpRequest args
    else bareRequest command

def versionLine : Text := "rust-dbpack 0.1.0"

def usage : Text :=
  "Usage: rust-dbpack compile --source FOLDER [--common FOLDER] --target FOLDER --release TEXT "
    ++ "[--enable-snapshot [FLAG]] [--verbose]\n"

/-- What the program leaves behind besides the disk: exit code, output and error output. -/
structure Report where
  exitCode : UInt32
  output : Text := []
  errors : Text := []

/-- Answers a request on a disk. -/
def perform (made : Package.Moment) (disk : Disk) : Request → Report × Disk
  | .help => ({ exitCode := 0, output := usage }, disk)
  | .version => ({ exitCode := 0, output := versionLine ++ "\n" }, disk)
  | .misuse => ({ exitCode := 2, errors := usage }, disk)
  | .compile settings verbose =>
    match Compile.run made settings disk with
    | (.ok package, disk) =>
      let created := "Created package: " ++ package.text ++ "\n"
      ({ exitCode := 0, output := Text.onlyIf verbose created }, disk)
    | (.error fault, disk) =>
      ({ exitCode := 1, errors := "Error: " ++ fault.message ++ "\n" }, disk)

end SchemaPackage.CommandLine
