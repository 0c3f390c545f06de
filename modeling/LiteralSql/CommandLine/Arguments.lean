import LiteralSql.Text

/-! The arguments of the command line.

Options may stand as `--name value`, `--name=value`, `-n value`, `-nvalue` or
`-n=value`, and flags of one letter may be written together. A value does not
begin with a dash unless it is attached; behind `--` nothing is an option.

The first fault from the left decides. An attached value is checked where it
stands, one that is an argument of its own when the next option or positional
value is taken up, and a value before a subcommand after all of the subcommand.
-/

set_option autoImplicit false

namespace LiteralSql

def readCount? (text : Text) : Option Nat :=
  let digits := match text with
    | '+' :: rest => rest
    | rest => rest
  match Text.toNat? digits with
  | some count => if count < 0x10000000000000000 then some count else none
  | none => none

inductive ValueKind
  | text
  | path
  | count
  deriving DecidableEq

def ValueKind.accepts (kind : ValueKind) (value : Text) : Bool :=
  match kind with
  | .text => true
  | .path => !value.isEmpty
  | .count => (readCount? value).isSome

structure OptionSpec where
  long : Text
  short : Option Char := none
  valueName : Option Text := none
  kind : ValueKind := .text
  about : Text
  variableName : Option Text := none
  secret : Bool := false
  default : Option Text := none
  deriving DecidableEq

def OptionSpec.takesValue (option : OptionSpec) : Bool := option.valueName.isSome

structure PositionalSpec where
  name : Text
  kind : ValueKind := .text
  about : Text
  deriving DecidableEq

inductive ArgumentUse
  | option (spec : OptionSpec) (value : Text)
  | positional (spec : PositionalSpec) (value : Text)
  deriving DecidableEq

inductive HelpTopic
  | program
  | query
  | importFile
  | help
  deriving DecidableEq

inductive ArgumentStop
  | usage
  | help (topic : HelpTopic)
  | version
  deriving DecidableEq

/-- The parts that a command is given: options with their values, positional
values, and, for a command with subcommands, the subcommand with what follows it. -/
structure ParsedArguments where
  options : List (Text × Text) := []
  positional : List Text := []
  held : Option ArgumentUse := none
  subcommand : Option (Text × List Text) := none

namespace ParsedArguments

def value? (parsed : ParsedArguments) (long : String) : Option Text :=
  parsed.options.lookup long.toList

def has (parsed : ParsedArguments) (long : String) : Bool := (parsed.value? long).isSome

/-- Checks a value. An option may be given once. -/
def accept (parsed : ParsedArguments) : ArgumentUse → Except ArgumentStop ParsedArguments
  | .option spec value =>
    if (parsed.options.lookup spec.long).isSome || !spec.kind.accepts value then .error .usage
    else .ok { parsed with options := parsed.options ++ [(spec.long, value)] }
  | .positional spec value =>
    if spec.kind.accepts value then .ok { parsed with positional := parsed.positional ++ [value] }
    else .error .usage

def settle (parsed : ParsedArguments) : Except ArgumentStop ParsedArguments :=
  match parsed.held with
  | none => .ok parsed
  | some use => { parsed with held := none }.accept use

def add (parsed : ParsedArguments) (use : ArgumentUse) : Except ArgumentStop ParsedArguments := do
  (← parsed.settle).accept use

def hold (parsed : ParsedArguments) (use : ArgumentUse) : Except ArgumentStop ParsedArguments := do
  .ok { (← parsed.settle) with held := some use }

def stop {α : Type} (parsed : ParsedArguments) (reason : ArgumentStop) : Except ArgumentStop α := do
  let _ ← parsed.settle
  .error reason

end ParsedArguments

structure CommandSpec where
  topic : HelpTopic
  options : List OptionSpec := []
  positionals : List PositionalSpec := []
  hasSubcommands : Bool := false
  hasVersion : Bool := false

namespace CommandSpec

/-- A value of its own does not look like an option; a lone dash does not. -/
def isValue (argument : Text) : Bool :=
  match argument with
  | ['-'] => true
  | '-' :: _ => false
  | _ => true

/-- Reads letters behind one dash; the last of them may take a value. If the
value is the next argument, this is asked for. -/
def readShort (spec : CommandSpec) : Text → ParsedArguments →
    Except ArgumentStop (ParsedArguments × Option OptionSpec)
  | [], parsed => .ok (parsed, none)
  | letter :: rest, parsed =>
    match spec.options.find? fun option => option.short = some letter with
    | some option =>
      if option.takesValue then
        match rest with
        | [] => do .ok (← parsed.settle, some option)
        | '=' :: attached => do .ok (← parsed.add (.option option attached), none)
        | attached => do .ok (← parsed.add (.option option attached), none)
      else do readShort spec rest (← parsed.add (.option option []))
    | none =>
      if letter = 'h' then parsed.stop (.help spec.topic)
      else if letter = 'V' ∧ spec.hasVersion then parsed.stop .version
      else .error .usage

def readLong (spec : CommandSpec) (text : Text) (parsed : ParsedArguments) :
    Except ArgumentStop (ParsedArguments × Option OptionSpec) :=
  let name := text.takeWhile (· ≠ '=')
  let attached := match text.dropWhile (· ≠ '=') with
    | _ :: value => some value
    | [] => none
  match spec.options.find? fun option => option.long = name with
  | some option =>
    match option.takesValue, attached with
    | true, some value => do .ok (← parsed.add (.option option value), none)
    | true, none => do .ok (← parsed.settle, some option)
    | false, none => do .ok (← parsed.add (.option option []), none)
    | false, some _ => .error .usage
  | none =>
    if name = "help".toList ∧ attached = none then parsed.stop (.help spec.topic)
    else if name = "version".toList ∧ attached = none ∧ spec.hasVersion then parsed.stop .version
    else .error .usage

def addPositional (spec : CommandSpec) (parsed : ParsedArguments) (value : Text) :
    Except ArgumentStop ParsedArguments := do
  let settled ← parsed.settle
  match spec.positionals[settled.positional.length]? with
  | some positional => settled.hold (.positional positional value)
  | none => .error .usage

/-- Reads arguments from the left; `waiting` is the option whose value comes
next. A value before a subcommand is still held at the end. -/
def read (spec : CommandSpec) (waiting : Option OptionSpec) (parsed : ParsedArguments) :
    List Text → Except ArgumentStop ParsedArguments
  | [] => if waiting.isSome then .error .usage else parsed.settle
  | argument :: rest =>
    match waiting with
    | some option =>
      if isValue argument then do
        read spec none (← parsed.hold (.option option argument)) rest
      else .error .usage
    | none =>
      match argument with
      | ['-', '-'] => do (← rest.foldlM spec.addPositional parsed).settle
      | '-' :: '-' :: text => do
        let (next, wanted) ← spec.readLong text parsed
        read spec wanted next rest
      | '-' :: letter :: letters => do
        let (next, wanted) ← spec.readShort (letter :: letters) parsed
        read spec wanted next rest
      | value =>
        if spec.hasSubcommands then .ok { parsed with subcommand := some (value, rest) }
        else do read spec none (← spec.addPositional parsed value) rest

end CommandSpec

inductive Command
  | query (sql : Text) (batch : Bool) (onSuccess onError : Option Text)
  | importFile (file table : Text) (create : Bool) (batchSize maxInProgress : Nat)
  deriving DecidableEq

structure Arguments where
  config : Option Text
  user : Option Text
  apiKey : Option Text
  baseUrl : Option Text
  zone : Option Text
  command : Command
  deriving DecidableEq

namespace Arguments

def mainSpec : CommandSpec where
  topic := .program
  options := [
    { long := "config".toList, short := some 'c', valueName := some "CONFIG".toList, kind := .path,
      about := "JSON config file with `username`/`base_url` and `api_key`".toList },
    { long := "user".toList, short := some 'u', valueName := some "USER".toList,
      about := "Account name; the API root becomes https://<user>.carto.com/api/v2".toList,
      variableName := some "CARTO_USER".toList },
    { long := "api-key".toList, short := some 'k', valueName := some "API_KEY".toList,
      about := "API key".toList, variableName := some "CARTO_API_KEY".toList, secret := true },
    { long := "base-url".toList, valueName := some "BASE_URL".toList,
      about := "API root, overriding --user".toList,
      variableName := some "CARTO_BASE_URL".toList },
    { long := "timezone".toList, valueName := some "TIMEZONE".toList,
      about := "Timezone for timestamps: `local`, `Z` or an offset like `+02:00`".toList },
    { long := "verbose".toList, short := some 'v', about := "Enable verbose output".toList }]
  hasSubcommands := true
  hasVersion := true

def querySpec : CommandSpec where
  topic := .query
  options := [
    { long := "batch".toList, about := "Submit as a batch job and wait for it".toList },
    { long := "on-success".toList, valueName := some "ON_SUCCESS".toList,
      about := "Statement the batch job runs on success".toList },
    { long := "on-error".toList, valueName := some "ON_ERROR".toList,
      about := "Statement the batch job runs on failure".toList }]
  positionals := [{ name := "SQL".toList, about := "The statement".toList }]

def importSpec : CommandSpec where
  topic := .importFile
  options := [
    { long := "table".toList, short := some 't', valueName := some "TABLE".toList,
      about := "Target table".toList },
    { long := "create".toList, about := "Create the table from the first feature".toList },
    { long := "batch-size".toList, valueName := some "BATCH_SIZE".toList, kind := .count,
      about := "Rows per insert".toList, default := some "50".toList },
    { long := "max-in-progress".toList, valueName := some "MAX_IN_PROGRESS".toList, kind := .count,
      about := "Inserts allowed in flight at once".toList, default := some "10".toList }]
  positionals := [{ name := "FILE".toList, kind := .path, about := "GeoJSON file".toList }]

def countOr (parsed : ParsedArguments) (long : String) (otherwise : Nat) : Nat :=
  ((parsed.value? long).bind readCount?).getD otherwise

/-- What follows a success or failure only makes sense for a job. -/
def readQuery (arguments : List Text) : Except ArgumentStop Command := do
  let parsed ← querySpec.read none {} arguments
  if (parsed.has "on-success" || parsed.has "on-error") && !parsed.has "batch" then .error .usage
  else match parsed.positional with
    | [sql] =>
      .ok (.query sql (parsed.has "batch") (parsed.value? "on-success") (parsed.value? "on-error"))
    | _ => .error .usage

def readImport (arguments : List Text) : Except ArgumentStop Command := do
  let parsed ← importSpec.read none {} arguments
  match parsed.positional, parsed.value? "table" with
  | [file], some table =>
    .ok (.importFile file table (parsed.has "create")
      (countOr parsed "batch-size" 50) (countOr parsed "max-in-progress" 10))
  | _, _ => .error .usage

/-- The topics that help can be asked for by name. Nothing may follow the name. -/
def readHelp (arguments : List Text) : Except ArgumentStop Command :=
  match arguments with
  | [] => .error (.help .program)
  | [name] =>
    if name = "query".toList then .error (.help .query)
    else if name = "import".toList then .error (.help .importFile)
    else if name = "help".toList then .error (.help .help)
    else .error .usage
  | _ => .error .usage

def readCommand (name : Text) (arguments : List Text) : Except ArgumentStop Command :=
  if name = "query".toList then readQuery arguments
  else if name = "import".toList then readImport arguments
  else if name = "help".toList then readHelp arguments
  else .error .usage

def read (environment : List (Text × Text)) (arguments : List Text) :
    Except ArgumentStop Arguments := do
  let before ← mainSpec.read none {} arguments
  match before.subcommand with
  | none => .error .usage
  | some (name, rest) =>
    let command ← readCommand name rest
    let parsed ← before.settle
    let inEnvironment (name : String) := environment.lookup name.toList
    .ok {
      config := parsed.value? "config"
      user := (parsed.value? "user").or (inEnvironment "CARTO_USER")
      apiKey := (parsed.value? "api-key").or (inEnvironment "CARTO_API_KEY")
      baseUrl := (parsed.value? "base-url").or (inEnvironment "CARTO_BASE_URL")
      zone := parsed.value? "timezone"
      command }

def paths (arguments : Arguments) : List Text :=
  arguments.config.toList ++ match arguments.command with
    | .importFile file _ _ _ _ => [file]
    | .query .. => []

end Arguments

end LiteralSql
