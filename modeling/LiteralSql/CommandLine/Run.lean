import LiteralSql.Client
import LiteralSql.CommandLine.FileTree
import LiteralSql.CommandLine.Help
import LiteralSql.Text.CharClass

/-! Running the command line: what it prints, what it reports and how it ends. -/

set_option autoImplicit false

namespace LiteralSql.CommandLine

structure Surroundings where
  environment : List (Text × Text)
  read : Text → Except FileError Text

structure Report where
  exitCode : Nat := 0
  output : Text := []
  info : List Text := []
  error : Option Text := none
  deriving DecidableEq

def Report.progress (report : Report) : Text :=
  report.info.flatMap fun event => " INFO ".toList ++ event ++ ['\n']

/-- The first lines of what is said about the progress, as a reader of the
print finds them: by their mark, and without a carriage return at the end. -/
def Report.infoLines (report : Report) : List Text :=
  let mark := " INFO ".toList
  ((Text.split '\n' report.progress).filter mark.isPrefixOf).map fun line =>
    let shown := line.drop mark.length
    if line.getLast? = some '\r' then shown.dropLast else shown

structure Failure where
  message : Text
  cause : Option Text := none

def Failure.ofClient (error : ClientError) : Failure := { message := error.message }

def Failure.report (failure : Failure) : Text :=
  "Error: ".toList ++ failure.message ++ match failure.cause with
    | none => []
    | some cause => "\n\nCaused by:\n    ".toList ++
      cause.flatMap fun c => if c = '\n' then "\n    ".toList else [c]

def readConfig (surroundings : Surroundings) (path : Text) : Except ClientError Config :=
  match surroundings.read path with
  | .error reason => .error (.config (.unreadable path reason.message))
  | .ok text => (Config.ofJson text).mapError ClientError.config

def endpoint? (arguments : Arguments) : Option Text :=
  match arguments.baseUrl, arguments.user with
  | some url, _ => some url
  | none, some user => some (Config.ofUser user []).baseUrl
  | none, none => none

/-- Puts arguments and configuration file together. Arguments go before the file. -/
def config (surroundings : Surroundings) (arguments : Arguments) : Except Failure Config := do
  let file ← match arguments.config with
    | none => .ok none
    | some path => do .ok (some (← (readConfig surroundings path).mapError Failure.ofClient))
  let base ← match endpoint? arguments, file with
    | some endpoint, file =>
      match arguments.apiKey.or (file.map Config.apiKey) with
      | none => .error { message := "an API key is required (--api-key or CARTO_API_KEY)".toList }
      | some apiKey =>
        let fresh := Config.ofUrl endpoint apiKey
        .ok (match file with
          | some held => { fresh with zone := held.zone, pollInterval := held.pollInterval }
          | none => fresh)
    | none, some held => .ok held
    | none, none =>
      .error { message :=
        "no endpoint configured: pass --config, --user or --base-url".toList }
  let keyed := { base with apiKey := arguments.apiKey.getD base.apiKey }
  match arguments.zone with
  | none => .ok keyed
  | some zone =>
    match TimeZone.parse zone with
    | .ok found => .ok { keyed with zone := found }
    | .error error => .error {
        message := "invalid --timezone ".toList ++ zone
        cause := some error.message }

def debugChar (c : Char) : Text :=
  if c = '"' then ['\\', '"']
  else if c = '\\' then ['\\', '\\']
  else if c = '\n' then ['\\', 'n']
  else if c = '\r' then ['\\', 'r']
  else if c = '\t' then ['\\', 't']
  else if c = '\x00' then ['\\', '0']
  else if CharClass.isPrintable c && !CharClass.isExtending c then [c]
  else "\\u\x7b".toList ++ Nat.toDigits 16 c.toNat ++ ['}']

def debugQuote (text : Text) : Text := '"' :: text.flatMap debugChar ++ ['"']

/-- A character of a message. One that steers terminals is written by its code. -/
def messageChar (c : Char) : Text :=
  if c.toNat ∈ [0x07, 0x08, 0x0C, 0x1B, 0x7F] then "\\x".toList ++ Hex.encode [c.toNat.toUInt8]
  else if 0x80 ≤ c.toNat ∧ c.toNat ≤ 0x9F then
    "\\u\x7b".toList ++ Nat.toDigits 16 c.toNat ++ ['}']
  else [c]

abbrev Run (α : Type) := ExceptT Failure (StateT Report (StateM Session)) α

def noteWith (message : Text) (fields : List (String × Text)) : Run Unit :=
  let event := message.flatMap messageChar ++
    fields.flatMap fun (name, value) => ' ' :: name.toList ++ '=' :: value
  modify fun report => { report with info := report.info ++ [event] }

def note (message : Text) : Run Unit := noteWith message []

def print (line : Text) : Run Unit :=
  modify fun report => { report with output := report.output ++ line ++ ['\n'] }

def ofExchange {α : Type} (steps : Exchange α) : Run α :=
  ExceptT.mk (do
    let result ← (steps.run : StateM Session (Except ClientError α))
    pure (result.mapError Failure.ofClient))

def runQuery (client : Client) (sql : Text) (options : ExecuteOptions) : Run Unit := do
  match ← ofExchange (client.executeSql sql options) with
  | .rows rows =>
    rows.forM fun row => print row.print
    note (Text.ofNat rows.length ++ " rows".toList)
  | .job summary =>
    let polls := Text.ofNat summary.polls
    noteWith "job done".toList [("job_id", summary.id), ("polls", polls)]
    note ("Job ".toList ++ summary.id ++ " done after ".toList ++ polls ++ " polls.".toList)

def readFeatures (surroundings : Surroundings) (file : Text) : Except Failure (List Feature) := do
  let text ← (surroundings.read file).mapError fun reason =>
    { message := "reading ".toList ++ file, cause := some reason.message }
  match Json.parse? text with
  | none => .error { message := "parsing ".toList ++ file, cause := some malformed }
  | some document =>
    (Feature.listOfJson document).mapError fun error => .ofClient (.decode error)

def runImport [LocalZone] (surroundings : Surroundings) (client : Client) (file table : Text)
    (options : LoadOptions) : Run Unit := do
  let features ← ofExcept (readFeatures surroundings file)
  note ("Importing ".toList ++ Text.ofNat features.length ++ " features into ".toList ++ table ++
    "...".toList)
  let summary ← ofExchange (client.load table features options)
  let rows := Text.ofNat summary.rows
  let chunks := Text.ofNat summary.chunks
  noteWith "bulk insert finished".toList
    [("table", debugQuote table), ("rows", rows), ("chunks", chunks)]
  note ("Inserted ".toList ++ rows ++ " rows in ".toList ++ chunks ++ " chunks".toList ++
    (if summary.tableCreated then " (table created)".toList else []) ++ ['.'])

def runArguments [LocalZone] (surroundings : Surroundings) (arguments : Arguments) : Run Unit := do
  let client : Client := ⟨← ofExcept (config surroundings arguments)⟩
  match arguments.command with
  | .query sql batch onSuccess onError => runQuery client sql { batch, onSuccess, onError }
  | .importFile file table create batchSize maxInProgress =>
    runImport surroundings client file table { batchSize, maxInProgress, create }

def versionLine : Text := "carto-sql 0.1.0\n".toList

def run [LocalZone] (surroundings : Surroundings) (arguments : List Text) : StateM Session Report := do
  match Arguments.read surroundings.environment arguments with
  | .error .usage => return { exitCode := 2 }
  | .error (.help topic) => return { output := topic.page surroundings.environment }
  | .error .version => return { output := versionLine }
  | .ok read =>
    let (result, report) ← (runArguments surroundings read).run.run {}
    match result with
    | .ok () => return report
    | .error failure => return { report with exitCode := 1, error := some failure.report }

end LiteralSql.CommandLine
