import LiteralSql.CommandLine.Arguments

/-! The help pages of the program and its commands.

A page says what the command is for and how it is called, and then lists
commands, positional values and options, each list in two columns.
-/

set_option autoImplicit false

namespace LiteralSql

namespace OptionSpec

def term (option : OptionSpec) : Text :=
  (match option.short with
    | some letter => ['-', letter, ',', ' ']
    | none => "    ".toList) ++
  "--".toList ++ option.long ++
  match option.valueName with
    | some name => " <".toList ++ name ++ ['>']
    | none => []

def explanation (environment : List (Text × Text)) (option : OptionSpec) : Text :=
  option.about ++
  (match option.variableName with
    | some name => " [env: ".toList ++ name ++
      (if option.secret then [] else '=' :: (environment.lookup name).getD []) ++ [']']
    | none => []) ++
  match option.default with
    | some value => " [default: ".toList ++ value ++ [']']
    | none => []

end OptionSpec

namespace HelpTopic

/-- A list under a heading. The second column begins two blanks after the longest term. -/
def listing (heading : String) (rows : List (Text × Text)) : Text :=
  if rows.isEmpty then []
  else
    let width := rows.foldl (fun width (term, _) => max width term.length) 0
    '\n' :: heading.toList ++ ":\n".toList ++ rows.flatMap fun (term, explanation) =>
      "  ".toList ++ term ++ List.replicate (width - term.length + 2) ' ' ++ explanation ++ ['\n']

def about : HelpTopic → Text
  | .program => "Command-line client for CARTO's SQL API".toList
  | .query => "Run a SQL statement and print the rows as JSON lines".toList
  | .importFile => "Load a GeoJSON Feature or FeatureCollection into a table".toList
  | .help => "Print this message or the help of the given subcommand(s)".toList

def usage : HelpTopic → Text
  | .program => "carto-sql [OPTIONS] <COMMAND>".toList
  | .query => "carto-sql query [OPTIONS] <SQL>".toList
  | .importFile => "carto-sql import [OPTIONS] --table <TABLE> <FILE>".toList
  | .help => "carto-sql help [COMMAND]...".toList

def commands : List (Text × Text) :=
  [("query".toList, about .query), ("import".toList, about .importFile),
    ("help".toList, about .help)]

def listings (environment : List (Text × Text)) (spec : CommandSpec) : Text :=
  listing "Arguments" (spec.positionals.map fun positional =>
    ('<' :: positional.name ++ ['>'], positional.about)) ++
  listing "Options" (
    spec.options.map (fun option => (option.term, option.explanation environment)) ++
    [("-h, --help".toList, "Print help".toList)] ++
    if spec.hasVersion then [("-V, --version".toList, "Print version".toList)] else [])

def page (environment : List (Text × Text)) (topic : HelpTopic) : Text :=
  topic.about ++ "\n\nUsage: ".toList ++ topic.usage ++ '\n' ::
  match topic with
  | .program => listing "Commands" commands ++ listings environment Arguments.mainSpec
  | .query => listings environment Arguments.querySpec
  | .importFile => listings environment Arguments.importSpec
  | .help => listing "Arguments"
      [("[COMMAND]...".toList, "Print help for the subcommand(s)".toList)]

end HelpTopic

end LiteralSql
