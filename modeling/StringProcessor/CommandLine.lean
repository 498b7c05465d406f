import StringProcessor.CommandLine.Plan
import StringProcessor.Console
import StringProcessor.Script

/-! The command line: what the program does with a plan, and what a run of it leaves behind. -/
namespace StringProcessor.CommandLine

inductive Entry
  | missing
  | unreadable (cause : String)
  | file (contents : List UInt8)

def Entry.directory : Entry := .unreadable "Is a directory (os error 21)"

/-- The line by which a record appears on standard error, freed of control sequences. The lines of
a longer message are indented, but for the first. -/
def recordLine (r : Record) : String :=
  let message := r.message.toList.flatMap fun c =>
    if c == '\n' then ['\n', ' ', ' ', ' ', ' '] else [c]
  let severity := String.ofList (r.severity.label.toList.rightpad 5 ' ')
  Text.shown ("[" ++ severity ++ " " ++ r.narrator.target ++ "] " ++
    String.ofList message ++ "\n")

def logText (filter : LogFilter) (records : List Record) : String :=
  String.join ((records.filter fun r => filter.passes r.severity).map recordLine)

/-- The filter for a level, unless the environment asks for another. -/
def filterFor (level : Level) (setting : Option String) : LogFilter :=
  match setting.map String.toLower with
  | some "off" | some "error" | some "warn" | some "info" => .quiet
  | some "debug" => .debug
  | some "trace" => .trace
  | _ => .ofLevel level

def helpText : String :=
  "An interpreter for a small line-oriented string processing language\n\n" ++
  "Usage: strp [OPTIONS] [FILE]\n\n" ++
  "Arguments:\n" ++
  "  [FILE]  The script file to execute\n\n" ++
  "Options:\n" ++
  "  -i, --interactive    Start in interactive REPL mode\n" ++
  "  -d, --debug <LEVEL>  Debug output written to stderr [default: off]\n" ++
  "  -q, --quiet          Do not print the REPL banner\n" ++
  "  -h, --help           Print help\n" ++
  "  -V, --version        Print version\n"

def versionText : String := "strp 0.1.0\n"

structure Outcome where
  exit : Nat := 0
  pieces : List Piece := []
  complaint : String := ""

structure Surroundings where
  entry : String → Entry
  input : List UInt8
  setting : Option String

/-- Runs a script. The exit code tells whether anything was wrong. -/
def runSource (path source : String) (level : Level) (filter : LogFilter) : Outcome :=
  let d := Script.run source (some path) level
  { exit := if d.faults = 0 then 0 else 1
    pieces := d.pieces
    complaint := logText filter d.records }

def runScript (path : String) (entry : Entry) (level : Level) (filter : LogFilter) : Outcome :=
  let unreadable (cause : String) : Outcome :=
    { exit := 1, complaint := "Error reading file '" ++ path ++ "': " ++ cause ++ "\n" }
  match entry with
  | .missing => { exit := 1, complaint := "Error: File '" ++ path ++ "' not found\n" }
  | .unreadable cause => unreadable cause
  | .file contents =>
    match Text.ofBytes? contents with
    | some source => runSource path source level filter
    | none => unreadable "stream did not contain valid UTF-8"

def Plan.run (around : Surroundings) : Plan → Outcome
  | .help => { pieces := [.output (Text.bytesOf helpText)] }
  | .version => { pieces := [.output (Text.bytesOf versionText)] }
  | .refuse complaint => { exit := 2, complaint }
  | .script path level =>
    runScript path (around.entry path) level (filterFor level around.setting)
  | .console banner level =>
    let c := Console.run around.input level banner
    { pieces := c.display.pieces
      complaint :=
        logText (filterFor level around.setting) c.display.records ++ c.complaint }

end StringProcessor.CommandLine
