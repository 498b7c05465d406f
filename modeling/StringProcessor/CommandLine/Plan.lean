import StringProcessor.Diagnostic.Report
import StringProcessor.Narration
import StringProcessor.Text.ControlSequence

/-! What the arguments of the program ask for, and how it complains of those that it cannot follow. -/
namespace StringProcessor.CommandLine

/-- What is to be done. A refusal tells what is wrong with the arguments. -/
inductive Plan
  | help
  | version
  | refuse (complaint : String)
  | script (path : String) (level : Level)
  | console (banner : Bool) (level : Level)
  deriving DecidableEq

inductive Switch
  | interactive
  | quiet
  | help
  | version
  deriving DecidableEq

namespace Switch

def name : Switch → String
  | interactive => "interactive"
  | quiet => "quiet"
  | help => "help"
  | version => "version"

def ofName? (name : String) : Option Switch :=
  [interactive, quiet, help, version].find? (·.name == name)

def ofLetter? : Char → Option Switch
  | 'i' => some interactive
  | 'q' => some quiet
  | 'h' => some help
  | 'V' => some version
  | _ => none

def label (s : Switch) : String := "--" ++ s.name

end Switch

def debugLabel : String := "--debug <LEVEL>"

inductive Setting
  | file (path : String)
  | level (level : Level)
  | on (switch : Switch)
  deriving DecidableEq

namespace Setting

def path? : Setting → Option String
  | file path => some path
  | _ => none

def level? : Setting → Option Level
  | level l => some l
  | _ => none

def label? : Setting → Option String
  | file _ => none
  | level _ => some debugLabel
  | on s => some s.label

end Setting

/-- What has been read but not settled. A level is looked at no sooner than it has to be. -/
inductive Held
  | nothing
  | file (path : String)
  | debug (value : Option String)
  deriving DecidableEq

/-- The arguments understood so far: what they have settled, in order, and whether all that follow
are files. -/
structure Options where
  settled : List Setting := []
  held : Held := .nothing
  onlyFiles : Bool := false

/-! Complaints. They are laid out for a terminal and then freed of control sequences, their own and
those of the arguments that they quote. -/

private def bold (text : String) : String := "\x1b[1m" ++ text ++ "\x1b[0m"

private def complaint (text : String) : Plan :=
  .refuse (Text.shown (bold (Colour.red.paint "error:") ++ " " ++ text ++
    "\n\nFor more information, try '" ++ bold "--help" ++ "'.\n"))

private def misuse (text usage : String) : Plan :=
  complaint (text ++ "\n\n" ++ bold "Usage:" ++ " strp " ++ usage)

private def usage : String := "[OPTIONS] [FILE]"

private def unexpected (argument : String) : Plan :=
  misuse ("unexpected argument '" ++ Colour.yellow.paint argument ++ "' found") usage

private def repeated (option : String) : Plan :=
  misuse ("the argument '" ++ bold option ++ "' cannot be used multiple times") usage

private def valueMissing : Plan :=
  complaint ("a value is required for '" ++ bold debugLabel ++ "' but none was supplied")

private def invalidLevel (value cause : String) : Plan :=
  complaint ("invalid value '" ++ Colour.yellow.paint value ++ "' for '" ++ bold debugLabel ++
    "': " ++ cause)

namespace Options

def path? (o : Options) : Option String := o.settled.findSome? Setting.path?

def level? (o : Options) : Option Level := o.settled.findSome? Setting.level?

/-- How the program is called with the settled options and one more switch. A settled file is no
longer optional. -/
def usage (o : Options) (s : Switch) : String :=
  let labels := (o.settled.filterMap Setting.label? ++ [s.label]).eraseDups
  " ".intercalate (labels ++ [if o.path?.isSome then "<FILE>" else "[FILE]"])

/-- A complaint about a switch with a value. What is held is not looked at any more. -/
def valueTooMany (o : Options) (s : Switch) (value : String) : Plan :=
  misuse ("unexpected value '" ++ Colour.yellow.paint value ++ "' for '" ++ bold s.label ++
    "' found; no more were expected") (o.usage s)

def add (o : Options) (s : Setting) : Options := { o with settled := o.settled ++ [s] }

def choose (o : Options) (value : String) : Except Plan Options :=
  if o.level?.isSome then .error (repeated debugLabel)
  else match Level.parse value with
    | .ok level => .ok (o.add (.level level))
    | .error cause => .error (invalidLevel value cause)

def settle (o : Options) : Except Plan Options :=
  let free := { o with held := .nothing }
  match o.held with
  | .nothing => .ok o
  | .file path => .ok (free.add (.file path))
  | .debug none => .error valueMissing
  | .debug (some value) => free.choose value

def take (o : Options) (path : String) : Except Plan Options :=
  match o.path?, o.held with
  | some _, _ | none, .file _ => .error (unexpected path)
  | none, _ => o.settle.map fun o => { o with held := .file path }

def switch (o : Options) (s : Switch) : Except Plan Options :=
  o.settle >>= fun o =>
    match s with
    | .help => .error .help
    | .version => .error .version
    | _ => if o.settled.contains (.on s) then .error (repeated s.label) else .ok (o.add (.on s))

def debug (o : Options) (value : Option String) : Except Plan Options :=
  o.settle >>= fun o =>
    match value with
    | none => .ok { o with held := .debug none }
    | some value => o.choose value

/-- Takes a run of option letters. What stands behind `d`, less an equals sign, is the level. -/
def letters (o : Options) : List Char → Except Plan Options
  | [] => .ok o
  | 'd' :: [] => o.debug none
  | 'd' :: '=' :: value => o.debug (some (String.ofList value))
  | 'd' :: value => o.debug (some (String.ofList value))
  | letter :: others =>
    match Switch.ofLetter? letter with
    | some s => o.switch s >>= fun o => o.letters others
    | none => .error (unexpected (String.ofList ['-', letter]))

def long (o : Options) (text : List Char) : Except Plan Options :=
  let name := String.ofList (text.takeWhile (· != '='))
  let value := (text.dropWhile (· != '=')).tail?.map String.ofList
  if name == "debug" then o.debug value
  else match Switch.ofName? name, value with
    | some s, none => o.switch s
    | some s, some value => .error (o.valueTooMany s value)
    | none, _ => .error (unexpected ("--" ++ name))

/-- Takes what is no option: the value of the debug option if that waits for one, else a file. -/
def value (o : Options) (argument : String) : Except Plan Options :=
  match o.held with
  | .debug none => .ok { o with held := .debug (some argument) }
  | _ => o.take argument

/-- Takes one argument. A lone dash is no option, and nothing is one behind two lone dashes. -/
def argument (o : Options) (argument : String) : Except Plan Options :=
  if o.onlyFiles then o.take argument
  else match argument.toList with
    | ['-', '-'] => .ok { o with onlyFiles := true }
    | '-' :: '-' :: text => o.long text
    | '-' :: letter :: others => o.letters (letter :: others)
    | _ => o.value argument

def plan (o : Options) : Plan :=
  let level := o.level?.getD .off
  let console := Plan.console (!o.settled.contains (.on .quiet)) level
  match o.path? with
  | some path => if o.settled.contains (.on .interactive) then console else .script path level
  | none => console

end Options

/-- What some arguments ask for. The first argument that decides the matter does. -/
def plan (arguments : List String) : Plan :=
  match arguments.foldlM Options.argument {} >>= Options.settle with
  | .error plan => plan
  | .ok o => o.plan

end StringProcessor.CommandLine
