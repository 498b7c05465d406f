import StringProcessor.Command
import StringProcessor.Text.Narrated

/-! Narration: the account that the interpreter gives of its own work. Each of its parts knows how much is
wanted, and asks before it puts anything on record. -/
namespace StringProcessor

inductive Severity
  | warning
  | debug
  | trace
  deriving DecidableEq

def Severity.label : Severity → String
  | .warning => "WARN"
  | .debug => "DEBUG"
  | .trace => "TRACE"

inductive Narrator
  | scanner
  | parser
  | machine
  | host
  deriving DecidableEq

def Narrator.target : Narrator → String
  | .scanner => "strp::lexer"
  | .parser => "strp::parser"
  | .machine => "strp::evaluator"
  | .host => "strp::runner"

/-- What there is to tell. A text that is being gathered is given latest character first. -/
inductive Event (ι : Type := Nat)
  | lineBegun (line : String)
  | literalOpened (delimiter : Char)
  | literalRead (c : Char) (escaping : Bool) (gathered : List Char)
  | literalLeftOpen (delimiter : Char) (held : Nat)
  | tokenMade (token : Token ι)
  | parseBegun (count : Nat)
  | termFound (term : Term ι)
  | tokensShown (tokens : List (Token ι)) (current : Nat)
  | statementDone (keyword : Keyword)
  | parseDone
  | commandBegun (keyword : Keyword)
  | valueStored (value : String) (name : String)
  | exitAsked
  | reportFailed (cause : String) (message : String)

namespace Event
variable {ι : Type}

section
variable [ToString ι]

private def spanText (s : Span ι) : String :=
  "Span \x7b start: " ++ toString s.start ++ ", end: " ++ toString s.stop ++ " \x7d"

private def termText : Term ι → String
  | .literal text span =>
    "Literal \x7b text: " ++ Text.narrated text.toList ++ ", span: " ++ spanText span ++ " \x7d"
  | .symbol name span =>
    "Symbol \x7b name: " ++ Text.narrated name.toList ++ ", span: " ++ spanText span ++ " \x7d"

end

private def tokenLine (current index : Nat) (t : Token ι) : String :=
  toString index ++ ": " ++ t.description ++ if index = current then " <- current" else ""

/-- The messages of an event. A list of tokens takes a message for each of them. -/
def messages [ToString ι] : Event ι → List String
  | lineBegun line => ["Beginning tokenization of input: " ++ Text.narrated line.toList]
  | literalOpened delimiter => ["Opening string literal with delimiter " ++ delimiter.toString]
  | literalRead c escaping gathered =>
    ["String char " ++ Text.narratedChar c ++ ", escaping: " ++ toString escaping ++
      ", built so far: " ++ Text.narrated gathered.reverse]
  | literalLeftOpen delimiter held =>
    ["String literal still open (delimiter " ++ delimiter.toString ++ "), holding " ++
      toString held ++ " token(s)"]
  | tokenMade token => ["Creating " ++ token.description]
  | parseBegun count => ["Starting parse of " ++ toString count ++ " token(s)"]
  | termFound term => ["Expression term found as " ++ termText term]
  | tokensShown tokens current => "Token stack:" :: tokens.mapIdx (tokenLine current)
  | statementDone keyword =>
    ["Command for " ++ keyword.word ++ " completed. Resetting parser state."]
  | parseDone => ["Parsing complete"]
  | commandBegun keyword => ["Executing " ++ keyword.word ++ " command"]
  | valueStored value name => ["Storing " ++ Text.narrated value.toList ++ " into " ++ name]
  | exitAsked => ["Exit requested; session will stop after this batch"]
  | reportFailed cause message => ["Failed to render error report (" ++ cause ++ "): " ++ message]

end Event

structure Record where
  severity : Severity
  narrator : Narrator
  message : String
  deriving DecidableEq

inductive Level
  | off
  | basic
  | verbose
  deriving DecidableEq

namespace Level

def label : Level → String
  | off => "off"
  | basic => "basic"
  | verbose => "verbose"

def parse (label : String) : Except String Level :=
  match [off, basic, verbose].find? (·.label == label) with
  | some level => .ok level
  | none => .error ("Cannot set debug level to '" ++ label ++
      "'; only off, basic and verbose are valid debug levels")

def rank : Level → Nat
  | off => 0
  | basic => 1
  | verbose => 2

def compare (a b : Level) : Ordering := Ord.compare a.rank b.rank

/-- Whether what is told at level `b` is told at level `a`. At `off` nothing is told. -/
def admits (a b : Level) : Bool := b != off && b.rank ≤ a.rank

section
variable {ι : Type} [ToString ι]

/-- What a part puts on record of an event that is told from level `basic` on. -/
def debug (level : Level) (narrator : Narrator) (e : Event ι) : List Record :=
  if level.admits basic then e.messages.map (⟨.debug, narrator, ·⟩) else []

/-- What a part puts on record of an event that is told at level `verbose` only. -/
def trace (level : Level) (narrator : Narrator) (e : Event ι) : List Record :=
  if level.admits verbose then e.messages.map (⟨.trace, narrator, ·⟩) else []

end

end Level

/-- What the log lets through, whatever has been put on record. -/
inductive LogFilter
  | quiet
  | debug
  | trace
  deriving DecidableEq

namespace LogFilter

def ofLevel : Level → LogFilter
  | .off => quiet
  | .basic => debug
  | .verbose => trace

/-- The name of the finest importance that passes. Warnings always do. -/
def label : LogFilter → String
  | quiet => "WARN"
  | debug => "DEBUG"
  | trace => "TRACE"

def passes : LogFilter → Severity → Bool
  | quiet, s => s == .warning
  | debug, s => s != .trace
  | trace, _ => true

end LogFilter

/-- What one call on a component leaves: the component's next state, the answer, and the records. -/
structure Turn (σ α : Type) where
  next : σ
  answer : α
  log : List Record

end StringProcessor
