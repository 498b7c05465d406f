import StringProcessor.Narration
import StringProcessor.Statement.Fault
import StringProcessor.Verdict

/-! The parser: it reads a list of tokens and hands over each command as soon as its terminator is
reached. The receiver may refuse a command, which ends the list with the receiver's own complaint,
or abandon the call, which leaves the parser in the middle of its work. -/
namespace StringProcessor

open Statement

/-- Receives commands one by one and keeps a state of its own. -/
abbrev Executor (σ ε : Type) (ι : Type := Nat) := σ → Command ι → Turn σ (Verdict ε (Diagnostic ι))

/-- A parser, the tokens of a call, and how many of them have been read. A parser is ready unless its
last call was abandoned; tokens and position may be left over from that call also when it is ready. -/
structure Parser (ι : Type := Nat) where
  level : Level := .off
  state : Statement.State := .ready
  tokens : List (Token ι) := []
  current : Nat := 0
  deriving DecidableEq

namespace Parser
variable {σ ε ι : Type}

def reset (parser : Parser ι) : Parser ι :=
  { parser with state := .ready, tokens := [], current := 0 }

/-- How far a call has come: the parser, the token read last, the place in the statement, and the state
of the receiver. Records are kept latest first. -/
structure Progress (σ : Type) (ι : Type := Nat) where
  parser : Parser ι
  before : Option (Token ι) := none
  phase : Phase ι := .between
  state : σ
  log : List Record

namespace Progress
variable [ToString ι]

def advance (p : Progress σ ι) (t : Token ι) : Progress σ ι :=
  { p with parser := { p.parser with current := p.parser.current + 1 }, before := some t }

def enter (p : Progress σ ι) (phase : Phase ι) : Progress σ ι :=
  { p with parser := { p.parser with state := phase.state }, phase }

def tell (p : Progress σ ι) (records : List Record) : Progress σ ι :=
  { p with log := records.reverse ++ p.log }

def debug (p : Progress σ ι) (e : Event ι) : Progress σ ι := p.tell (p.parser.level.debug .parser e)

def showTokens (p : Progress σ ι) : Progress σ ι :=
  p.tell (p.parser.level.trace .parser (.tokensShown p.parser.tokens p.parser.current))

/-- Tells, on entering a phase, the tokens where only one kind of token can follow, and a term that has
just been read. -/
def arrive (p : Progress σ ι) : Progress σ ι :=
  match p.phase with
  | .inside _ (.target _) | .inside _ (.closing _) => p.showTokens
  | .inside _ (.joint _ (latest :: _) _) => p.debug (.termFound latest)
  | _ => p

/-- Tells the tokens where the terminator is found, unless they have just been told. -/
def depart (p : Progress σ ι) : Progress σ ι :=
  match p.phase with
  | .inside _ (.joint ..) => p.showTokens
  | _ => p

def receive (p : Progress σ ι) (turn : Turn σ (Verdict ε (Diagnostic ι))) : Progress σ ι :=
  { p with state := turn.next }.tell turn.log

def stop (p : Progress σ ι) (answer : Verdict ε (Diagnostic ι)) :
    Turn (Parser ι × σ) (Verdict ε (Diagnostic ι)) :=
  { next := (p.parser.reset, p.state), answer, log := p.log.reverse }

def abandon (p : Progress σ ι) (reason : ε) : Turn (Parser ι × σ) (Verdict ε (Diagnostic ι)) :=
  { next := (p.parser, p.state), answer := .abandoned reason, log := p.log.reverse }

variable [Add ι] [OfNat ι 0] [OfNat ι 1]

def fail (p : Progress σ ι) (rest : List (Token ι)) :
    Turn (Parser ι × σ) (Verdict ε (Diagnostic ι)) :=
  p.showTokens.stop (.refused (p.phase.fault ⟨p.parser.current, p.before, rest⟩))

def read (execute : Executor σ ε ι) :
    Progress σ ι → List (Token ι) → Turn (Parser ι × σ) (Verdict ε (Diagnostic ι))
  | p, [] =>
    match p.phase with
    | .between => (p.debug .parseDone).stop .accepted
    | .inside .. => p.fail []
  | p, t :: rest =>
    match p.phase.step t with
    | .reject => p.fail (t :: rest)
    | .advance phase => read execute ((p.advance t).enter phase).arrive rest
    | .complete command =>
      let p := p.depart.advance t
      let turn := execute p.state command
      let p := p.receive turn
      match turn.answer with
      | .accepted => read execute ((p.debug (.statementDone command.keyword)).enter .between) rest
      | .refused d => p.stop (.refused d)
      | .abandoned reason => p.abandon reason

end Progress

variable [Add ι] [OfNat ι 0] [OfNat ι 1] [ToString ι]

/-- The complaint of a parser that is called again after a call was abandoned. -/
def notReady (parser : Parser ι) : Diagnostic ι :=
  .malformedStatement (.single 0)
    ("Attempting to start parser while already running/not in ready state (state found " ++
      parser.state.label ++ ")")
    { state := parser.state.label
      command := parser.state.keyword?.map Keyword.word
      position := parser.current }

/-- Parses a list of tokens. A parser that is not ready complains, looks at no token, and is ready
again; what it holds stays there. -/
def parse (parser : Parser ι) (execute : Executor σ ε ι) (state : σ) (tokens : List (Token ι)) :
    Turn (Parser ι × σ) (Verdict ε (Diagnostic ι)) :=
  match parser.state with
  | .ready =>
    let log := parser.level.debug .parser (.parseBegun tokens.length : Event ι)
    let parser := { parser with state := .root, tokens, current := 0 }
    Progress.read execute { parser, state, log := log.reverse }
      (parser.tokens.drop parser.current)
  | _ =>
    { next := ({ parser with state := .ready }, state)
      answer := .refused parser.notReady
      log := parser.level.trace .parser (.tokensShown parser.tokens parser.current) }

def collect : Executor (List (Command ι)) Empty ι := fun collected command =>
  { next := command :: collected, answer := .accepted, log := [] }

/-- The commands of a list of tokens, up to its first fault, and the fault. -/
def commands (tokens : List (Token ι)) : List (Command ι) × Option (Diagnostic ι) :=
  let turn := parse {} collect [] tokens
  (turn.next.2.reverse, match turn.answer with
    | .accepted => none
    | .refused d => some d
    | .abandoned reason => nomatch reason)

end Parser
end StringProcessor
