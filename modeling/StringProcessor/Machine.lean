import StringProcessor.Narration
import StringProcessor.Sink
import StringProcessor.SymbolTable
import StringProcessor.Text.Bytes
import StringProcessor.Text.Words

/-! The machine that carries out commands. It first works out the effect of a command, which changes
nothing and may fail, and then applies it. -/
namespace StringProcessor

structure Machine (σ : Type := Sink) where
  level : Level
  symbols : SymbolTable
  sink : σ
  running : Bool

namespace Machine
variable {σ ε : Type}

def start (level : Level) (sink : σ) : Machine σ := ⟨level, .constants, sink, true⟩

structure Unresolved where
  name : String
  span : Span
  deriving DecidableEq

def Unresolved.diagnostic (u : Unresolved) : Diagnostic :=
  .undefinedSymbol u.span ("Cannot retrieve value of " ++ u.name ++
    " symbol referenced inside the expression as it doesn't exist")

inductive Fault
  | unresolved (u : Unresolved)
  | nothingToAppendTo (target : String)
  | nothingToReverse (target : String)
  | constant (target : String)
  | output (cause : String)
  deriving DecidableEq

/-- The fault in words. It concerns the whole command, unless one term is to blame. -/
def Fault.diagnostic (command : Span) : Fault → Diagnostic
  | .unresolved u => u.diagnostic
  | .nothingToAppendTo target =>
    (Diagnostic.undefinedSymbol command
      ("Cannot append to " ++ target ++ " as it doesn't exist")).withHelp
      ("Create it first with: set " ++ target ++ " <expression>;")
  | .nothingToReverse target =>
    .undefinedSymbol command ("Cannot reverse contents of " ++ target ++ " as it doesn't exist")
  | .constant target =>
    .readOnlySymbol command
      ("Command cannot be executed - " ++ (SymbolFault.readOnly target).message)
  | .output cause => .outputFailure command cause

def valueOf (symbols : SymbolTable) : Term → Except Unresolved String
  | .literal text _ => .ok text
  | .symbol name span =>
    match symbols.find? name with
    | some s => .ok s.value
    | none => .error ⟨name, span⟩

def evaluate (symbols : SymbolTable) (e : Expression) : Except Unresolved String :=
  e.foldlM (fun value operand => (valueOf symbols operand).map (value ++ ·)) ""

/-- The pieces in which a line is written: a line feed is added unless there is one at the end. -/
def linePieces (line : String) : List String :=
  if line.toList.getLast? == some '\n' then [line] else [line, "\n"]

def rendering (value : String) : Aspect → List String
  | .text => [value]
  | .length => [toString value.length]
  | .words => ["Expression provided following words:", String.intercalate "\n" (Text.words value)]
  | .wordCount => ["Expression provided n=" ++ toString (Text.words value).length ++ " words:"]

def listing (symbols : SymbolTable) : List String :=
  "Symbol table (special chars escaped):" :: symbols.listing

/-- What a command does once its operands are known. -/
inductive Effect
  | store (name value : String)
  | emit (lines : List String)
  | stop
  deriving DecidableEq

def argument (symbols : SymbolTable) (e : Expression) : Except Fault String :=
  (evaluate symbols e).mapError .unresolved

/-- The effect of an action. A missing target is noticed before a missing term. -/
def effect (symbols : SymbolTable) : Action → Except Fault Effect
  | .append target value =>
    match symbols.find? target with
    | none => .error (.nothingToAppendTo target)
    | some current => (argument symbols value).map fun more => .store target (current.value ++ more)
  | .set target value => (argument symbols value).map (.store target)
  | .reverse target =>
    match symbols.find? target with
    | none => .error (.nothingToReverse target)
    | some current => .ok (.store target (Text.reverseWords current.value))
  | .print aspect value => (argument symbols value).map fun v => .emit (rendering v aspect)
  | .list => .ok (.emit (listing symbols))
  | .exit => .ok .stop

def emit [Output σ ε] (m : Machine σ) (lines : List String) : Machine σ × Verdict ε Fault :=
  let (sink, verdict) := Output.writeAll m.sink ((lines.flatMap linePieces).map Text.bytesOf)
  ({ m with sink }, verdict.map .output)

def apply [Output σ ε] (m : Machine σ) : Effect → Machine σ × Verdict ε Fault
  | .store name value =>
    match m.symbols.set name value with
    | .ok symbols => ({ m with symbols }, .accepted)
    | .error _ => (m, .refused (.constant name))
  | .emit lines => m.emit lines
  | .stop => ({ m with running := false }, .accepted)

def debug (m : Machine σ) (e : Event) : List Record := m.level.debug .machine e

def trace (m : Machine σ) (e : Event) : List Record := m.level.trace .machine e

def announce (m : Machine σ) : Effect → List Record
  | .store name value => m.trace (.valueStored value name)
  | .emit _ => []
  | .stop => m.debug .exitAsked

def execute [Output σ ε] (m : Machine σ) (command : Command) : Turn (Machine σ) (Verdict ε) :=
  let begun := m.debug (.commandBegun command.keyword)
  match effect m.symbols command.action with
  | .error fault =>
    { next := m, answer := .refused (fault.diagnostic command.span), log := begun }
  | .ok effect =>
    let (next, verdict) := m.apply effect
    { next
      answer := verdict.map (Fault.diagnostic command.span)
      log := begun ++ m.announce effect }

end Machine
end StringProcessor
