import StringProcessor.Batch
import StringProcessor.Machine
import StringProcessor.Parser

/-! Sessions: lines are scanned, parsed and carried out one after the other. -/
namespace StringProcessor

structure Session (σ : Type := Sink) where
  batch : Batch
  parser : Parser
  machine : Machine σ

structure Session.Step (σ : Type := Sink) (ε : Type := Empty) where
  next : Session σ
  answer : Verdict ε
  log : List Record

namespace Session
variable {σ ε : Type}

def start (level : Level) (sink : σ) : Session σ := ⟨{ level }, { level }, .start level sink⟩

def pending (s : Session σ) : Bool := s.batch.pending

def running (s : Session σ) : Bool := s.machine.running

/-- The text that the spans of the latest diagnostic refer to. -/
def source (s : Session σ) : String := s.batch.source

/-- The machine as receiver of commands. It abandons a call if its output does. -/
def executor [Output σ ε] : Executor (Machine σ) ε := Machine.execute

def runLine [Output σ ε] (s : Session σ) (line : String) : Step σ ε :=
  let scanned := s.batch.feed line
  let s := { s with batch := scanned.next }
  match scanned.answer with
  | .error d => { next := s, answer := .refused d, log := scanned.log }
  | .ok [] => { next := s, answer := .accepted, log := scanned.log }
  | .ok tokens =>
    let parsed := s.parser.parse executor s.machine tokens
    { next := { s with parser := parsed.next.1, machine := parsed.next.2 }
      answer := parsed.answer
      log := scanned.log ++ parsed.log }

def finish (s : Session σ) : Step σ ε :=
  let turn := s.batch.finish
  { next := { s with batch := turn.next }
    answer := match turn.answer with
      | .ok () => .accepted
      | .error d => .refused d
    log := turn.log }

inductive Request
  | line (text : String)
  | finish
  deriving DecidableEq

def handle [Output σ ε] (s : Session σ) : Request → Step σ ε
  | .line text => s.runLine text
  | .finish => s.finish

def after [Output σ ε] (s : Session σ) (requests : List Request) : Session σ :=
  requests.foldl (fun s r => (s.handle r).next) s

/-- Takes out what has been written since the last time. -/
def drain (s : Session) : List UInt8 × Session :=
  let (bytes, sink) := s.machine.sink.drain
  (bytes, { s with machine := { s.machine with sink } })

end Session
end StringProcessor
