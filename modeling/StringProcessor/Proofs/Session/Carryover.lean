import StringProcessor.Proofs.Batch.Carryover
import StringProcessor.Proofs.Machine.Step
import StringProcessor.Proofs.Session.Step

/-! What sessions carry over. Between two lines that are not in the middle of a literal nothing of a
session's past can be seen but its machine, whatever is left over in the scanner and in the parser. -/
namespace StringProcessor.Session

/-- What can be seen of a step: how it ends, what it logs, the symbols, all the output and the room
that is left for more, whether more commands are wanted, whether a literal is open and, of a line, the
source that spans refer to. -/
structure Observation (σ : Type) where
  answer : Verdict Empty
  log : List Record
  symbols : SymbolTable
  sink : σ
  running : Bool
  pending : Bool
  source? : Option String

variable {σ : Type}

def observe (r : Request) (step : Step σ) : Observation σ where
  answer := step.answer
  log := step.log
  symbols := step.next.machine.symbols
  sink := step.next.machine.sink
  running := step.next.running
  pending := step.next.pending
  source? := match r with
    | .line _ => some step.next.source
    | .finish => none

/-- The sessions differ at most in what is left over from lines and calls that are over. -/
structure Alike (s t : Session σ) : Prop where
  batch : s.batch.Alike t.batch
  ready : s.parser.state = .ready
  ready' : t.parser.state = .ready
  level : s.parser.level = t.parser.level
  machine : s.machine = t.machine

variable [Output σ Empty]

def trace : Session σ → List Request → List (Observation σ)
  | _, [] => []
  | s, r :: requests => observe r (s.handle r) :: trace (s.handle r).next requests

namespace Alike
variable {s t : Session σ}

theorem finish (h : Alike s t) :
    observe .finish (s.handle .finish) = observe .finish (t.handle .finish) ∧
      Alike (s.handle .finish).next (t.handle .finish).next := by
  obtain ⟨ha, hb⟩ := h.batch.finish
  refine ⟨?_, hb, h.ready, h.ready', h.level, h.machine⟩
  simp only [observe, Session.handle, Session.finish, running, pending, hb.pending, ha, h.machine]
  rfl

/-- A line is read alike, and all that it comes to is the same. -/
theorem runLine (h : Alike s t) (line : String) :
    observe (.line line) (s.runLine line) = observe (.line line) (t.runLine line) ∧
      Alike (s.runLine line).next (t.runLine line).next := by
  obtain ⟨ha, hlog, hb, hsource⟩ := h.batch.feed line
  have hpending := hb.pending
  simp only [Session.runLine, ← ha, ← hlog, ← h.machine]
  cases hv : (s.batch.feed line).answer with
  | error d =>
    refine ⟨?_, hb, h.ready, h.ready', h.level, rfl⟩
    simp only [observe, running, pending, source, hpending, hsource]
  | ok tokens =>
    cases tokens with
    | nil =>
      refine ⟨?_, hb, h.ready, h.ready', h.level, rfl⟩
      simp only [observe, running, pending, source, hpending, hsource]
    | cons first rest =>
      have hparsed := Parser.parse_congr h.ready h.ready' h.level executor s.machine (first :: rest)
      obtain ⟨hnext, -⟩ := Parser.parse_total h.ready' executor s.machine (first :: rest)
      have hready : (t.parser.parse executor s.machine (first :: rest)).next.1.state = .ready := by
        rw [hnext]
        rfl
      simp only [hparsed]
      refine ⟨?_, hb, hready, hready, rfl, rfl⟩
      simp only [observe, running, pending, source, hpending, hsource]

/-- Whatever is asked of both, they go on alike. -/
theorem handle (h : Alike s t) (r : Request) :
    observe r (s.handle r) = observe r (t.handle r) ∧ Alike (s.handle r).next (t.handle r).next := by
  cases r with
  | finish => exact h.finish
  | line text => exact h.runLine text

theorem trace (h : Alike s t) (requests : List Request) : s.trace requests = t.trace requests := by
  induction requests generalizing s t with
  | nil => rfl
  | cons r requests ih =>
    obtain ⟨ho, hn⟩ := h.handle r
    rw [Session.trace, Session.trace, ho, ih hn]

end Alike

/-- No part of a session changes its level. -/
theorem after_level (level : Level) (sink : σ) (requests : List Request) :
    let s := (start level sink).after requests
    s.batch.level = level ∧ s.parser.level = level ∧ s.machine.level = level := by
  have hlevels := after_induction (s := start level sink)
    (p := fun s => s.parser.state = .ready ∧ s.batch.level = level ∧ s.parser.level = level)
    ⟨rfl, rfl, rfl⟩ (fun s r h => ?_) requests
  · refine ⟨hlevels.2.1, hlevels.2.2, ?_⟩
    exact after_machine (p := fun m => m.level = level) (fun m c h => (m.execute_level c).trans h)
      rfl requests
  · obtain ⟨hready, hbatch, hparser⟩ := h
    refine ⟨handle_ready hready r, ?_⟩
    cases r with
    | finish => exact ⟨hbatch, hparser⟩
    | line text =>
      refine ⟨?_, ?_⟩
      · rw [handle, runLine_batch, Batch.level_feed, hbatch]
      · simp only [handle, Session.runLine]
        split
        · exact hparser
        · exact hparser
        · rename_i tokens _ _
          obtain ⟨hnext, -⟩ := Parser.parse_total hready executor s.machine tokens
          rw [hnext]
          exact hparser

/-- Two sessions of one level, whatever has been asked of them and whatever faults there were, cannot
be told apart any more if no literal is open in them and their machines are the same. -/
theorem trace_eq_of_machine_eq (level : Level) (sink sink' : σ)
    (earlier earlier' later : List Request) :
    let s := (start level sink).after earlier
    let t := (start level sink').after earlier'
    s.pending = false → t.pending = false → s.machine.symbols = t.machine.symbols →
      s.running = t.running → s.machine.sink = t.machine.sink → s.trace later = t.trace later := by
  intro s t hs ht hsymbols hrunning hsink
  obtain ⟨hbatch, hparser, hmachine⟩ := after_level level sink earlier
  obtain ⟨hbatch', hparser', hmachine'⟩ := after_level level sink' earlier'
  have hlevel : s.machine.level = t.machine.level := hmachine.trans hmachine'.symm
  have hm : s.machine = t.machine := by
    cases hsm : s.machine
    cases htm : t.machine
    simp_all [running]
  refine Alike.trace ⟨.of_not_pending (hbatch.trans hbatch'.symm) hs ht, ?_, ?_, ?_, hm⟩ later
  · exact after_ready level sink earlier
  · exact after_ready level sink' earlier'
  · exact hparser.trans hparser'.symm

/-- An illegal character and a statement that breaks off leave as little behind as a literal that is
given up, though their lines, their places and their lengths are still there. -/
theorem trace_eq_after_faults :
    let s := (start .verbose ({} : Sink)).after [.line "set x ?", .line "print 'a' +;"]
    let t := (start .verbose ({} : Sink)).after [.line "set x 'a", .line "b", .finish]
    let later : List Request := [.finish, .line "set y 'c'; print y + 'd", .line "';exit;"]
    s.pending = false ∧ t.pending = false ∧ s.batch.line ≠ t.batch.line ∧ s.batch.base ≠ t.batch.base ∧
      s.batch.start ≠ t.batch.start ∧ s.batch.length ≠ t.batch.length ∧ s.source ≠ t.source ∧
      s.trace later = t.trace later := by
  intro s t later
  refine ⟨rfl, rfl, by decide, by decide, by decide, by decide, by decide, ?_⟩
  exact trace_eq_of_machine_eq .verbose ({} : Sink) {} _ _ later rfl rfl rfl rfl rfl

end StringProcessor.Session
