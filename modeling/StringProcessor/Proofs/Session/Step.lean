import StringProcessor.Proofs.Parser.Execution
import StringProcessor.Session

/-! Steps of sessions. A line is scanned, its tokens are read, and what is read is carried out. Where no
step is abandoned, the parser is ready between any two of them. -/
namespace StringProcessor.Session
open StringProcessor.Parser

section
variable {σ ε : Type} [Output σ ε]

theorem runLine_error {s : Session σ} {line : String} {d : Diagnostic}
    (h : (s.batch.feed line).answer = .error d) :
    (s.runLine line).next = { s with batch := (s.batch.feed line).next } ∧
      (s.runLine line).answer = .refused d := by
  simp only [runLine, h]
  trivial

/-- A line that is scanned without a fault has the commands carried out that are read from it. Where
all of them are accepted, the tokens may still end in a fault. -/
theorem runLine_ok {s : Session σ} {line : String} {tokens : List Token} (hp : s.parser.state = .ready)
    (h : (s.batch.feed line).answer = .ok tokens) :
    let found := ({} : Cursor).read tokens
    let outcome := executor.perform s.machine found.1
    (s.runLine line).next.machine = outcome.1 ∧
      (s.runLine line).answer = outcome.2.before found.2 ∧
      ((∃ reason, (s.runLine line).answer = .abandoned reason) ∨
        (s.runLine line).next.parser.state = .ready) := by
  intro found outcome
  cases tokens with
  | nil =>
    simp only [runLine, h]
    exact ⟨rfl, rfl, .inr hp⟩
  | cons t tokens =>
    obtain ⟨hn, ha, hr⟩ := parse_ready hp executor s.machine (t :: tokens)
    simp only [runLine, h]
    exact ⟨hn, ha, hr.imp_right fun hreset => congrArg Parser.state hreset⟩

/-- A parser that an abandoned line has left refuses the tokens of the next. -/
theorem runLine_busy {s : Session σ} {line : String} {t : Token} {tokens : List Token}
    (hp : s.parser.state ≠ .ready) (h : (s.batch.feed line).answer = .ok (t :: tokens)) :
    (s.runLine line).next.machine = s.machine ∧
      (s.runLine line).answer = .refused s.parser.notReady := by
  obtain ⟨hn, ha⟩ := parse_busy hp executor s.machine (t :: tokens)
  simp only [runLine, h, hn, ha]
  trivial

def handed (s : Session σ) (line : String) : List Command :=
  match (s.batch.feed line).answer with
  | .ok tokens => (s.parser.parse executor.recording (s.machine, []) tokens).next.2.2.reverse
  | .error _ => []

theorem handed_ok {s : Session σ} {line : String} {tokens : List Token} (hp : s.parser.state = .ready)
    (h : (s.batch.feed line).answer = .ok tokens) :
    s.handed line = executor.handed s.machine (({} : Cursor).read tokens).1 := by
  simp only [handed, h, parse_recording hp]

theorem runLine_batch (s : Session σ) (line : String) :
    (s.runLine line).next.batch = (s.batch.feed line).next := by
  simp only [runLine]
  split <;> rfl

/-- A line changes the machine by commands that are read from it, or not at all. -/
theorem runLine_machine {p : Machine σ → Prop} {s : Session σ} {line : String} {tokens : List Token}
    (h : (s.batch.feed line).answer = .ok tokens)
    (hstep : ∀ m, ∀ c ∈ (({} : Cursor).read tokens).1, p m → p (m.execute c).next) (hm : p s.machine) :
    p (s.runLine line).next.machine := by
  by_cases hp : s.parser.state = .ready
  · rw [(runLine_ok hp h).1]
    exact Executor.perform_induction hstep hm
  · cases tokens with
    | nil =>
      simp only [runLine, h]
      exact hm
    | cons t tokens =>
      rw [(runLine_busy hp h).1]
      exact hm

/-- What a session has and every step keeps, it has behind any requests. -/
theorem after_induction {p : Session σ → Prop} {s : Session σ} (h : p s)
    (hstep : ∀ s r, p s → p (s.handle r).next) (requests : List Request) :
    p (s.after requests) := by
  induction requests generalizing s with
  | nil => exact h
  | cons r requests ih => exact ih (hstep s r h)

/-- What every command keeps of the machine, every step keeps. -/
theorem handle_machine {p : Machine σ → Prop} (hstep : ∀ m c, p m → p (m.execute c).next)
    {s : Session σ} (h : p s.machine) (r : Request) : p (s.handle r).next.machine := by
  cases r with
  | finish => exact h
  | line text =>
    cases ha : (s.batch.feed text).answer with
    | error d =>
      rw [handle, (runLine_error ha).1]
      exact h
    | ok tokens => exact runLine_machine ha (fun m c _ => hstep m c) h

theorem after_machine {p : Machine σ → Prop} (hstep : ∀ m c, p m → p (m.execute c).next)
    {s : Session σ} (h : p s.machine) (requests : List Request) : p (s.after requests).machine :=
  after_induction (p := fun s => p s.machine) h (fun _ r h => handle_machine hstep h r) requests

end

variable {σ : Type} [Output σ Empty]

/-- The parser behind a line with these tokens. Without tokens a line does not come as far as the parser. -/
def parserBehind (s : Session σ) : List Token → Parser
  | [] => s.parser
  | _ :: _ => s.parser.reset

omit [Output σ Empty] in
theorem parserBehind_ready {s : Session σ} (h : s.parser.state = .ready) (tokens : List Token) :
    (s.parserBehind tokens).state = .ready := by
  cases tokens with
  | nil => exact h
  | cons t tokens => rfl

/-- What a line that is scanned without a fault leaves of the session. -/
theorem runLine_next {s : Session σ} {line : String} {tokens : List Token} (hp : s.parser.state = .ready)
    (h : (s.batch.feed line).answer = .ok tokens) :
    (s.runLine line).next = ⟨(s.batch.feed line).next, s.parserBehind tokens,
      (executor.perform s.machine (({} : Cursor).read tokens).1).1⟩ := by
  cases tokens with
  | nil =>
    simp only [runLine, h]
    rfl
  | cons t tokens =>
    obtain ⟨hn, -⟩ := parse_total hp executor s.machine (t :: tokens)
    simp only [runLine, h, hn]
    rfl

/-- No step leaves the parser in the middle of its work. -/
theorem handle_ready {s : Session σ} (h : s.parser.state = .ready) (r : Request) :
    (s.handle r).next.parser.state = .ready := by
  cases r with
  | finish => exact h
  | line text =>
    cases ha : (s.batch.feed text).answer with
    | error d =>
      rw [handle, (runLine_error ha).1]
      exact h
    | ok tokens =>
      rw [handle, runLine_next h ha]
      exact parserBehind_ready h tokens

theorem after_ready (level : Level) (sink : σ) (requests : List Request) :
    ((start level sink).after requests).parser.state = .ready :=
  after_induction (p := fun s => s.parser.state = .ready) rfl (fun _ r h => handle_ready h r) requests

end StringProcessor.Session
