import StringProcessor.Parser

/-! Reading without executing. What a parser finds in a list of tokens does not depend on the
receiver of its commands; the receiver only decides how far the commands are handed over. -/
namespace StringProcessor
open Statement
variable {σ ε ι : Type}

/-- How a call ends whose commands ended so, if the tokens themselves end with the given fault. -/
def Verdict.before (fault : Option (Diagnostic ι)) : Verdict ε (Diagnostic ι) → Verdict ε (Diagnostic ι)
  | .accepted => fault.elim .accepted .refused
  | verdict => verdict

/-- Commands that are handed over one after the other until one is not accepted. -/
def Executor.perform (execute : Executor σ ε ι) : σ → List (Command ι) → σ × Verdict ε (Diagnostic ι)
  | s, [] => (s, .accepted)
  | s, c :: cs =>
    match (execute s c).answer with
    | .accepted => perform execute (execute s c).next cs
    | verdict => ((execute s c).next, verdict)

/-- What every command keeps, the commands that are handed over keep. -/
theorem Executor.perform_induction {execute : Executor σ ε ι} {p : σ → Prop}
    {cs : List (Command ι)} (hstep : ∀ s, ∀ c ∈ cs, p s → p (execute s c).next) {s : σ} (h : p s) :
    p (execute.perform s cs).1 := by
  induction cs generalizing s with
  | nil => exact h
  | cons c cs ih =>
    have hc := hstep s c (.head _) h
    rw [perform]
    split
    · exact ih (fun s c hm => hstep s c (.tail _ hm)) hc
    · exact hc

namespace Parser

/-- How far a list of tokens has been read: the number of tokens read, the last of them, and what
is being read. -/
structure Cursor (ι : Type := Nat) where
  position : Nat := 0
  before : Option (Token ι) := none
  phase : Phase ι := .between

namespace Cursor

def pass (c : Cursor ι) (t : Token ι) (phase : Phase ι) : Cursor ι := ⟨c.position + 1, some t, phase⟩

@[simp] theorem phase_pass (c : Cursor ι) (t : Token ι) (phase : Phase ι) :
    (c.pass t phase).phase = phase := rfl
@[simp] theorem position_pass (c : Cursor ι) (t : Token ι) (phase : Phase ι) :
    (c.pass t phase).position = c.position + 1 := rfl
@[simp] theorem before_pass (c : Cursor ι) (t : Token ι) (phase : Phase ι) :
    (c.pass t phase).before = some t := rfl

variable [Add ι] [OfNat ι 0] [OfNat ι 1]

def fault (c : Cursor ι) (rest : List (Token ι)) : Diagnostic ι :=
  c.phase.fault ⟨c.position, c.before, rest⟩

def read : Cursor ι → List (Token ι) → List (Command ι) × Option (Diagnostic ι)
  | c, [] =>
    match c.phase with
    | .between => ([], none)
    | .inside .. => ([], some (c.fault []))
  | c, t :: rest =>
    match c.phase.step t with
    | .reject => ([], some (c.fault (t :: rest)))
    | .advance phase => (c.pass t phase).read rest
    | .complete command =>
      let later := (c.pass t .between).read rest
      (command :: later.1, later.2)

end Cursor

variable [Add ι] [OfNat ι 0] [OfNat ι 1] [ToString ι]

namespace Progress

/-- Where a call has come to, apart from its receiver. -/
def cursor (p : Progress σ ι) : Cursor ι := ⟨p.parser.current, p.before, p.phase⟩

omit [Add ι] [OfNat ι 0] [OfNat ι 1] in
theorem arrive_eq (p : Progress σ ι) :
    p.arrive.cursor = p.cursor ∧ p.arrive.state = p.state ∧ p.arrive.parser = p.parser := by
  unfold arrive
  split <;> exact ⟨rfl, rfl, rfl⟩

omit [Add ι] [OfNat ι 0] [OfNat ι 1] in
theorem depart_eq (p : Progress σ ι) :
    p.depart.cursor = p.cursor ∧ p.depart.state = p.state ∧ p.depart.parser = p.parser := by
  unfold depart
  split <;> exact ⟨rfl, rfl, rfl⟩

/-- A call hands over the commands that are found, ends with the first verdict that does not accept
one, or else with the fault of the tokens, and leaves nothing behind in the parser if it is not
abandoned. -/
private theorem read_eq_perform (execute : Executor σ ε ι) (p : Progress σ ι) (rest : List (Token ι)) :
    let found := p.cursor.read rest
    let turn := read execute p rest
    turn.next.2 = (execute.perform p.state found.1).1 ∧
      turn.answer = (execute.perform p.state found.1).2.before found.2 ∧
      ((∃ reason, turn.answer = .abandoned reason) ∨ turn.next.1 = p.parser.reset) := by
  induction rest generalizing p with
  | nil =>
    have hc : p.cursor.phase = p.phase := rfl
    cases hp : p.phase with
    | between =>
      simp only [read, Cursor.read, hc, hp, Executor.perform, Verdict.before]
      exact ⟨rfl, rfl, .inr rfl⟩
    | inside start stage =>
      simp only [read, Cursor.read, hc, hp, Executor.perform, Verdict.before]
      exact ⟨rfl, rfl, .inr rfl⟩
  | cons t rest ih =>
    have hc : p.cursor.phase = p.phase := rfl
    cases hs : p.phase.step t with
    | reject =>
      simp only [read, Cursor.read, hc, hs, Executor.perform, Verdict.before]
      exact ⟨rfl, rfl, .inr rfl⟩
    | advance phase =>
      obtain ⟨harrived, hstate, hparser⟩ := arrive_eq ((p.advance t).enter phase)
      have h := ih ((p.advance t).enter phase).arrive
      rw [harrived, hstate, hparser] at h
      simp only [read, Cursor.read, hc, hs]
      exact h
    | complete command =>
      obtain ⟨hcursor, hstate, hparser⟩ := depart_eq p
      have hstate' : (p.depart.advance t).state = p.state := hstate
      have hreset : (p.depart.advance t).parser.reset = p.parser.reset := by rw [← hparser]; rfl
      simp only [read, Cursor.read, hc, hs, hstate', Executor.perform]
      cases ha : (execute p.state command).answer with
      | accepted =>
        have h := ih ((((p.depart.advance t).receive (execute p.state command)).debug
          (.statementDone command.keyword)).enter .between)
        have hpassed : ((((p.depart.advance t).receive (execute p.state command)).debug
            (.statementDone command.keyword)).enter .between).cursor = p.cursor.pass t .between := by
          rw [← hcursor]
          rfl
        rw [hpassed] at h
        rw [← hreset]
        exact h
      | refused d => exact ⟨rfl, rfl, .inr hreset⟩
      | abandoned reason => exact ⟨rfl, rfl, .inl ⟨reason, rfl⟩⟩

end Progress

variable {parser : Parser ι}

/-- A call replaces all that a ready parser holds. -/
theorem parse_congr {p q : Parser ι} (hp : p.state = .ready) (hq : q.state = .ready)
    (hl : p.level = q.level) (execute : Executor σ ε ι) (s : σ) (tokens : List (Token ι)) :
    p.parse execute s tokens = q.parse execute s tokens := by
  simp only [parse, hp, hq, hl]

/-- A ready parser reads the tokens from their start. -/
theorem parse_ready (hp : parser.state = .ready) (execute : Executor σ ε ι) (s : σ)
    (tokens : List (Token ι)) :
    let found := ({} : Cursor ι).read tokens
    let turn := parser.parse execute s tokens
    turn.next.2 = (execute.perform s found.1).1 ∧
      turn.answer = (execute.perform s found.1).2.before found.2 ∧
      ((∃ reason, turn.answer = .abandoned reason) ∨ turn.next.1 = parser.reset) := by
  simp only [parse, hp]
  exact Progress.read_eq_perform execute _ tokens

/-- A parser that is not ready hands nothing over. -/
theorem parse_busy (hp : parser.state ≠ .ready) (execute : Executor σ ε ι) (s : σ) (tokens : List (Token ι)) :
    let turn := parser.parse execute s tokens
    turn.next = ({ parser with state := .ready }, s) ∧ turn.answer = .refused parser.notReady := by
  simp [parse]

/-- A call that no receiver can abandon leaves nothing behind in the parser. -/
theorem parse_total (hp : parser.state = .ready) (execute : Executor σ Empty ι) (s : σ)
    (tokens : List (Token ι)) :
    let found := ({} : Cursor ι).read tokens
    let outcome := execute.perform s found.1
    let turn := parser.parse execute s tokens
    turn.next = (parser.reset, outcome.1) ∧ turn.answer = outcome.2.before found.2 := by
  obtain ⟨hn, ha, hr⟩ := parse_ready hp execute s tokens
  rcases hr with ⟨reason, _⟩ | hr
  · exact reason.elim
  · exact ⟨Prod.ext hr hn, ha⟩

omit [Add ι] [OfNat ι 0] [OfNat ι 1] [ToString ι] in
private theorem perform_collect (collected cs : List (Command ι)) :
    collect.perform collected cs = (cs.reverse ++ collected, .accepted) := by
  induction cs generalizing collected with
  | nil => rfl
  | cons c cs ih => simpa [Executor.perform, collect] using ih (c :: collected)

/-- Collecting gives all that is found. -/
theorem parse_collect (hp : parser.state = .ready) (tokens : List (Token ι)) :
    let found := ({} : Cursor ι).read tokens
    let turn := parser.parse collect [] tokens
    turn.next = (parser.reset, found.1.reverse) ∧ turn.answer = found.2.elim .accepted .refused := by
  obtain ⟨hn, ha⟩ := parse_total hp collect [] tokens
  rw [perform_collect] at hn ha
  rw [List.append_nil] at hn
  exact ⟨hn, ha⟩

theorem commands_eq_read (tokens : List (Token ι)) :
    commands tokens = ({} : Cursor ι).read tokens := by
  have hp : ({} : Parser ι).state = .ready := rfl
  obtain ⟨hn, ha⟩ := parse_collect hp tokens
  rw [commands, hn, ha]
  generalize ({} : Cursor ι).read tokens = found
  obtain ⟨cs, fault⟩ := found
  cases fault <;> simp

end Parser
end StringProcessor
