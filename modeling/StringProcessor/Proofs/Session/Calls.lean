import StringProcessor.Proofs.Batch.LineBreak
import StringProcessor.Proofs.Machine.Step
import StringProcessor.Proofs.Session.Origin

/-! Calls on sessions. Whoever runs a text gives its lines to a session, takes out what each of them writes,
and gives it no more when an exit has been carried out. -/
namespace StringProcessor

namespace Session

section
variable (s : Session)

@[simp] theorem running_drain : s.drain.2.running = s.running := rfl
@[simp] theorem pending_drain : s.drain.2.pending = s.pending := rfl
@[simp] theorem source_drain : s.drain.2.source = s.source := rfl
@[simp] theorem latest_drain : s.drain.2.machine.sink.latest = [] := rfl

end

/-- A line ends a session exactly if an exit is among the commands that the machine is handed. -/
private theorem perform_running {σ : Type} [Output σ Empty] (m : Machine σ) (cs : List Command) :
    (executor.perform m cs).1.running ↔
      m.running ∧ ∀ c ∈ executor.handed m cs, c.action ≠ .exit := by
  induction cs generalizing m with
  | nil => simp [Executor.perform, Executor.handed]
  | cons c cs ih =>
    have hn : (executor m c).next.running ↔ m.running ∧ c.action ≠ .exit := Machine.execute_running m c
    rw [Executor.perform, Executor.handed, List.forall_mem_cons]
    cases (executor m c).answer with
    | accepted => rw [ih, hn, and_assoc]
    | refused d => simpa using hn
    | abandoned reason => exact reason.elim

structure Call where
  session : Session
  line : String

namespace Call

def step (c : Call) : Step := c.session.runLine c.line

/-- The session for the next line. What this one has written is taken out of it. -/
def next (c : Call) : Session := c.step.next.drain.2

/-- An exit is among the commands that the machine is handed by the line. -/
def Exits (c : Call) : Prop := ∃ command ∈ c.session.handed c.line, command.action = .exit

/-- The line completes its batch, and all commands that are read from it are carried out, or those up to
the first that is refused. -/
def CarriesOut (c : Call) : Prop :=
  ∃ tokens, (c.session.batch.feed c.line).answer = .ok tokens ∧
    let commands := (Parser.commands tokens).1
    let handed := c.session.handed c.line
    (executor.Accepts c.session.machine commands c.step.next.machine ∧ handed = commands ∨
      ∃ d, executor.Refuses c.session.machine commands handed c.step.next.machine d ∧
        c.step.answer = .refused d)

end Call

/-- The calls by which lines are run as long as the session goes on. -/
def calls (s : Session) : List String → List Call
  | [] => []
  | line :: lines => if s.running then ⟨s, line⟩ :: calls (Call.next ⟨s, line⟩) lines else []

def left (s : Session) : List String → Session
  | [] => s
  | line :: lines => if s.running then left (Call.next ⟨s, line⟩) lines else s

/-- Between two calls the parser is ready, nothing that was written is left, no token is held back but by a
literal, and none is open when the session has ended. -/
structure Resting (s : Session) : Prop where
  ready : s.parser.state = .ready
  drained : s.machine.sink.latest = []
  settled : s.pending = false → s.batch.tokens = []
  closed : s.running = false → s.pending = false

theorem resting_start (level : Level) : (start level .endless).Resting :=
  ⟨rfl, rfl, fun _ => rfl, fun h => nomatch h⟩

private theorem handed_error {s : Session} {line : String} {d : Diagnostic}
    (h : (s.batch.feed line).answer = .error d) : s.handed line = [] := by
  simp only [handed, h]

/-- A session goes on behind a line unless the line has an exit carried out. -/
private theorem runLine_running {s : Session} (hp : s.parser.state = .ready) (line : String) :
    (s.runLine line).next.running ↔ s.running ∧ ∀ c ∈ s.handed line, c.action ≠ .exit := by
  cases ha : (s.batch.feed line).answer with
  | error d =>
    rw [(runLine_error ha).1, handed_error ha]
    simp [running]
  | ok tokens =>
    rw [runLine_next hp ha, handed_ok hp ha]
    exact perform_running _ _

/-- A line that hands over commands leaves no literal open. -/
private theorem handed_eq_nil {s : Session} (hp : s.parser.state = .ready) {line : String}
    (h : (s.batch.feed line).next.pending) : s.handed line = [] := by
  obtain ⟨-, -, ha, -⟩ := Batch.feed_pending h
  rw [handed_ok hp ha]
  rfl

namespace Call
variable {c : Call}

private theorem next_running (h : c.session.Resting) :
    c.next.running ↔ c.session.running ∧ ¬ c.Exits := by
  rw [next, running_drain, step, runLine_running h.ready]
  simp only [Exits, not_exists, not_and]

private theorem next_resting (h : c.session.Resting) (hr : c.session.running) : c.next.Resting where
  ready := handle_ready h.ready (.line c.line)
  drained := latest_drain _
  settled hp := by
    have hb : c.next.batch = (c.session.batch.feed c.line).next := runLine_batch c.session c.line
    rw [pending, hb] at hp
    rw [hb]
    exact Batch.tokens_feed hp
  closed hstop := by
    have hexits : c.Exits := by
      by_contra hnone
      simp [(next_running h).mpr ⟨hr, hnone⟩] at hstop
    obtain ⟨command, hm, -⟩ := hexits
    rw [next, pending_drain, step, pending, runLine_batch, Bool.eq_false_iff]
    intro hpending
    rw [handed_eq_nil h.ready hpending] at hm
    cases hm

/-- A line that has an exit carried out has all statements carried out up to its first failure, also those
behind the exit. -/
theorem Exits.carriesOut (hp : c.session.parser.state = .ready) (h : c.Exits) : c.CarriesOut := by
  obtain ⟨_, hm, -⟩ := h
  cases ha : (c.session.batch.feed c.line).answer with
  | error d =>
    rw [handed_error ha] at hm
    cases hm
  | ok tokens =>
    refine ⟨tokens, ha, ?_⟩
    obtain ⟨hn, hanswer, -⟩ := runLine_ok hp ha
    have hmachine : c.step.next.machine = _ := hn
    have hresult : c.step.answer = _ := hanswer
    rw [handed_ok hp ha, Parser.commands_eq_read, hmachine, hresult]
    generalize ({} : Parser.Cursor).read tokens = found
    obtain ⟨m, hall, hperform, -⟩ | ⟨given, m, d, hrefused, hperform, -⟩ | ⟨reason, -⟩ :=
      Parser.perform_cases executor c.session.machine [] found.1
    · rw [hperform]
      refine .inl ⟨hall, ?_⟩
      simpa [Executor.handed] using hall.handed []
    · rw [hperform, hrefused.handed]
      exact .inr ⟨d, hrefused, rfl⟩
    · exact reason.elim

/-- No line is refused for a literal that it leaves open. -/
theorem kind_ne_unterminated {d : Diagnostic} (h : c.step.answer = .refused d) :
    d.kind ≠ .unterminatedString := by
  cases runLine_origin h with
  | scan hs =>
    obtain ⟨_, _, rfl⟩ := Batch.feed_error hs
    exact nofun
  | busy | read => exact nofun
  | execute _ hd =>
    obtain ⟨fault, -, rfl⟩ := Machine.execute_error hd
    cases fault <;> exact nofun

end Call

variable {s : Session}

theorem calls_stopped (h : s.running = false) (lines : List String) :
    s.calls lines = [] ∧ s.left lines = s := by
  cases lines with
  | nil => exact ⟨rfl, rfl⟩
  | cons line lines => simp [calls, left, h]

/-- No line is left out before the last that is given to the session. -/
theorem lines_calls (s : Session) (lines : List String) :
    (s.calls lines).map Call.line <+: lines := by
  induction lines generalizing s with
  | nil => exact List.prefix_refl _
  | cons line lines ih =>
    rw [calls]
    split
    · exact List.cons_prefix_cons.mpr ⟨rfl, ih _⟩
    · exact List.nil_prefix

theorem calls_append (lines lines' : List String) :
    s.calls (lines ++ lines') = s.calls lines ++ (s.left lines).calls lines' := by
  induction lines generalizing s with
  | nil => rfl
  | cons line lines ih =>
    rw [List.cons_append, calls, calls, left]
    split
    · rw [ih, List.cons_append]
    · rename_i hr
      rw [(calls_stopped (by simpa using hr) lines').1]
      rfl

theorem left_append (lines lines' : List String) :
    s.left (lines ++ lines') = (s.left lines).left lines' := by
  induction lines generalizing s with
  | nil => rfl
  | cons line lines ih =>
    rw [List.cons_append, left, left]
    split
    · exact ih
    · rename_i hr
      rw [(calls_stopped (by simpa using hr) lines').2]

/-- Every call finds the session at rest and going on, and the last leaves it at rest. -/
theorem Resting.calls (h : s.Resting) (lines : List String) :
    (∀ call ∈ s.calls lines, call.session.Resting ∧ call.session.running) ∧ (s.left lines).Resting := by
  induction lines generalizing s with
  | nil => exact ⟨List.forall_mem_nil _, h⟩
  | cons line lines ih =>
    rw [Session.calls, left]
    split
    · rename_i hr
      obtain ⟨hcalls, hleft⟩ := ih (Call.next_resting (c := ⟨s, line⟩) h hr)
      exact ⟨List.forall_mem_cons.mpr ⟨⟨h, hr⟩, hcalls⟩, hleft⟩
    · exact ⟨List.forall_mem_nil _, h⟩

/-- The session goes on behind all lines, or the last call is the only one that has an exit carried out. -/
theorem Resting.calls_exit (h : s.Resting) (hr : s.running) (lines : List String) :
    ((s.left lines).running ∧ (∀ call ∈ s.calls lines, ¬ call.Exits) ∧
        (s.calls lines).map Call.line = lines) ∨
      (s.left lines).running = false ∧ ∃ front last, s.calls lines = front ++ [last] ∧
        (∀ call ∈ front, ¬ call.Exits) ∧ last.Exits := by
  induction lines generalizing s with
  | nil => exact .inl ⟨hr, List.forall_mem_nil _, rfl⟩
  | cons line lines ih =>
    let call : Call := ⟨s, line⟩
    rw [Session.calls, left, if_pos hr, if_pos hr]
    by_cases hexits : call.Exits
    · have hstop : call.next.running = false := by
        rw [Bool.eq_false_iff]
        exact fun hn => ((Call.next_running h).mp hn).2 hexits
      obtain ⟨hcalls, hleft⟩ := calls_stopped hstop lines
      rw [hcalls, hleft]
      exact .inr ⟨hstop, [], call, rfl, List.forall_mem_nil _, hexits⟩
    · have hn : call.next.running := (Call.next_running h).mpr ⟨hr, hexits⟩
      rcases ih (Call.next_resting (c := call) h hr) hn with
        ⟨hleft, hcalls, hlines⟩ | ⟨hleft, front, last, hcalls, hfront, hlast⟩
      · exact .inl ⟨hleft, List.forall_mem_cons.mpr ⟨hexits, hcalls⟩, by rw [List.map_cons, hlines]⟩
      · exact .inr ⟨hleft, call :: front, last, by rw [hcalls]; rfl,
          List.forall_mem_cons.mpr ⟨hexits, hfront⟩, hlast⟩

end Session
end StringProcessor
