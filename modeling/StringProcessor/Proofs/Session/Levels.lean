import StringProcessor.Proofs.Batch.Levels
import StringProcessor.Proofs.Parser.Levels
import StringProcessor.Session

/-! Sessions at different levels. The level of a session shows in nothing but its log, and the log at a
level is what the level keeps of the fullest one. -/
namespace StringProcessor
variable {σ ε : Type}

namespace Machine

/-- The second machine is at the level where the first is at the fullest. -/
structure Under (level : Level) (m n : Machine σ) : Prop where
  full : m.level = .verbose
  same : n = { m with level }

variable {level : Level} [Output σ ε]

theorem Under.apply {m n : Machine σ} (h : m.Under level n) (effect : Effect) :
    (m.apply effect).1.Under level (n.apply effect).1 ∧ (n.apply effect).2 = (m.apply effect).2 := by
  obtain ⟨hm, rfl⟩ := h
  cases effect with
  | store name value =>
    unfold Machine.apply
    dsimp only
    split <;> exact ⟨⟨hm, rfl⟩, rfl⟩
  | emit lines => exact ⟨⟨hm, rfl⟩, rfl⟩
  | stop => exact ⟨⟨hm, rfl⟩, rfl⟩

theorem Under.debug {m n : Machine σ} (h : m.Under level n) (e : Event) :
    n.debug e = level.mute (m.debug e) := by
  rw [Machine.debug, Machine.debug, h.full, h.same]
  exact level.debug_eq_mute ..

theorem Under.announce {m n : Machine σ} (h : m.Under level n) (effect : Effect) :
    n.announce effect = level.mute (m.announce effect) := by
  cases effect with
  | store name value =>
    rw [Machine.announce, Machine.announce, Machine.trace, Machine.trace, h.full, h.same]
    exact level.trace_eq_mute ..
  | emit lines => rfl
  | stop => exact h.debug _

/-- A command is carried out in the same way at every level. -/
private theorem executor_levelled :
    (Session.executor : Executor (Machine σ) ε).Levelled level (Under level) := by
  intro m n c h
  have hsymbols : n.symbols = m.symbols := by rw [h.same]
  unfold Session.executor Machine.execute
  dsimp only
  rw [hsymbols]
  cases effect m.symbols c.action with
  | error fault => exact ⟨h, rfl, h.debug _⟩
  | ok effect =>
    obtain ⟨hnext, hverdict⟩ := h.apply effect
    refine ⟨hnext, by dsimp only; rw [hverdict], ?_⟩
    dsimp only
    rw [h.debug, h.announce, Level.mute_append]

end Machine

namespace Session

/-- The second session is at the level where the first is at the fullest. -/
structure Under (level : Level) (s t : Session σ) : Prop where
  batch : s.batch.Under level t.batch
  parser : s.parser.Under level t.parser
  machine : s.machine.Under level t.machine

def under (s : Session σ) (level : Level) : Session σ :=
  ⟨{ s.batch with level }, { s.parser with level }, { s.machine with level }⟩

private theorem under_verbose (s : Session σ) (level : Level) :
    Under level (s.under .verbose) (s.under level) := ⟨⟨rfl, rfl⟩, ⟨rfl, rfl⟩, ⟨rfl, rfl⟩⟩

private theorem Under.eq_under {level : Level} {s t : Session σ} (h : Under level s t) :
    t = s.under level := by
  rw [under, ← h.batch.same, ← h.parser.same, ← h.machine.same]

/-- The step does at the level what the other one does at the fullest. -/
structure Step.Muted (level : Level) (full muted : Step σ ε) : Prop where
  next : Under level full.next muted.next
  answer : muted.answer = full.answer
  log : muted.log = level.mute full.log

/-- A step as it would be at another level, if all that there is to tell has been told. -/
def Step.under (step : Step σ ε) (level : Level) : Step σ ε :=
  { step with next := step.next.under level, log := level.mute step.log }

/-- A step without what the level may change: that of the session that it leaves, and the log. -/
def Step.silenced (step : Step σ ε) : Step σ ε := { step with next := step.next.under .off, log := [] }

private theorem Step.Muted.eq_under {level : Level} {full muted : Step σ ε}
    (h : Step.Muted level full muted) :
    muted = full.under level := by
  rw [Step.under, ← h.next.eq_under, ← h.answer, ← h.log]

variable {level : Level} {s t : Session σ}

theorem Under.finish (h : Under level s t) : Step.Muted (ε := ε) level s.finish t.finish := by
  have hturn := h.batch.finish
  refine ⟨⟨hturn.next, h.parser, h.machine⟩, ?_, hturn.log⟩
  simp only [Session.finish, hturn.answer]

variable [Output σ ε]

theorem Under.runLine (h : Under level s t) (line : String) :
    Step.Muted level (s.runLine line) (t.runLine line) := by
  have hscanned := h.batch.feed line
  unfold Session.runLine
  dsimp only
  rw [hscanned.answer]
  -- Which way a line goes is decided by its tokens alone.
  split
  · exact ⟨⟨hscanned.next, h.parser, h.machine⟩, rfl, hscanned.log⟩
  · exact ⟨⟨hscanned.next, h.parser, h.machine⟩, rfl, hscanned.log⟩
  · rename_i tokens _ _
    have hparsed := h.parser.parse Machine.executor_levelled h.machine tokens
    refine ⟨⟨hscanned.next, hparsed.next.1, hparsed.next.2⟩, hparsed.answer, ?_⟩
    dsimp only
    rw [hscanned.log, hparsed.log, Level.mute_append]

/-- A step at a level is the step at the fullest level with less of its log. -/
theorem Under.handle (h : Under level s t) (r : Request) :
    Step.Muted level (s.handle r) (t.handle r) := by
  cases r with
  | line text => exact h.runLine text
  | finish => exact h.finish

def steps : Session σ → List Request → List (Step σ ε)
  | _, [] => []
  | s, r :: requests => s.handle r :: steps (s.handle r).next requests

/-- So are all steps of a session. -/
private theorem Under.steps_eq (h : Under level s t) (requests : List Request) :
    t.steps requests = (s.steps requests).map fun step => step.under level := by
  induction requests generalizing s t with
  | nil => rfl
  | cons r requests ih =>
    have hstep := h.handle r
    rw [steps, steps, List.map_cons, ih hstep.next, hstep.eq_under]

/-- Sessions that differ only in their level do the same, step by step, with the same answers, symbols,
output, open literals, sources and states of the parser. Nothing is logged at the lowest level, and at
the middle one what is logged at the highest, in its order, without the traces. -/
theorem level_only_narrates (s : Session σ) (requests : List Request) :
    let off := (s.under .off).steps requests
    let basic := (s.under .basic).steps requests
    let verbose := (s.under .verbose).steps requests
    off.map Step.silenced = verbose.map Step.silenced ∧
    basic.map Step.silenced = verbose.map Step.silenced ∧
    (∀ step ∈ off, step.log = []) ∧
    (∀ step ∈ basic, ∀ r ∈ step.log, r.severity = .debug) ∧
    basic.map (·.log) = verbose.map fun step => step.log.filter (·.severity ≠ .trace) := by
  intro off basic verbose
  have hoff : off = verbose.map fun step => step.under .off := (s.under_verbose .off).steps_eq requests
  have hbasic : basic = verbose.map fun step => step.under .basic :=
    (s.under_verbose .basic).steps_eq requests
  have hverbose : verbose = verbose.map fun step => step.under .verbose :=
    (s.under_verbose .verbose).steps_eq requests
  refine ⟨?_, ?_, fun step hm => ?_, fun step hm r hr => ?_, ?_⟩
  · rw [hoff, List.map_map]
    rfl
  · rw [hbasic, List.map_map]
    rfl
  · rw [hoff] at hm
    obtain ⟨full, -, rfl⟩ := List.mem_map.mp hm
    exact Level.mute_off _
  · rw [hbasic] at hm
    obtain ⟨full, -, rfl⟩ := List.mem_map.mp hm
    exact Level.severity_of_basic hr
  · rw [hbasic, List.map_map]
    refine List.map_congr_left fun step hm => ?_
    rw [hverbose] at hm
    obtain ⟨full, -, rfl⟩ := List.mem_map.mp hm
    exact Level.mute_basic_verbose _

/-- A literal over two lines, which is told of character by character at the highest level only. -/
theorem level_only_narrates_literal :
    let s := start .off ({} : Sink)
    let requests : List Request := [.line "print 'a", .line "b';"]
    let basic := (s.under .basic).steps requests
    let verbose := (s.under .verbose).steps requests
    basic.map (·.log.length) ≠ verbose.map (·.log.length) ∧
      (∃ step ∈ basic, ∃ r ∈ step.log, r.severity = .debug) ∧
      basic.map (·.log) = verbose.map fun step => step.log.filter (·.severity ≠ .trace) := by
  intro s requests basic verbose
  obtain ⟨-, -, -, hd, hl⟩ := level_only_narrates s requests
  exact ⟨by decide, ⟨_, .head _, _, .head _, hd _ (.head _) _ (.head _)⟩, hl⟩

end Session
end StringProcessor
