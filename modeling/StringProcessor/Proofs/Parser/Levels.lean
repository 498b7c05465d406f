import StringProcessor.Parser
import StringProcessor.Proofs.Narration

/-! Parsing at different levels. A call goes the same way at every level, with a receiver that takes the
same commands at the level as at the fullest one. -/
namespace StringProcessor
open Statement
variable {σ ε ι : Type}

/-- What the receiver does with a command does not depend on the level. -/
def Executor.Levelled (level : Level) (under : σ → σ → Prop) (execute : Executor σ ε ι) : Prop :=
  ∀ s t c, under s t → Turn.Muted level under (execute s c) (execute t c)

namespace Parser

/-- The second parser is at the level where the first is at the fullest. -/
structure Under (level : Level) (p q : Parser ι) : Prop where
  full : p.level = .verbose
  same : q = { p with level }

variable {level : Level} {under : σ → σ → Prop}

namespace Progress

/-- The second call is at the level where the first is at the fullest. -/
structure Under (level : Level) (under : σ → σ → Prop) (p q : Progress σ ι) : Prop where
  parser : p.parser.Under level q.parser
  before : q.before = p.before
  phase : q.phase = p.phase
  state : under p.state q.state
  log : q.log = level.mute p.log

variable {p q : Progress σ ι}

theorem Under.tell (h : p.Under level under q) {rs rs' : List Record} (hr : rs' = level.mute rs) :
    (p.tell rs).Under level under (q.tell rs') := by
  refine ⟨h.parser, h.before, h.phase, h.state, ?_⟩
  simp only [Progress.tell, h.log, hr, Level.mute_append, Level.mute_reverse]

theorem Under.advance (h : p.Under level under q) (t : Token ι) :
    (p.advance t).Under level under (q.advance t) := by
  refine ⟨⟨h.parser.full, ?_⟩, rfl, h.phase, h.state, h.log⟩
  simp only [Progress.advance, h.parser.same]

theorem Under.enter (h : p.Under level under q) (phase : Phase ι) :
    (p.enter phase).Under level under (q.enter phase) := by
  refine ⟨⟨h.parser.full, ?_⟩, h.before, rfl, h.state, h.log⟩
  simp only [Progress.enter, h.parser.same]

theorem Under.receive (h : p.Under level under q) {full muted : Turn σ (Verdict ε (Diagnostic ι))}
    (ht : Turn.Muted level under full muted) :
    (p.receive full).Under level under (q.receive muted) := by
  have hstate : ({ p with state := full.next } : Progress σ ι).Under level under
      { q with state := muted.next } := ⟨h.parser, h.before, h.phase, ht.next, h.log⟩
  exact hstate.tell ht.log

def Left (level : Level) (under : σ → σ → Prop) (full muted : Parser ι × σ) : Prop :=
  full.1.Under level muted.1 ∧ under full.2 muted.2

theorem Under.stop (h : p.Under level under q) (answer : Verdict ε (Diagnostic ι)) :
    Turn.Muted level (Left level under) (p.stop answer) (q.stop answer) := by
  refine ⟨⟨⟨h.parser.full, ?_⟩, h.state⟩, rfl, ?_⟩
  · simp only [Progress.stop, reset, h.parser.same]
  · simp only [Progress.stop, h.log, Level.mute_reverse]

theorem Under.abandon (h : p.Under level under q) (reason : ε) :
    Turn.Muted level (Left level under) (p.abandon reason) (q.abandon reason) := by
  refine ⟨⟨h.parser, h.state⟩, rfl, ?_⟩
  simp only [Progress.abandon, h.log, Level.mute_reverse]

variable [ToString ι]

theorem Under.debug (h : p.Under level under q) (e : Event ι) :
    (p.debug e).Under level under (q.debug e) := by
  refine h.tell ?_
  rw [h.parser.full, h.parser.same]
  exact level.debug_eq_mute ..

theorem Under.showTokens (h : p.Under level under q) : p.showTokens.Under level under q.showTokens := by
  refine h.tell ?_
  rw [h.parser.full, h.parser.same]
  exact level.trace_eq_mute ..

theorem Under.arrive (h : p.Under level under q) : p.arrive.Under level under q.arrive := by
  unfold Progress.arrive
  rw [h.phase]
  split
  · exact h.showTokens
  · exact h.showTokens
  · exact h.debug _
  · exact h

theorem Under.depart (h : p.Under level under q) : p.depart.Under level under q.depart := by
  unfold Progress.depart
  rw [h.phase]
  split
  · exact h.showTokens
  · exact h

variable [Add ι] [OfNat ι 0] [OfNat ι 1]

theorem Under.fail (h : p.Under level under q) (rest : List (Token ι)) :
    Turn.Muted level (Left level under) (p.fail (ε := ε) rest) (q.fail rest) := by
  have hcurrent : q.parser.current = p.parser.current := by rw [h.parser.same]
  simp only [Progress.fail, h.phase, h.before, hcurrent]
  exact h.showTokens.stop _

/-- The tokens that are left are read in the same way. -/
theorem Under.read {execute : Executor σ ε ι} (he : execute.Levelled level under)
    (h : p.Under level under q) (rest : List (Token ι)) :
    Turn.Muted level (Left level under) (p.read execute rest) (q.read execute rest) := by
  induction rest generalizing p q with
  | nil =>
    rw [Progress.read, Progress.read, h.phase]
    split
    · exact (h.debug _).stop _
    · exact h.fail []
  | cons t rest ih =>
    rw [Progress.read, Progress.read, h.phase]
    cases p.phase.step t with
    | reject => exact h.fail _
    | advance phase => exact ih ((h.advance t).enter phase).arrive
    | complete command =>
      have hdone := h.depart.advance t
      have hturn := he _ _ command hdone.state
      have hreceived := hdone.receive hturn
      dsimp only
      rw [hturn.answer]
      split
      · exact ih ((hreceived.debug _).enter _)
      · exact hreceived.stop _
      · exact hreceived.abandon _

end Progress

variable [ToString ι] [Add ι] [OfNat ι 0] [OfNat ι 1]

/-- A call goes the same way at every level. -/
theorem Under.parse {p q : Parser ι} (h : p.Under level q) {execute : Executor σ ε ι}
    (he : execute.Levelled level under) {s t : σ} (hs : under s t) (tokens : List (Token ι)) :
    Turn.Muted level (Progress.Left level under) (p.parse execute s tokens)
      (q.parse execute t tokens) := by
  obtain ⟨hp, rfl⟩ := h
  unfold Parser.parse
  dsimp only
  split
  · let begun (level : Level) (state : σ) : Progress σ ι :=
      { parser := { p with level, state := .root, tokens, current := 0 }, state
        log := (level.debug .parser (.parseBegun tokens.length : Event ι)).reverse }
    have hbegun : (begun .verbose s).Under level under (begun level t) := by
      refine ⟨⟨rfl, rfl⟩, rfl, rfl, hs, ?_⟩
      rw [Level.mute_reverse]
      exact congrArg List.reverse (level.debug_eq_mute ..)
    rw [hp]
    exact hbegun.read he _
  · refine ⟨⟨⟨hp, rfl⟩, hs⟩, rfl, ?_⟩
    dsimp only
    rw [hp]
    exact level.trace_eq_mute ..

end Parser
end StringProcessor
