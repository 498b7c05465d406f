import StringProcessor.Proofs.Batch.Split
import StringProcessor.Proofs.Machine.Move
import StringProcessor.Proofs.Session.Step

/-! Lines that are split between statements. Two lines do what they do as one line, if the first is carried
out; only the positions in the faults of the second are further on in the joined line. -/
namespace StringProcessor

namespace Verdict
variable {ε : Type} {v : Verdict ε}

private theorem before_accepted {fault : Option Diagnostic} :
    v.before fault = .accepted ↔ v = .accepted ∧ fault = none := by
  cases v with
  | accepted => cases fault <;> simp [before]
  | refused d | abandoned reason => simp [before]

/-- What goes for verdicts goes for those that a fault of the tokens may change. -/
private theorem before_map (f : Diagnostic → Diagnostic) (v : Verdict ε) (fault : Option Diagnostic) :
    (v.map f).before (fault.map f) = (v.before fault).map f := by
  cases v with
  | accepted => cases fault <;> rfl
  | refused d | abandoned reason => rfl

end Verdict

namespace Session
open StringProcessor.Parser

section
variable {σ ε : Type} [Output σ ε]

private theorem executor_further (characters tokens : Nat) (m : Machine σ) (c : Command) :
    (executor m (c.move (characters + ·))).next = (executor m c).next ∧
      (executor m (c.move (characters + ·))).answer =
        (executor m c).answer.map (Diagnostic.further characters tokens) :=
  ⟨(m.execute_move _ c).1, m.execute_further characters tokens c⟩

/-- Further on commands do the same, up to the one that is refused. -/
private theorem perform_further (characters tokens : Nat) (m : Machine σ) (cs : List Command) :
    let moved := executor.perform m (cs.map (Command.move (characters + ·)))
    let plain := executor.perform m cs
    moved.1 = plain.1 ∧ moved.2 = plain.2.map (Diagnostic.further characters tokens) := by
  induction cs generalizing m with
  | nil => exact ⟨rfl, rfl⟩
  | cons c cs ih =>
    obtain ⟨hn, ha⟩ := executor_further characters tokens m c
    simp only [List.map_cons, Executor.perform, hn, ha]
    cases hv : (executor m c).answer with
    | accepted => exact ih _
    | refused d | abandoned reason => exact ⟨rfl, rfl⟩

end

variable {σ : Type} [Output σ Empty]

/-- A line may be split where a statement ends. The parts, one after the other, leave the machine as the
joined line leaves it, with a literal open or not as there. If the second part fails, the joined line fails
with the same diagnostic, further on by the characters and the tokens of the first part. -/
theorem runLine_split (level : Level) (sink : σ) (requests : List Request) (l₁ l₂ : String)
    (tokens₁ tokens₂ : List Token) :
    let s := (start level sink).after requests
    s.pending = false → Batch.Whole l₁ tokens₁ → Batch.Whole l₂ tokens₂ →
    (s.runLine l₁).answer = .accepted →
    let joined := s.runLine (l₁ ++ l₂)
    let second := (s.runLine l₁).next.runLine l₂
    joined.next.machine = second.next.machine ∧ joined.next.pending = second.next.pending ∧
      joined.answer = second.answer.map (Diagnostic.further l₁.length tokens₁.length) := by
  intro s hs h₁ h₂ hok joined second
  have hready : s.parser.state = .ready := after_ready level sink requests
  -- The first line is read to its end, and all its commands are accepted.
  obtain ⟨ha₁, hb₁⟩ := h₁.feed hs
  have hn₁ := runLine_next hready ha₁
  obtain ⟨-, hanswer, -⟩ := runLine_ok hready ha₁
  rw [hanswer, Verdict.before_accepted] at hok
  obtain ⟨haccepted, hfault⟩ := hok
  have hread₁ : ({} : Cursor).read tokens₁ = ((({} : Cursor).read tokens₁).1, none) :=
    Prod.ext rfl hfault
  obtain ⟨c, hreach, hbetween⟩ := Cursor.exists_between hread₁
  have hperformed := accepts_of_perform haccepted
  generalize (({} : Cursor).read tokens₁).1 = cs₁ at *
  -- So the joined line gives the tokens of both, and its commands are those of both.
  obtain ⟨cut, hcut, -⟩ :=
    Grammar.finishes_between_iff.mp ((Cursor.read_eq_iff {} tokens₁ cs₁).mp hread₁)
  obtain ⟨ha, hb⟩ := (h₁.append h₂ hcut.last_terminator).feed hs
  have hfurther : Cursor.Further l₁.length tokens₁.length {} c := by
    refine ⟨?_, hbetween, fun hne => absurd rfl hne⟩
    simpa using hreach.position
  have hread : ({} : Cursor).read (tokens₁ ++ tokens₂.map (Token.move (l₁.length + ·))) = _ :=
    hreach.read _
  rw [hfurther.read] at hread
  have hpending : joined.next.batch = _ := runLine_batch s (l₁ ++ l₂)
  obtain ⟨hn, hanswer, -⟩ := runLine_ok hready ha
  rw [hread, hperformed.perform] at hn hanswer
  -- The second line finds the machine as the commands of the first have left it.
  obtain ⟨ha₂, hb₂⟩ := h₂.feed (b := (s.runLine l₁).next.batch) (by rw [hn₁]; exact hb₁)
  have hpending₂ : second.next.batch = _ := runLine_batch (s.runLine l₁).next l₂
  have hready₁ : (s.runLine l₁).next.parser.state = .ready := handle_ready hready (.line l₁)
  obtain ⟨hn₂, hanswer₂, -⟩ := runLine_ok hready₁ ha₂
  have hmachine : (s.runLine l₁).next.machine = (executor.perform s.machine cs₁).1 := by rw [hn₁]
  rw [hmachine] at hn₂ hanswer₂
  obtain ⟨hnext, hverdict⟩ := perform_further l₁.length tokens₁.length
    (executor.perform s.machine cs₁).1 (({} : Cursor).read tokens₂).1
  refine ⟨?_, ?_, ?_⟩
  · rw [hn, hn₂]
    exact hnext
  · rw [pending, pending, hpending, hpending₂, hb, hb₂]
  · rw [hanswer, hanswer₂, hverdict]
    exact Verdict.before_map ..

/-- The second part fails at an operator where a term is missing. -/
theorem runLine_split_missing_term :
    let s := (start .off ({} : Sink)).after [.line "set x 'a b';"]
    let joined := s.runLine ("print x;" ++ "reverse x;print +;")
    let second := (s.runLine "print x;").next.runLine "reverse x;print +;"
    let place (d : Diagnostic) := (d.span, d.context.map (·.position))
    joined.next.machine.symbols = second.next.machine.symbols ∧
      second.answer.map place = .refused (⟨16, 17⟩, some 4) ∧
      joined.answer.map place = .refused (⟨24, 25⟩, some 7) := by
  intro s joined second place
  have hpending : s.pending = false := by decide +kernel
  have hfirst : (s.runLine "print x;").answer = .accepted := by decide +kernel
  have hsecond : second.answer.map place = .refused (⟨16, 17⟩, some 4) := by decide +kernel
  have hjoined : joined.answer.map place = .refused (⟨24, 25⟩, some 7) := by decide +kernel
  have h₁ : Batch.Whole "print x;" [⟨.keyword, "print", ⟨0, 5⟩⟩, ⟨.name, "x", ⟨6, 7⟩⟩,
      ⟨.terminator, ";", ⟨7, 8⟩⟩] := ⟨by decide +kernel, by decide +kernel⟩
  have h₂ : Batch.Whole "reverse x;print +;" [⟨.keyword, "reverse", ⟨0, 7⟩⟩, ⟨.name, "x", ⟨8, 9⟩⟩,
      ⟨.terminator, ";", ⟨9, 10⟩⟩, ⟨.keyword, "print", ⟨10, 15⟩⟩, ⟨.operator, "+", ⟨16, 17⟩⟩,
      ⟨.terminator, ";", ⟨17, 18⟩⟩] := ⟨by decide +kernel, by decide +kernel⟩
  obtain ⟨hm, -, -⟩ := runLine_split .off ({} : Sink) [.line "set x 'a b';"] "print x;"
    "reverse x;print +;" _ _ hpending h₁ h₂ hfirst
  have hsymbols : joined.next.machine.symbols = second.next.machine.symbols := by rw [hm]
  exact ⟨hsymbols, hsecond, hjoined⟩

end Session
end StringProcessor
