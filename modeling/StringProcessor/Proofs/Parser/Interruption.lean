import Mathlib.Data.List.Induction
import StringProcessor.Proofs.Batch.Outcome
import StringProcessor.Proofs.Machine.Step
import StringProcessor.Proofs.Session.Origin

/-! Calls one after the other on one parser. A receiver may abandon its call, which leaves the parser in
the middle of a statement. The next call is refused for that, and the one after it goes as on a new
parser, whatever tokens are still there. Sessions abandon a line only if their output does. -/
namespace StringProcessor

/-- Whatever is written to the place, it answers. -/
def Output.Answers (σ : Type) {ε : Type} [Output σ ε] : Prop :=
  ∀ (s : σ) (bytes : List UInt8) (reason : ε), (Output.write s bytes).2 ≠ .abandoned reason

namespace Parser
open Grammar Statement

/-- A list of tokens, and a receiver in some state for the commands in them. -/
structure Call (ι : Type := Nat) where
  {σ ε : Type}
  execute : Executor σ ε ι
  state : σ
  tokens : List (Token ι)

variable {ι : Type}

private theorem state_of_complete {phase : Phase ι} {t : Token ι} {c : Command ι}
    (h : phase.step t = .complete c) : phase.state = .command c.keyword := by
  cases phase with
  | between =>
    simp only [Phase.step] at h
    split at h <;> cases h
  | inside start stage =>
    have hk : c.keyword = stage.keyword := by
      cases stage with
      | target what | term head terms =>
        simp only [Phase.step, Stage.step] at h
        split at h <;> cases h
      | joint head terms last =>
        simp only [Phase.step, Stage.step] at h
        split at h <;> cases h
        cases head <;> rfl
      | closing action =>
        simp only [Phase.step, Stage.step] at h
        split at h <;> cases h
        rfl
    rw [Phase.state, hk]

variable [Add ι] [OfNat ι 0] [OfNat ι 1] [ToString ι]

namespace Call
variable (call : Call ι) (p : Parser ι)

def on : Turn (Parser ι × call.σ) (Verdict call.ε (Diagnostic ι)) :=
  p.parse call.execute call.state call.tokens

def handed : List (Command ι) :=
  (p.parse call.execute.recording (call.state, []) call.tokens).next.2.2.reverse

/-- The receiver abandons the call at this command. The position is behind its statement, the last of
those that have been read. -/
inductive Abandoned (c : Command ι) (position : Nat) : Prop
  | intro {whole rest statement : List (Token ι)} {cut : List (List (Token ι) × Command ι)}
      {reason : call.ε} : (call.on p).answer = .abandoned reason → call.tokens = whole ++ rest →
      Cut whole (cut ++ [(statement, c)]) → call.handed p = cut.map Prod.snd ++ [c] →
      whole.length = position → Abandoned c position

/-- The call is refused because the one before it was abandoned at a statement with this keyword, behind
which the position is. Nothing is handed over, and what has been left in the parser stays there. -/
structure Refused (k : Keyword) (position : Nat) : Prop where
  handed : call.handed p = []
  kept : (call.on p).next = ({ p with state := .ready }, call.state)
  answer : ∃ d, (call.on p).answer = .refused d ∧ d.kind = .malformedStatement ∧
    d.span = .single 0 ∧ d.context = some ⟨"command(" ++ k.word ++ ")", some k.word, position⟩

end Call

def afterCalls (level : Level) (calls : List (Call ι)) : Parser ι :=
  calls.foldl (fun p call => (call.on p).next.1) { level }

private theorem afterCalls_concat (level : Level) (calls : List (Call ι)) (call : Call ι) :
    afterCalls level (calls ++ [call]) = (call.on (afterCalls level calls)).next.1 := by
  simp [afterCalls]

section
variable {σ ε : Type}

/-- A call is abandoned where a statement ends: the commands in front of it have been accepted, and the
keyword and the position behind it are kept. -/
private theorem Progress.read_abandoned {execute : Executor σ ε ι} {reason : ε} {p : Progress σ ι}
    {rest : List (Token ι)} (hstate : p.parser.state = p.phase.state)
    (h : (read execute p rest).answer = .abandoned reason) :
    ∃ front t behind cs cursor c s, rest = front ++ t :: behind ∧
      Cursor.Reaches p.cursor front cs cursor ∧ cursor.phase.step t = .complete c ∧
      execute.Accepts p.state cs s ∧ (execute s c).answer = .abandoned reason ∧
      (read execute p rest).next.1 =
        { p.parser with state := .command c.keyword, current := cursor.position + 1 } := by
  induction rest generalizing p with
  | nil =>
    cases hp : p.phase with
    | between => simp [read, hp, stop] at h
    | inside start stage => simp [read, hp, fail, stop] at h
  | cons t rest ih =>
    cases hs : p.phase.step t with
    | reject => simp [read, hs, fail, stop] at h
    | advance phase =>
      simp only [read, hs] at h ⊢
      obtain ⟨hcursor, hsame, hparser⟩ := arrive_eq ((p.advance t).enter phase)
      have hphase : ((p.advance t).enter phase).arrive.phase = phase :=
        congrArg Cursor.phase hcursor
      obtain ⟨front, t', behind, cs, cursor, c, s, rfl, hr, hc, ha, hd, hn⟩ :=
        ih (by rw [hparser, hphase]; rfl) h
      rw [hcursor] at hr
      rw [hsame] at ha
      rw [hparser] at hn
      exact ⟨t :: front, t', behind, cs, cursor, c, s, rfl, .advance hs hr, hc, ha, hd, hn⟩
    | complete command =>
      obtain ⟨hcursor, hsame, hparser⟩ := depart_eq p
      have hsame' : (p.depart.advance t).state = p.state := hsame
      simp only [read, hs, hsame'] at h ⊢
      cases hv : (execute p.state command).answer with
      | accepted =>
        simp only [hv] at h ⊢
        obtain ⟨front, t', behind, cs, cursor, c, s, rfl, hr, hc, ha, hd, hn⟩ := ih rfl h
        have hpassed : Cursor.Reaches (p.cursor.pass t .between) front cs cursor := by
          rw [← hcursor]
          exact hr
        refine ⟨t :: front, t', behind, command :: cs, cursor, c, s, rfl, .complete hs hpassed, hc,
          .cons hv ha, hd, ?_⟩
        rw [← hparser]
        exact hn
      | refused d => simp [hv, stop] at h
      | abandoned reason' =>
        simp only [hv] at h ⊢
        cases h
        refine ⟨[], t, rest, [], p.cursor, command, p.state, rfl, .here, hs, .nil, hv, ?_⟩
        rw [← state_of_complete hs, ← hstate, ← hparser, ← hcursor]
        rfl

end

namespace Call
variable {call : Call ι} {p : Parser ι}

private theorem handed_ready (hp : p.state = .ready) :
    call.handed p = call.execute.handed call.state (({} : Cursor ι).read call.tokens).1 :=
  parse_recording hp call.execute call.state call.tokens

/-- A call that is abandoned leaves the tokens and the position behind the statement. -/
private theorem abandoned_of_answer (hp : p.state = .ready) {reason : call.ε}
    (h : (call.on p).answer = .abandoned reason) :
    ∃ c n, call.Abandoned p c n ∧ (call.on p).next.1 = ⟨p.level, .command c.keyword, call.tokens, n⟩ := by
  have hread := h
  simp only [on, parse, hp, List.drop_zero] at hread ⊢
  obtain ⟨front, t, behind, cs, cursor, c, s, ht, hr, hc, ha, hd, hn⟩ :=
    Progress.read_abandoned rfl hread
  obtain ⟨cut, hreached, hcs⟩ := hr.reached (.between .nil)
  obtain ⟨statement, hwhole⟩ := hreached.complete hc
  have hcut := reached_between_iff.mp hwhole
  rw [List.nil_append, List.nil_append] at hcut
  have hposition : (front ++ [t]).length = cursor.position + 1 := by
    rw [hr.position]
    simp [Progress.cursor]
  have hhanded : call.handed p = cut.map Prod.snd ++ [c] := by
    have hfound := hr.read (t :: behind)
    rw [← ht] at hfound
    have hcommands : (({} : Cursor ι).read call.tokens).1 = cs ++ (cursor.read (t :: behind)).1 :=
      congrArg Prod.fst hfound
    rw [handed_ready hp, hcommands, ha.handed, hcs]
    simp [Cursor.read, hc, Executor.handed, hd]
  have hsplit : call.tokens = (front ++ [t]) ++ behind := by simp [ht]
  exact ⟨c, cursor.position + 1, .intro h hsplit hcut hhanded hposition, hn⟩

/-- The command at which a call is abandoned is the last that is handed over. -/
theorem Abandoned.unique {c c' : Command ι} {n n' : Nat} (h : call.Abandoned p c n)
    (h' : call.Abandoned p c' n') : c = c' := by
  obtain ⟨-, -, -, hh, -⟩ := h
  obtain ⟨-, -, -, hh', -⟩ := h'
  rw [hh] at hh'
  exact (List.append_singleton_inj.mp hh').2

/-- A call on a ready parser is abandoned, or the parser is ready again. -/
private theorem on_ready (call : Call ι) (hp : p.state = .ready) :
    (∃ c n, call.Abandoned p c n ∧ (call.on p).next.1 = ⟨p.level, .command c.keyword, call.tokens, n⟩) ∨
      (∀ c n, ¬ call.Abandoned p c n) ∧ (call.on p).next.1 = p.reset := by
  obtain ⟨-, ha, hr⟩ := parse_ready hp call.execute call.state call.tokens
  cases hv : (call.on p).answer with
  | abandoned reason => exact .inl (abandoned_of_answer hp hv)
  | accepted | refused d =>
    refine .inr ⟨?_, ?_⟩
    · rintro c n ⟨hreason, -⟩
      simp [hv] at hreason
    · rcases hr with ⟨reason, hreason⟩ | hr
      · exact absurd (hv.symm.trans hreason) (by simp)
      · exact hr

/-- A parser that an abandoned call has left refuses the next one. -/
private theorem refused_on_command {k : Keyword} (hp : p.state = .command k) :
    call.Refused p k p.current := by
  have hhanded : call.handed p = [] := by simp [handed, parse, hp]
  have hbusy : p.state ≠ .ready := by simp [hp]
  obtain ⟨hnext, hanswer⟩ := parse_busy hbusy call.execute call.state call.tokens
  refine ⟨hhanded, hnext, p.notReady, hanswer, rfl, rfl, ?_⟩
  simp [notReady, Diagnostic.malformedStatement, hp, State.label, State.keyword?]

end Call

/-- A call leaves a parser in a statement exactly if it has found it ready and has been abandoned there. -/
private theorem Call.on_command_iff {call : Call ι} {p : Parser ι}
    (hp : p.state = .ready ∨ ∃ k, p.state = .command k) (k : Keyword) :
    (call.on p).next.1.state = .command k ↔
      p.state = .ready ∧ ∃ c n, call.Abandoned p c n ∧ c.keyword = k := by
  rcases hp with hready | ⟨k', hk'⟩
  · rw [and_iff_right hready]
    obtain ⟨c, n, ha, hn⟩ | ⟨hnone, hn⟩ := Call.on_ready call hready
    · rw [hn]
      constructor
      · intro he
        exact ⟨c, n, ha, State.command.inj he⟩
      · rintro ⟨c', n', ha', rfl⟩
        rw [ha.unique ha']
    · rw [hn]
      refine iff_of_false (fun he => (nomatch he)) ?_
      rintro ⟨c, n, ha, -⟩
      exact hnone c n ha
  · rw [(Call.refused_on_command hk').kept, hk']
    exact iff_of_false (fun he => (nomatch he)) fun he => (nomatch he.1)

/-- A call on a ready parser goes as on a new one. -/
private theorem on_eq_new {p : Parser ι} (hp : p.state = .ready) (call : Call ι) :
    call.on p = call.on { level := p.level } ∧ call.handed p = call.handed { level := p.level } := by
  simp only [Call.on, Call.handed, parse_congr hp (q := { level := p.level }) rfl rfl, and_self]

/-- Between calls a parser has the level of the new one, and is ready or in the middle of a statement. It is
in the middle of one right behind the call that was abandoned there, and there only. -/
private theorem afterCalls_cases (level : Level) (calls : List (Call ι)) :
    let p := afterCalls level calls
    p.level = level ∧ (p.state = .ready ∨
      ∃ front last c, calls = front ++ [last] ∧ (afterCalls level front).state = .ready ∧
        last.Abandoned (afterCalls level front) c p.current ∧ p.state = .command c.keyword) := by
  induction calls using List.reverseRecOn with
  | nil => exact ⟨rfl, .inl rfl⟩
  | append_singleton front last ih =>
    obtain ⟨hlevel, hready | ⟨-, -, c, -, -, -, hc⟩⟩ := ih
    · rw [afterCalls_concat]
      obtain ⟨c, n, ha, hn⟩ | ⟨-, hn⟩ := Call.on_ready last hready
      · rw [hn]
        exact ⟨hlevel, .inr ⟨front, last, c, rfl, hready, ha, rfl⟩⟩
      · rw [hn]
        exact ⟨hlevel, .inl rfl⟩
    · rw [afterCalls_concat, (Call.refused_on_command hc).kept]
      exact ⟨hlevel, .inl rfl⟩

end Parser

namespace Machine
variable {σ ε : Type} [Output σ ε]

private theorem writeAll_answers (h : Output.Answers σ) (s : σ) (pieces : List (List UInt8)) (reason : ε) :
    (Output.writeAll s pieces).2 ≠ .abandoned reason := by
  induction pieces generalizing s with
  | nil => simp [Output.writeAll]
  | cons piece pieces ih =>
    have hpiece := h s piece
    rw [Output.writeAll]
    generalize Output.write s piece = outcome at hpiece ⊢
    obtain ⟨next, verdict⟩ := outcome
    cases verdict with
    | accepted => exact ih next
    | refused cause => simp
    | abandoned reason' => exact absurd rfl (hpiece reason')

/-- A command is abandoned only by the output. -/
private theorem execute_answers (h : Output.Answers σ) (m : Machine σ) (c : Command) (reason : ε) :
    (m.execute c).answer ≠ .abandoned reason := by
  obtain ⟨verdict, hp, ha⟩ := execute_performs m c
  rw [ha, Ne, Verdict.map_abandoned]
  generalize (m.execute c).next = next at hp
  cases hp with
  | written =>
    rw [emit, Verdict.map_abandoned]
    exact writeAll_answers h _ _ reason
  | _ => simp

/-- So does every command of a list. -/
private theorem perform_answers (h : Output.Answers σ) (m : Machine σ) (cs : List Command) (reason : ε) :
    (Session.executor.perform m cs).2 ≠ .abandoned reason := by
  induction cs generalizing m with
  | nil => simp [Executor.perform]
  | cons c cs ih =>
    have hc : (Session.executor m c).answer ≠ .abandoned reason := execute_answers h m c reason
    rw [Executor.perform]
    split
    · exact ih _
    · exact hc

end Machine

namespace Session
open StringProcessor.Parser
variable {σ ε : Type} [Output σ ε]

/-- A session's own faults are none of a parser that is called in the middle of its work: they have no
context, or else they have advice. -/
private theorem handle_ne_notReady {s : Session σ} (hp : s.parser.state = .ready) (r : Request) (p : Parser) :
    (s.handle r).answer ≠ .refused p.notReady := by
  intro h
  generalize hd : p.notReady = d at h
  cases handle_origin h with
  | scan ha =>
    obtain ⟨position, c, rfl⟩ := Batch.feed_error ha
    cases congrArg Diagnostic.context hd
  | busy hbusy => exact hbusy hp
  | read => cases congrArg Diagnostic.help hd
  | execute _ he =>
    have hc := Machine.execute_context he
    rw [← hd] at hc
    cases hc
  | finish ha =>
    simp only [Batch.finish] at ha
    split at ha <;> cases ha
    cases congrArg Diagnostic.context hd

/-- A line is abandoned only by the output. -/
private theorem runLine_answers (h : Output.Answers σ) {s : Session σ} (hp : s.parser.state = .ready)
    (line : String) (reason : ε) : (s.runLine line).answer ≠ .abandoned reason := by
  cases ha : (s.batch.feed line).answer with
  | error d => simp [(runLine_error ha).2]
  | ok tokens =>
    obtain ⟨-, hanswer, -⟩ := runLine_ok hp ha
    have hperformed := Machine.perform_answers h s.machine (({} : Cursor).read tokens).1 reason
    rw [hanswer]
    cases hv : (executor.perform s.machine (({} : Cursor).read tokens).1).2 with
    | accepted => cases (({} : Cursor).read tokens).2 <;> simp [Verdict.before]
    | refused d => simp [Verdict.before]
    | abandoned reason' => simpa [Verdict.before, hv] using hperformed

/-- The parser of a session is ready between any two requests, unless a line has been abandoned. -/
private theorem after_cases (level : Level) (sink : σ) (requests : List Request) :
    ((start level sink).after requests).parser.state = .ready ∨
      ∃ front line later reason, requests = front ++ .line line :: later ∧
        ((start level sink).after front).parser.state = .ready ∧
        (((start level sink).after front).runLine line).answer = .abandoned reason := by
  induction requests using List.reverseRecOn with
  | nil => exact .inl rfl
  | append_singleton requests r ih =>
    rcases ih with hready | ⟨front, line, later, reason, rfl, hr, ha⟩
    · have hafter : (start level sink).after (requests ++ [r]) =
          (((start level sink).after requests).handle r).next := by simp [after]
      rw [hafter]
      cases r with
      | finish => exact .inl hready
      | line line =>
        cases ha : (((start level sink).after requests).batch.feed line).answer with
        | error d =>
          rw [handle, (runLine_error ha).1]
          exact .inl hready
        | ok tokens =>
          obtain ⟨-, -, ⟨reason, habandoned⟩ | hnext⟩ := runLine_ok hready ha
          · exact .inr ⟨requests, line, [], reason, rfl, hready, habandoned⟩
          · exact .inl hnext
    · exact .inr ⟨front, line, later ++ [r], reason, by simp, hr, ha⟩

end Session

namespace Parser
variable {ι : Type} [Add ι] [OfNat ι 0] [OfNat ι 1] [ToString ι]

/-- A place that takes so many pieces and then never answers again. -/
structure Fragile where
  left : Nat

instance : Output Fragile Unit where
  write s _ := if s.left = 0 then (s, .abandoned ()) else (⟨s.left - 1⟩, .accepted)

end Parser
end StringProcessor
