import StringProcessor.Proofs.Parser.Failure
import StringProcessor.Proofs.Scan.Move

/-! Statements elsewhere. What is read from tokens does not depend on where in the source they stand, nor
on the tokens in front of their statements: further on they give the same commands and the same fault,
moved. -/
namespace StringProcessor

def Term.move (f : Nat → Nat) : Term → Term
  | .literal text span => .literal text (span.move f)
  | .symbol name span => .symbol name (span.move f)

def Action.move (f : Nat → Nat) : Action → Action
  | .append target value => .append target (value.map (Term.move f))
  | .set target value => .set target (value.map (Term.move f))
  | .reverse target => .reverse target
  | .print aspect value => .print aspect (value.map (Term.move f))
  | .list => .list
  | .exit => .exit

def Command.move (f : Nat → Nat) (c : Command) : Command := ⟨c.action.move f, c.span.move f⟩

/-- The diagnostic about what comes so many characters and tokens later. -/
def Diagnostic.further (characters tokens : Nat) (d : Diagnostic) : Diagnostic :=
  { d.move (characters + ·) with
    context := d.context.map fun c => { c with position := tokens + c.position } }

private theorem Term.ofToken?_move (f : Nat → Nat) (t : Token) :
    Term.ofToken? (t.move f) = (Term.ofToken? t).map (Term.move f) := by
  obtain ⟨kind, text, span⟩ := t
  cases kind <;> rfl

@[simp] theorem Action.keyword_move (f : Nat → Nat) (action : Action) :
    (action.move f).keyword = action.keyword := by
  cases action <;> rfl

namespace Statement
variable (f : Nat → Nat)

def Stage.move : Stage → Stage
  | .target what => .target what
  | .term head terms => .term head (terms.map (Term.move f))
  | .joint head terms last => .joint head (terms.map (Term.move f)) (last.move f)
  | .closing action => .closing (action.move f)

def Phase.move : Phase → Phase
  | .between => .between
  | .inside start stage => .inside (f start) (stage.move f)

def Step.move : Step → Step
  | .advance phase => .advance (phase.move f)
  | .complete command => .complete (command.move f)
  | .reject => .reject

@[simp] theorem Stage.keyword_move (stage : Stage) : (stage.move f).keyword = stage.keyword := by
  cases stage with
  | closing action => exact action.keyword_move f
  | _ => rfl

@[simp] theorem Phase.state_move (phase : Phase) : (phase.move f).state = phase.state := by
  cases phase with
  | between => rfl
  | inside start stage => exact congrArg State.command (stage.keyword_move f)

private theorem Stage.ofKeyword_move (k : Keyword) : (Stage.ofKeyword k).move f = .ofKeyword k := by
  cases k <;> rfl

private theorem Stage.ofTarget_move (name : String) (what : Change) :
    (Stage.ofTarget name what).move f = .ofTarget name what := by
  cases what <;> rfl

private theorem Head.action_move (value : Expression) (head : Head) :
    (head.action value).move f = head.action (value.map (Term.move f)) := by
  cases head <;> rfl

private theorem Stage.step_move (start : Nat) (t : Token) (stage : Stage) :
    (stage.move f).step (f start) (t.move f) = (stage.step start t).move f := by
  have hkind : (t.move f).kind = t.kind := rfl
  cases stage with
  | target what =>
    simp only [move, step, hkind]
    cases t.kind with
    | name => exact congrArg (fun s => Step.advance (.inside (f start) s)) (ofTarget_move f _ what).symm
    | _ => rfl
  | term head terms =>
    simp only [move, step, Term.ofToken?_move]
    cases Term.ofToken? t <;> rfl
  | joint head terms last =>
    simp only [move, step, hkind]
    cases t.kind with
    | terminator =>
      rw [← List.map_reverse, ← Head.action_move]
      rfl
    | _ => rfl
  | closing action =>
    simp only [move, step, hkind]
    cases t.kind <;> rfl

/-- A token is read in the same way, wherever it stands. -/
private theorem Phase.step_move (t : Token) (phase : Phase) :
    (phase.move f).step (t.move f) = (phase.step t).move f := by
  cases phase with
  | between =>
    have hk : (t.move f).keyword? = t.keyword? := rfl
    simp only [move, step, hk]
    cases t.keyword? with
    | none => rfl
    | some k => exact congrArg (fun s => Step.advance (.inside _ s)) (Stage.ofKeyword_move f k).symm
  | inside start stage => exact stage.step_move f start t

private theorem Phase.complaint_move (next : Option Token) (phase : Phase) :
    (phase.move f).complaint (next.map (Token.move f)) = phase.complaint next := by
  cases phase with
  | between => cases next <;> rfl
  | inside start stage => cases stage <;> cases next <;> rfl

private theorem Phase.advice_move (phase : Phase) : (phase.move f).advice = phase.advice := by
  cases phase with
  | between => rfl
  | inside start stage => simp only [move, advice, Stage.keyword_move]

end Statement

namespace Parser.Cursor
open Statement

/-- The second cursor is where the first one is, so many characters and tokens further on. What is in
front of a statement is left open. -/
structure Further (characters tokens : Nat) (c c' : Cursor) : Prop where
  position : c'.position = tokens + c.position
  phase : c'.phase = c.phase.move (characters + ·)
  before : c.phase ≠ .between → ∃ t, c.before = some t ∧ c'.before = some (t.move (characters + ·))

namespace Further
variable {characters tokens : Nat} {c c' : Cursor}

theorem pass (h : Further characters tokens c c') (t : Token) (phase : Phase) :
    Further characters tokens (c.pass t phase)
      (c'.pass (t.move (characters + ·)) (phase.move (characters + ·))) :=
  ⟨by rw [position_pass, position_pass, h.position, Nat.add_assoc], rfl, fun _ => ⟨t, rfl, rfl⟩⟩

theorem step (h : Further characters tokens c c') (t : Token) :
    c'.phase.step (t.move (characters + ·)) = (c.phase.step t).move (characters + ·) := by
  rw [h.phase, Phase.step_move]

theorem stuck (h : Further characters tokens c c') {ts : List Token} (hs : c.Stuck ts) :
    c'.Stuck (ts.map (Token.move (characters + ·))) := by
  cases hs with
  | atEnd hp =>
    refine .atEnd ?_
    rw [h.phase]
    cases hc : c.phase with
    | between => exact absurd hc hp
    | inside start stage => nofun
  | rejected hs =>
    refine .rejected ?_
    rw [h.step, hs]
    rfl

/-- Where the one is stuck, the other has the same fault, further on. -/
theorem fault (h : Further characters tokens c c') {ts : List Token} (hs : c.Stuck ts) :
    c'.fault (ts.map (Token.move (characters + ·))) = (c.fault ts).further characters tokens := by
  have hspan : Gap.span ⟨c'.position, c'.before, ts.map (Token.move (characters + ·))⟩ =
      (Gap.span ⟨c.position, c.before, ts⟩).move (characters + ·) := by
    cases hs with
    | atEnd hp =>
      obtain ⟨t, hb, hb'⟩ := h.before hp
      rw [hb, hb']
      rfl
    | rejected => rfl
  rw [Cursor.fault, Cursor.fault, Phase.fault, Phase.fault, hspan, h.phase, h.position, List.head?_map,
    Phase.complaint_move, Phase.state_move, Phase.advice_move]
  rfl

/-- Further on the same tokens give the same commands and the same fault. -/
theorem read (h : Further characters tokens c c') (ts : List Token) :
    c'.read (ts.map (Token.move (characters + ·))) =
      ((c.read ts).1.map (Command.move (characters + ·)),
        (c.read ts).2.map (Diagnostic.further characters tokens)) := by
  induction ts generalizing c c' with
  | nil =>
    cases hp : c.phase with
    | between => simp [Cursor.read, hp, h.phase, Phase.move]
    | inside start stage =>
      have hs : c.Stuck [] := .atEnd (by simp [hp])
      rw [(h.stuck hs).read, hs.read, h.fault hs]
      rfl
  | cons t ts ih =>
    have hstep := h.step t
    cases ht : c.phase.step t with
    | reject =>
      have hs : c.Stuck (t :: ts) := .rejected ht
      rw [(h.stuck hs).read, hs.read, h.fault hs]
      rfl
    | advance phase =>
      rw [ht] at hstep
      simp only [List.map_cons, Cursor.read, ht, hstep, Step.move]
      exact ih (h.pass t phase)
    | complete command =>
      rw [ht] at hstep
      have hlater := ih (h.pass t .between)
      simp only [Phase.move] at hlater
      simp only [List.map_cons, Cursor.read, ht, hstep, Step.move, hlater]

end Further
end Parser.Cursor
end StringProcessor
