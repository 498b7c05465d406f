import StringProcessor.Proofs.Machine.Step
import StringProcessor.Proofs.Parser.Move

/-! Commands elsewhere. Where a command stands in the source shows in nothing but the place of its
fault. -/
namespace StringProcessor.Machine

def Unresolved.move (f : Nat → Nat) (u : Unresolved) : Unresolved := { u with span := u.span.move f }

def Fault.move (f : Nat → Nat) : Fault → Fault
  | .unresolved u => .unresolved (u.move f)
  | fault => fault

private theorem Fault.diagnostic_move (f : Nat → Nat) (span : Span) (fault : Fault) :
    (fault.move f).diagnostic (span.move f) = (fault.diagnostic span).move f := by
  cases fault <;> rfl

section
variable (f : Nat → Nat) (symbols : SymbolTable)

private theorem valueOf_move (t : Term) :
    valueOf symbols (t.move f) = (valueOf symbols t).mapError (Unresolved.move f) := by
  cases t with
  | literal text span => rfl
  | symbol name span =>
    simp only [Term.move, valueOf]
    cases symbols.find? name <;> rfl

private theorem evaluate_move (e : Expression) :
    evaluate symbols (e.map (Term.move f)) = (evaluate symbols e).mapError (Unresolved.move f) := by
  induction e with
  | nil => rfl
  | cons t e ih =>
    rw [List.map_cons, evaluate_cons, evaluate_cons, valueOf_move, ih]
    cases valueOf symbols t with
    | error u => rfl
    | ok text => cases evaluate symbols e <;> rfl

private theorem argument_move (e : Expression) :
    argument symbols (e.map (Term.move f)) = (argument symbols e).mapError (Fault.move f) := by
  rw [argument, argument, evaluate_move]
  cases evaluate symbols e <;> rfl

private theorem effect_move (action : Action) :
    effect symbols (action.move f) = (effect symbols action).mapError (Fault.move f) := by
  have hargument (e : Expression) (g : String → Effect) :
      (argument symbols (e.map (Term.move f))).map g =
        ((argument symbols e).map g).mapError (Fault.move f) := by
    rw [argument_move]
    cases argument symbols e <;> rfl
  cases action with
  | append target e =>
    simp only [Action.move, effect]
    cases symbols.find? target with
    | none => rfl
    | some s => exact hargument e _
  | set target e | print aspect e => exact hargument e _
  | reverse target =>
    simp only [Action.move, effect]
    cases symbols.find? target <;> rfl
  | list | exit => rfl

end

variable {σ ε : Type} [Output σ ε]

/-- No term is to blame any more when an effect is applied. -/
private theorem apply_move (f : Nat → Nat) (m : Machine σ) (effect : Effect) :
    (m.apply effect).2.map (Fault.move f) = (m.apply effect).2 := by
  cases effect with
  | store name value =>
    rw [apply]
    split <;> rfl
  | emit lines =>
    rw [apply, emit, Verdict.map_map]
    rfl
  | stop => rfl

/-- Elsewhere a command does the same, and what it is refused for is elsewhere. -/
theorem execute_move (f : Nat → Nat) (m : Machine σ) (c : Command) :
    (m.execute (c.move f)).next = (m.execute c).next ∧
      (m.execute (c.move f)).answer = (m.execute c).answer.map (Diagnostic.move f) := by
  simp only [execute, Command.move, effect_move]
  cases effect m.symbols c.action with
  | error fault => exact ⟨rfl, congrArg Verdict.refused (fault.diagnostic_move f c.span)⟩
  | ok effect =>
    refine ⟨rfl, ?_⟩
    have ha := apply_move f m effect
    have hok : (Except.ok effect).mapError (Fault.move f) = .ok effect := rfl
    simp only [hok]
    calc (m.apply effect).2.map (Fault.diagnostic (c.span.move f))
        = ((m.apply effect).2.map (Fault.move f)).map (Fault.diagnostic (c.span.move f)) := by rw [ha]
      _ = ((m.apply effect).2.map (Fault.diagnostic c.span)).map (Diagnostic.move f) := by
        simp only [Verdict.map_map, Fault.diagnostic_move]

/-- So much further on a command is refused for what it is refused for here, so much further on. -/
theorem execute_further (characters tokens : Nat) (m : Machine σ) (c : Command) :
    (m.execute (c.move (characters + ·))).answer =
      (m.execute c).answer.map (Diagnostic.further characters tokens) := by
  rw [(execute_move _ m c).2]
  cases h : (m.execute c).answer with
  | accepted | abandoned reason => rfl
  | refused d =>
    have hd : d.further characters tokens = d.move (characters + ·) := by
      simp [Diagnostic.further, Diagnostic.move, execute_context h]
    exact congrArg Verdict.refused hd.symm

end StringProcessor.Machine
