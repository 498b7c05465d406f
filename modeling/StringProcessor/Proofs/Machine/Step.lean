import StringProcessor.Proofs.Machine.Blame
import StringProcessor.Proofs.Sink
import StringProcessor.Proofs.SymbolTable

/-! Steps of the machine. What a command does to the machine is written down once, and all that commands
leave alone follows from it. -/
namespace StringProcessor.Machine

section
variable {σ ε : Type} [Output σ ε]

section
variable {m : Machine σ} {c : Command}

theorem execute_impossible {fault : Fault} (h : effect m.symbols c.action = .error fault) :
    (m.execute c).next = m ∧ (m.execute c).answer = .refused (fault.diagnostic c.span) := by
  rw [execute, h]
  exact ⟨rfl, rfl⟩

theorem execute_constant {name value : String} (h : effect m.symbols c.action = .ok (.store name value))
    (hr : (m.symbols.find? name).any (·.readonly)) :
    (m.execute c).next = m ∧
      (m.execute c).answer = .refused ((Fault.constant name).diagnostic c.span) := by
  have hs : m.symbols.set name value = .error (.readOnly name) := if_pos hr
  simp [execute, h, apply, hs, Verdict.map]

theorem execute_store {name value : String} (h : effect m.symbols c.action = .ok (.store name value))
    (hr : ¬ (m.symbols.find? name).any (·.readonly)) :
    (m.execute c).next = { m with symbols := m.symbols.define ⟨name, value, false⟩ } ∧
      (m.execute c).answer = .accepted := by
  have hs : m.symbols.set name value = .ok (m.symbols.define ⟨name, value, false⟩) := if_neg hr
  simp [execute, h, apply, hs, Verdict.map]

theorem execute_emit {lines : List String} (h : effect m.symbols c.action = .ok (.emit lines)) :
    (m.execute c).next = (m.emit lines).1 ∧
      (m.execute c).answer = (m.emit lines).2.map (Fault.diagnostic c.span) := by
  rw [execute, h]
  exact ⟨rfl, rfl⟩

/-- It is its effect that an action is carried out for. -/
theorem execute_congr {action action' : Action}
    (h : effect m.symbols action = effect m.symbols action') (span : Span) :
    (m.execute ⟨action, span⟩).answer = (m.execute ⟨action', span⟩).answer ∧
      (m.execute ⟨action, span⟩).next = (m.execute ⟨action', span⟩).next := by
  simp only [execute, h]
  cases effect m.symbols action' <;> exact ⟨rfl, rfl⟩

end

/-- What an action does to a machine: the next machine, and the verdict. -/
inductive Performs (m : Machine σ) (action : Action) : Machine σ → Verdict ε Fault → Prop
  | impossible {fault : Fault} : effect m.symbols action = .error fault →
      Performs m action m (.refused fault)
  | constant {name value : String} {fault : SymbolFault} :
      effect m.symbols action = .ok (.store name value) →
      m.symbols.set name value = .error fault → Performs m action m (.refused (.constant name))
  | stored {name value : String} {symbols : SymbolTable} :
      effect m.symbols action = .ok (.store name value) →
      m.symbols.set name value = .ok symbols → Performs m action { m with symbols } .accepted
  | written {lines : List String} : effect m.symbols action = .ok (.emit lines) →
      Performs m action (m.emit lines).1 (m.emit lines).2
  | stopped : effect m.symbols action = .ok .stop →
      Performs m action { m with running := false } .accepted

/-- A command does what its action does, and puts the fault into words. -/
theorem execute_performs (m : Machine σ) (c : Command) :
    ∃ verdict, Performs m c.action (m.execute c).next verdict ∧
      (m.execute c).answer = verdict.map (Fault.diagnostic c.span) := by
  unfold execute
  cases he : effect m.symbols c.action with
  | error fault => exact ⟨.refused fault, .impossible he, rfl⟩
  | ok effect =>
    refine ⟨(m.apply effect).2, ?_, rfl⟩
    cases effect with
    | store name value =>
      simp only [apply]
      cases hs : m.symbols.set name value with
      | ok symbols => exact .stored he hs
      | error fault => exact .constant he hs
    | emit lines => exact .written he
    | stop => exact .stopped he

namespace Performs
variable {m next : Machine σ} {action : Action}

/-- The symbols stay the same, unless the target of the action is given a value. -/
theorem symbols {verdict : Verdict ε Fault} (h : Performs m action next verdict) :
    next.symbols = m.symbols ∨ ∃ name value, action.target? = some name ∧
      Stored name value m.symbols.symbols next.symbols.symbols := by
  cases h with
  | stored he hs => exact .inr ⟨_, _, effect_target he, SymbolTable.set_stored hs⟩
  | _ => exact .inl rfl

/-- An action that is carried out gives its target a value, and without a target it keeps the symbols. -/
theorem done (h : Performs m action next .accepted) :
    (∀ name, action.target? = some name →
      ∃ value, Stored name value m.symbols.symbols next.symbols.symbols) ∧
    (action.target? = none → next.symbols = m.symbols) := by
  generalize hv : Verdict.accepted = verdict at h
  cases h with
  | impossible | constant => cases hv
  | stored he hs =>
    rw [effect_target he]
    refine ⟨?_, fun hn => (nomatch hn)⟩
    rintro _ ⟨⟩
    exact ⟨_, SymbolTable.set_stored hs⟩
  | written he | stopped he =>
    rw [effect_target he]
    exact ⟨fun _ hn => (nomatch hn), fun _ => rfl⟩

/-- An action that is not carried out leaves all but the output as it is, and the output too unless it
is what fails. -/
theorem failed {fault : Fault} (h : Performs m action next (.refused fault)) :
    next.symbols = m.symbols ∧ next.running = m.running ∧
      ((∀ cause, fault ≠ .output cause) → next.sink = m.sink) := by
  generalize hf : Verdict.refused fault = verdict at h
  cases h with
  | impossible | constant => exact ⟨rfl, rfl, fun _ => rfl⟩
  | stored | stopped => cases hf
  | written =>
    refine ⟨rfl, rfl, fun hn => ?_⟩
    obtain ⟨cause, -, rfl⟩ := Verdict.map_refused.mp hf.symm
    exact absurd rfl (hn cause)

/-- Only an exit ends a machine, and it is never refused. -/
theorem running {verdict : Verdict ε Fault} (h : Performs m action next verdict) :
    next.running ↔ m.running ∧ action ≠ .exit := by
  have hexit : effect m.symbols .exit = .ok .stop := rfl
  cases h with
  | impossible he | constant he | stored he | written he =>
    have hne : action ≠ .exit := fun ha => by
      rw [ha, hexit] at he
      cases he
    simp [hne, emit]
  | stopped he =>
    cases effect_ok he
    simp

/-- The fault of an action is to blame. -/
theorem blames {fault : Fault} (h : Performs m action next (.refused fault)) : Blames m action fault := by
  generalize hf : Verdict.refused fault = verdict at h
  cases h with
  | impossible he =>
    cases hf
    exact effect_error he
  | constant he hs =>
    cases hf
    obtain ⟨s, hfind, hr⟩ := SymbolTable.set_refused hs
    exact .constant (effect_target he) hfind hr
  | stored | stopped => cases hf
  | written he =>
    obtain ⟨cause, -, rfl⟩ := Verdict.map_refused.mp hf.symm
    exact .output he hf.symm

/-- Only writing lines makes the output fail. -/
theorem output_failed {cause : String} (h : Performs m action next (.refused (.output cause))) :
    ∃ lines, effect m.symbols action = .ok (.emit lines) ∧ next = (m.emit lines).1 ∧
      (m.emit lines).2 = .refused (.output cause) := by
  generalize hf : Verdict.refused (Fault.output cause) = verdict at h
  cases h with
  | impossible he =>
    cases hf
    cases effect_error he with
    | output he' => simp [he] at he'
  | constant | stored | stopped => cases hf
  | written he => exact ⟨_, he, rfl, rfl⟩

end Performs

theorem execute_level (m : Machine σ) (c : Command) : (m.execute c).next.level = m.level := by
  obtain ⟨_, hp, -⟩ := execute_performs m c
  generalize (m.execute c).next = next at hp
  cases hp <;> rfl

theorem execute_running (m : Machine σ) (c : Command) :
    (m.execute c).next.running ↔ m.running ∧ c.action ≠ .exit := by
  obtain ⟨_, hp, -⟩ := execute_performs m c
  exact hp.running

/-- A command that is refused is refused for a reason, which is put into words for its span. -/
theorem execute_error {m : Machine σ} {c : Command} {d : Diagnostic}
    (h : (m.execute c).answer = .refused d) :
    ∃ fault, Blames m c.action fault ∧ d = fault.diagnostic c.span := by
  obtain ⟨verdict, hp, ha⟩ := execute_performs m c
  obtain ⟨fault, rfl, hd⟩ := Verdict.map_refused.mp (ha.symm.trans h)
  exact ⟨fault, hp.blames, hd.symm⟩

/-- The refusal of a command says nothing about tokens. -/
theorem execute_context {m : Machine σ} {c : Command} {d : Diagnostic}
    (h : (m.execute c).answer = .refused d) : d.context = none := by
  obtain ⟨fault, -, rfl⟩ := execute_error h
  cases fault <;> rfl

/-- A command that is refused changes at most the output. -/
theorem execute_refused {m : Machine σ} {c : Command} {d : Diagnostic}
    (h : (m.execute c).answer = .refused d) :
    (m.execute c).next.symbols = m.symbols ∧ (m.execute c).next.running = m.running := by
  obtain ⟨verdict, hp, ha⟩ := execute_performs m c
  obtain ⟨fault, rfl, -⟩ := Verdict.map_refused.mp (ha.symm.trans h)
  exact ⟨hp.failed.1, hp.failed.2.1⟩

end
end StringProcessor.Machine
