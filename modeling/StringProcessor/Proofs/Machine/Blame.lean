import StringProcessor.Proofs.Machine.Evaluation

/-! Faults of commands. A command that cannot be carried out names what is to blame: a term or a target
without a value, a constant that is to be changed, or the output. Of several things that are missing the
first one to be looked at is named. -/
namespace StringProcessor.Machine

/-- The action builds upon a symbol that is not there. -/
def Baseless (symbols : SymbolTable) (action : Action) : Prop :=
  ∃ name, action.base? = some name ∧ ¬ symbols.contains name

/-- A term of the action stands for a symbol that is not there. -/
def Incomplete (symbols : SymbolTable) (action : Action) : Prop :=
  ∃ e, action.value? = some e ∧ ∃ t ∈ e, t.unknown symbols

/-- The action would change a constant. -/
def Forbidden (symbols : SymbolTable) (action : Action) : Prop :=
  ∃ name s, action.target? = some name ∧ symbols.find? name = some s ∧ s.readonly

/-- The reason for which an action is refused, if there is one. A reason counts where none of those
above it holds. -/
inductive Meets (symbols : SymbolTable) : Action → Option Fault → Prop
  | append {target : String} {e : Expression} : symbols.find? target = none →
      Meets symbols (.append target e) (some (.nothingToAppendTo target))
  | reverse {target : String} : symbols.find? target = none →
      Meets symbols (.reverse target) (some (.nothingToReverse target))
  | term {action : Action} {e : Expression} {name : String} {span : Span} :
      ¬ Baseless symbols action → action.value? = some e →
      e.find? (·.unknown symbols) = some (.symbol name span) →
      Meets symbols action (some (.unresolved ⟨name, span⟩))
  | constant {action : Action} {name : String} {s : Symbol} : ¬ Baseless symbols action →
      ¬ Incomplete symbols action → action.target? = some name → symbols.find? name = some s →
      s.readonly → Meets symbols action (some (.constant name))
  | nothing {action : Action} : ¬ Baseless symbols action → ¬ Incomplete symbols action →
      ¬ Forbidden symbols action → Meets symbols action none

section
variable {symbols : SymbolTable} {action : Action}

private theorem not_baseless_of_find? {target : String} {s : Symbol} (hb : action.base? = some target)
    (hs : symbols.find? target = some s) : ¬ Baseless symbols action := by
  rintro ⟨name, hn, hc⟩
  obtain rfl := Option.some.inj (hb.symm.trans hn)
  simp [SymbolTable.contains, hs] at hc

theorem not_baseless_of_base? (h : action.base? = none) : ¬ Baseless symbols action := by
  rintro ⟨name, hn, -⟩
  simp [h] at hn

private theorem not_incomplete_of_value? (h : action.value? = none) : ¬ Incomplete symbols action := by
  rintro ⟨e, he, -⟩
  simp [h] at he

/-- An argument is missing because of its first unknown term, or nothing is unknown. -/
private theorem argument_meets {e : Expression} {f : String → Effect} (hb : ¬ Baseless symbols action)
    (he : action.value? = some e) :
    (∃ fault, (argument symbols e).map f = .error fault ∧ Meets symbols action (some fault)) ∨
      (∃ effect, (argument symbols e).map f = .ok effect) ∧ ¬ Incomplete symbols action := by
  rw [argument]
  rcases evaluate_cases symbols e with ⟨⟨value, hv⟩, hk⟩ | ⟨name, span, hv, hf, -⟩
  · refine .inr ⟨⟨f value, by rw [hv]; rfl⟩, ?_⟩
    rintro ⟨e', he', t, ht, hu⟩
    obtain rfl := Option.some.inj (he.symm.trans he')
    simp [hk t ht] at hu
  · exact .inl ⟨.unresolved ⟨name, span⟩, by rw [hv]; rfl, .term hb he hf⟩

/-- Before an action has an effect, what it builds upon is looked for, and then its terms are. -/
theorem effect_meets (symbols : SymbolTable) (action : Action) :
    (∃ fault, effect symbols action = .error fault ∧ Meets symbols action (some fault)) ∨
      (∃ effect, Machine.effect symbols action = .ok effect) ∧ ¬ Baseless symbols action ∧
        ¬ Incomplete symbols action := by
  cases action with
  | append target e =>
    cases hs : symbols.find? target with
    | none => exact .inl ⟨_, by simp only [effect, hs], .append hs⟩
    | some s =>
      have hb : ¬ Baseless symbols (.append target e) := not_baseless_of_find? rfl hs
      have ha := argument_meets (f := fun more => .store target (s.value ++ more)) hb rfl
      simpa only [effect, hs, hb, not_false_eq_true, true_and] using ha
  | set target e =>
    have hb : ¬ Baseless symbols (.set target e) := not_baseless_of_base? rfl
    have ha := argument_meets (f := .store target) hb rfl
    simpa only [effect, hb, not_false_eq_true, true_and] using ha
  | reverse target =>
    cases hs : symbols.find? target with
    | none => exact .inl ⟨_, by simp only [effect, hs], .reverse hs⟩
    | some s =>
      refine .inr ⟨⟨_, by simp only [effect, hs]; rfl⟩, ?_, not_incomplete_of_value? rfl⟩
      exact not_baseless_of_find? rfl hs
  | print aspect e =>
    have hb : ¬ Baseless symbols (.print aspect e) := not_baseless_of_base? rfl
    have ha := argument_meets (f := fun v => .emit (rendering v aspect)) hb rfl
    simpa only [effect, hb, not_false_eq_true, true_and] using ha
  | list | exit => exact .inr ⟨⟨_, rfl⟩, not_baseless_of_base? rfl, not_incomplete_of_value? rfl⟩

end

section
variable {σ ε : Type} [Output σ ε] {m : Machine σ} {action : Action} {fault : Fault}

inductive Blames (m : Machine σ) : Action → Fault → Prop
  | term {action : Action} {e : Expression} {name : String} {span : Span} :
      action.value? = some e → Term.symbol name span ∈ e → m.symbols.find? name = none →
      Blames m action (.unresolved ⟨name, span⟩)
  | append {target : String} {e : Expression} : m.symbols.find? target = none →
      Blames m (.append target e) (.nothingToAppendTo target)
  | reverse {target : String} : m.symbols.find? target = none →
      Blames m (.reverse target) (.nothingToReverse target)
  | constant {action : Action} {target : String} {s : Symbol} : action.target? = some target →
      m.symbols.find? target = some s → s.readonly → Blames m action (.constant target)
  | output {action : Action} {lines : List String} {cause : String} :
      effect m.symbols action = .ok (.emit lines) → (m.emit lines).2 = .refused (.output cause) →
      Blames m action (.output cause)

/-- A term that is to blame is a symbol of the expression. -/
theorem Blames.symbol_mem {u : Unresolved} (h : Blames m action (.unresolved u)) :
    ∃ e, action.value? = some e ∧ Term.symbol u.name u.span ∈ e := by
  cases h with
  | term hv hm _ => exact ⟨_, hv, hm⟩

theorem Meets.blames (h : Meets m.symbols action (some fault)) : Blames m action fault := by
  cases h with
  | append hn => exact .append hn
  | reverse hn => exact .reverse hn
  | term _ he hf =>
    have hu := List.find?_some hf
    exact .term he (List.mem_of_find?_eq_some hf) (by simpa [Term.unknown, SymbolTable.contains] using hu)
  | constant _ _ ht hs hr => exact .constant ht hs hr

theorem effect_error (h : effect m.symbols action = .error fault) : Blames m action fault := by
  rcases effect_meets m.symbols action with ⟨fault', he, hm⟩ | ⟨⟨effect, he⟩, -⟩
  · obtain rfl := Except.error.inj (h.symm.trans he)
    exact hm.blames
  · simp [h] at he

end

theorem argument_map_ok {symbols : SymbolTable} {e : Expression} {f : String → Effect}
    {effect : Effect} (h : (argument symbols e).map f = .ok effect) :
    ∃ value, evaluate symbols e = .ok value ∧ effect = f value := by
  unfold argument at h
  cases he : evaluate symbols e with
  | ok value =>
    rw [he] at h
    cases h
    exact ⟨value, rfl, rfl⟩
  | error u =>
    rw [he] at h
    cases h

/-- What effect an action can have: its target is given a value, or lines are written, or the machine is
stopped. -/
inductive Brings (symbols : SymbolTable) : Action → Effect → Prop
  | store {action : Action} {name value : String} : action.target? = some name →
      Brings symbols action (.store name value)
  | print {aspect : Aspect} {e : Expression} {value : String} : evaluate symbols e = .ok value →
      Brings symbols (.print aspect e) (.emit (rendering value aspect))
  | list : Brings symbols .list (.emit (listing symbols))
  | stop : Brings symbols .exit .stop

theorem effect_ok {symbols : SymbolTable} {action : Action} {effect : Effect}
    (h : Machine.effect symbols action = .ok effect) : Brings symbols action effect := by
  cases action with
  | append target e =>
    simp only [Machine.effect] at h
    split at h
    · cases h
    · obtain ⟨_, -, rfl⟩ := argument_map_ok h
      exact .store rfl
  | set target e =>
    obtain ⟨_, -, rfl⟩ := argument_map_ok h
    exact .store rfl
  | reverse target =>
    simp only [Machine.effect] at h
    split at h
    · cases h
    · cases h
      exact .store rfl
  | print aspect e =>
    obtain ⟨_, he, rfl⟩ := argument_map_ok h
    exact .print he
  | list =>
    cases h
    exact .list
  | exit =>
    cases h
    exact .stop

def Effect.target? : Effect → Option String
  | .store name _ => some name
  | _ => none

/-- The target of an action is given a value, and no other name is. -/
theorem effect_target {symbols : SymbolTable} {action : Action} {effect : Effect}
    (h : Machine.effect symbols action = .ok effect) : action.target? = effect.target? := by
  cases effect_ok h with
  | store ht => exact ht
  | print | list | stop => rfl

end StringProcessor.Machine
