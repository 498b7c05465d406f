import StringProcessor.Proofs.Machine.Step

/-! Updates, the commands that give a symbol a value. What an update does depends on no symbols but those
that it names, and it changes none but its target. So updates that do not name each other's target can
be carried out in either order. -/
namespace StringProcessor.Machine

/-- All that an update can do is to give its target a value. -/
private theorem effect_store {symbols : SymbolTable} {action : Action} {name : String} {effect : Effect}
    (ht : action.target? = some name) (h : Machine.effect symbols action = .ok effect) :
    ∃ value, effect = .store name value := by
  rw [effect_target h] at ht
  cases effect with
  | store name' value =>
    cases ht
    exact ⟨value, rfl⟩
  | emit lines | stop => cases ht

section
variable {σ ε : Type} [Output σ ε] {m : Machine σ} {c : Command}

/-- An update that is carried out has given its target a value, and that was no constant. -/
theorem execute_stored {name : String} (ht : c.action.target? = some name)
    (h : (m.execute c).answer = .accepted) :
    ∃ value, effect m.symbols c.action = .ok (.store name value) ∧
      ¬ (m.symbols.find? name).any (·.readonly) := by
  cases he : effect m.symbols c.action with
  | error fault => simp [(execute_impossible he).2] at h
  | ok effect =>
    obtain ⟨value, rfl⟩ := effect_store ht he
    refine ⟨value, rfl, fun hr => ?_⟩
    simp [(execute_constant he hr).2] at h

end

/-- Tables that the action cannot tell apart: what it names and what it changes is the same in both. -/
def Alike (action : Action) (symbols symbols' : SymbolTable) : Prop :=
  ∀ name, action.target? = some name ∨ name ∈ action.names → symbols'.find? name = symbols.find? name

theorem Alike.evaluate {action : Action} {symbols symbols' : SymbolTable} {e : Expression}
    (h : Alike action symbols symbols') (he : action.value? = some e) :
    evaluate symbols' e = evaluate symbols e := by
  refine evaluate_congr fun name hn => h name (.inr ?_)
  simpa [Action.names, he] using hn

theorem Alike.effect {action : Action} {symbols symbols' : SymbolTable}
    (h : Alike action symbols symbols') (hl : action ≠ .list) :
    effect symbols' action = effect symbols action := by
  cases action with
  | append target e =>
    simp only [Machine.effect, argument, h.evaluate rfl, h target (.inl rfl)]
  | set target e | print aspect e => simp only [Machine.effect, argument, h.evaluate rfl]
  | reverse target => simp only [Machine.effect, h target (.inl rfl)]
  | list => exact absurd rfl hl
  | exit => rfl

/-- Meanwhile any symbol may change that the action neither names nor changes. -/
theorem Alike.update {action : Action} (symbols : SymbolTable) {change : Option Symbol} {name : String}
    (h : ∀ s ∈ change, s.name = name) (ht : action.target? ≠ some name) (hn : name ∉ action.names) :
    Alike action symbols (symbols.update change) := by
  refine fun other ho => SymbolTable.find?_update fun s hs => ?_
  rintro rfl
  rw [← h s hs] at ht hn
  exact ho.elim ht hn

variable {σ ε : Type} [Output σ ε]

/-- An update does the same on all tables that it cannot tell apart: it makes the same change to each of
them, if any, and gets the same answer. -/
private theorem execute_alike {c : Command} {target : String} (ht : c.action.target? = some target)
    (symbols : SymbolTable) : ∃ change answer, (∀ s ∈ change, s.name = target) ∧
      ∀ m : Machine σ, Alike c.action symbols m.symbols →
        (m.execute c).next = { m with symbols := m.symbols.update change } ∧
          (m.execute c).answer = answer := by
  -- a listing depends on all symbols, but it is no update
  have hl : c.action ≠ .list := fun hl => by simp [hl, Action.target?] at ht
  cases he : effect symbols c.action with
  | error fault =>
    exact ⟨none, _, by simp, fun m h => execute_impossible ((h.effect hl).trans he)⟩
  | ok effect =>
    obtain ⟨value, rfl⟩ := effect_store ht he
    by_cases hr : (symbols.find? target).any (·.readonly)
    · refine ⟨none, _, by simp, fun m h => execute_constant ((h.effect hl).trans he) ?_⟩
      rwa [h target (.inl ht)]
    · refine ⟨some ⟨target, value, false⟩, _, by simp, fun m h =>
        execute_store ((h.effect hl).trans he) ?_⟩
      rwa [h target (.inl ht)]

/-- Two updates of different symbols, neither of which names the target of the other, get the same answers
in either order. They leave the same symbols, in the same order too unless both targets are new: those
stand at the end in the order of the updates. -/
theorem updates_commute (m : Machine σ) {c d : Command} {a b : String}
    (ha : c.action.target? = some a) (hb : d.action.target? = some b) (hab : a ≠ b)
    (hc : b ∉ c.action.names) (hd : a ∉ d.action.names) :
    let first := m.execute c
    let second := first.next.execute d
    let first' := m.execute d
    let second' := first'.next.execute c
    first.answer = second'.answer ∧ second.answer = first'.answer ∧
      (∀ name, second.next.symbols.find? name = second'.next.symbols.find? name) ∧
      (second.next.symbols = second'.next.symbols ∨
        ¬ m.symbols.contains a ∧ ¬ m.symbols.contains b ∧ ∃ x y, x.name = a ∧ y.name = b ∧
          second.next.symbols.symbols = m.symbols.symbols ++ [x, y] ∧
          second'.next.symbols.symbols = m.symbols.symbols ++ [y, x]) := by
  intro first second first' second'
  obtain ⟨change, answer, hx, hC⟩ := execute_alike (σ := σ) ha m.symbols
  obtain ⟨change', answer', hy, hD⟩ := execute_alike (σ := σ) hb m.symbols
  have hcb : Alike c.action m.symbols (m.symbols.update change') :=
    .update m.symbols hy (by simp [ha, hab]) hc
  have hda : Alike d.action m.symbols (m.symbols.update change) :=
    .update m.symbols hx (by simp [hb, hab.symm]) hd
  -- each update meets the machine as it is and as the other one has left it
  obtain ⟨hfirst, hanswer⟩ := hC m fun _ _ => rfl
  obtain ⟨hfirst', hanswer'⟩ := hD m fun _ _ => rfl
  obtain ⟨hsecond, hanswer₂⟩ := hD { m with symbols := m.symbols.update change } hda
  obtain ⟨hsecond', hanswer₂'⟩ := hC { m with symbols := m.symbols.update change' } hcb
  simp only [first, second, first', second', hfirst, hfirst', hsecond, hsecond', hanswer, hanswer',
    hanswer₂, hanswer₂', true_and]
  exact ⟨m.symbols.find?_update_comm hx hy hab, m.symbols.update_comm hx hy hab⟩

/-- Two new symbols are listed in the order in which they come up. -/
theorem updates_commute_when_new :
    let m : Machine := .start .off {}
    let c : Command := ⟨.set "x" [.symbol "TAB" ⟨6, 9⟩], ⟨0, 10⟩⟩
    let d : Command := ⟨.set "y" [.literal "a" ⟨6, 9⟩], ⟨0, 10⟩⟩
    "x" ≠ "y" ∧ "y" ∉ c.action.names ∧ "x" ∉ d.action.names ∧ ∃ x y, x.name = "x" ∧ y.name = "y" ∧
      ((m.execute c).next.execute d).next.symbols.symbols = m.symbols.symbols ++ [x, y] ∧
      ((m.execute d).next.execute c).next.symbols.symbols = m.symbols.symbols ++ [y, x] := by
  intro m c d
  refine ⟨by decide, by decide, by decide, ?_⟩
  have hcommute := updates_commute m (c := c) (d := d) rfl rfl (by decide) (by decide) (by decide)
  rcases hcommute.2.2.2 with heq | ⟨-, -, hswapped⟩
  · have hnames := congrArg (fun t : SymbolTable => t.symbols.map (·.name)) heq
    exact absurd hnames (by decide)
  · exact hswapped

end StringProcessor.Machine
