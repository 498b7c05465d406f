import StringProcessor.Proofs.Machine.Step

/-! Refused commands. Where the output takes everything, a command is refused only for a symbol that is
missing or that must not change, and of several such reasons the first one to be looked at is told. -/
namespace StringProcessor

/-- Whatever is still written to the place, all of it is taken. -/
def Output.Willing {σ ε : Type} [Output σ ε] (s : σ) : Prop :=
  ∀ pieces, (Output.writeAll s pieces).2 = .accepted

theorem Sink.willing {s : Sink} (h : s.room = none) : Output.Willing s := fun pieces => by
  rw [writeAll_unlimited h]

namespace Machine
variable {σ ε : Type} [Output σ ε]

theorem emit_willing {m : Machine σ} (h : Output.Willing m.sink) (lines : List String) :
    (m.emit lines).2 = .accepted :=
  Verdict.map_accepted.mpr (h _)

/-- A command is refused for the reason that its action meets. -/
private theorem execute_meets {m : Machine σ} (h : Output.Willing m.sink) (c : Command) :
    ∃ fault, Meets m.symbols c.action fault ∧
      (m.execute c).answer = fault.elim .accepted fun f => .refused (f.diagnostic c.span) := by
  obtain ⟨verdict, hp, ha⟩ := execute_performs m c
  rw [ha]
  generalize (m.execute c).next = next at hp
  -- what is missing keeps the action from having an effect, and a constant refuses the effect
  rcases effect_meets m.symbols c.action with ⟨fault', he, hm⟩ | ⟨⟨effect, he⟩, hb, hi⟩
  · refine ⟨some fault', hm, ?_⟩
    cases hp with
    | impossible he' =>
      rw [he] at he'
      cases he'
      rfl
    | constant he' | stored he' | written he' | stopped he' => simp [he] at he'
  · have hfree {action : Action} {effect : Effect} (he : Machine.effect m.symbols action = .ok effect)
        (ht : effect.target? = none) : ¬ Forbidden m.symbols action := by
      rintro ⟨name, s, hn, -⟩
      simp [effect_target he, ht] at hn
    cases hp with
    | impossible he' => simp [he] at he'
    | constant he' hs =>
      obtain ⟨s, hf, hr⟩ := SymbolTable.set_refused hs
      exact ⟨_, .constant hb hi (effect_target he') hf hr, rfl⟩
    | stored he' hs =>
      refine ⟨none, .nothing hb hi ?_, rfl⟩
      rintro ⟨name, s, hn, hf, hr⟩
      obtain rfl := Option.some.inj ((effect_target he').symm.trans hn)
      simp [SymbolTable.set, hf, hr] at hs
    | written he' =>
      rw [emit_willing h]
      exact ⟨none, .nothing hb hi (hfree he' rfl), rfl⟩
    | stopped he' => exact ⟨none, .nothing hb hi (hfree he' rfl), rfl⟩

/-- Where the output takes everything, a command is refused for an undefined symbol if what it builds
upon or one of its terms is missing, and else for a constant if it would change one. Otherwise it is
carried out. The whole command is to blame, unless what it builds upon is there: then a term that is
missing is to blame, and the first one if there are several. -/
theorem execute_tells_first_reason {m : Machine σ} (h : Output.Willing m.sink) (c : Command) :
    let answer := (m.execute c).answer
    let baseless := Baseless m.symbols c.action
    let undefined := baseless ∨ Incomplete m.symbols c.action
    let forbidden := Forbidden m.symbols c.action
    ((∃ d, answer = .refused d ∧ d.kind = .undefinedSymbol) ↔ undefined) ∧
    ((∃ d, answer = .refused d ∧ d.kind = .readOnlySymbol) ↔ ¬ undefined ∧ forbidden) ∧
    (answer = .accepted ↔ ¬ undefined ∧ ¬ forbidden) ∧
    ∀ d, answer = .refused d →
      (baseless → d.span = c.span) ∧
      (¬ baseless → d.kind = .undefinedSymbol → ∃ e t, c.action.value? = some e ∧
        e.find? (·.unknown m.symbols) = some t ∧ d.span = t.span) ∧
      (d.kind = .readOnlySymbol → d.span = c.span) := by
  obtain ⟨action, span⟩ := c
  intro answer baseless undefined forbidden
  obtain ⟨fault, hm, ha⟩ := execute_meets h ⟨action, span⟩
  change Meets m.symbols action fault at hm
  change answer = _ at ha
  have hbase {target : String} (hb : action.base? = some target) (hn : m.symbols.find? target = none) :
      baseless := ⟨target, hb, by simp [SymbolTable.contains, hn]⟩
  rw [ha]
  cases hm with
  | append hn | reverse hn =>
    have hb : baseless := hbase rfl hn
    simp [undefined, hb, Fault.diagnostic, Diagnostic.withHelp, Diagnostic.undefinedSymbol]
  | @term _ e name place hb he hf =>
    have hu := List.find?_some hf
    have hi : Incomplete m.symbols action := ⟨e, he, _, List.mem_of_find?_eq_some hf, hu⟩
    have hfirst : ∃ e t, action.value? = some e ∧ e.find? (·.unknown m.symbols) = some t ∧
      place = t.span := ⟨e, _, he, hf, rfl⟩
    simpa [baseless, undefined, hb, hi, Fault.diagnostic, Unresolved.diagnostic,
      Diagnostic.undefinedSymbol] using hfirst
  | constant hb hi ht hf hr =>
    have hc : Forbidden m.symbols action := ⟨_, _, ht, hf, hr⟩
    simp [baseless, undefined, forbidden, hb, hi, hc, Fault.diagnostic, Diagnostic.readOnlySymbol]
  | nothing hb hi hc => simp [baseless, undefined, forbidden, hb, hi, hc]

/-- A target that is missing counts before a term, and a constant behind the first of two terms. -/
theorem execute_tells_first_of_several :
    let m : Machine := .start .off {}
    let append : Command := ⟨.append "x" [.symbol "y" ⟨9, 10⟩], ⟨0, 11⟩⟩
    let terms : Expression := [.symbol "SPACE" ⟨8, 13⟩, .symbol "y" ⟨16, 17⟩, .symbol "z" ⟨20, 21⟩]
    let set : Command := ⟨.set "TAB" terms, ⟨0, 22⟩⟩
    Output.Willing m.sink ∧
      (∃ d, (m.execute append).answer = .refused d ∧ d.kind = .undefinedSymbol ∧ d.span = ⟨0, 11⟩) ∧
      ∃ d, (m.execute set).answer = .refused d ∧ d.kind = .undefinedSymbol ∧ d.span = ⟨16, 17⟩ := by
  intro m append terms set
  have hw : Output.Willing m.sink := Sink.willing rfl
  refine ⟨hw, ?_, ?_⟩
  · have hb : Baseless m.symbols append.action := ⟨"x", rfl, by decide⟩
    obtain ⟨hu, -, -, hd⟩ := execute_tells_first_reason hw append
    obtain ⟨d, ha, hk⟩ := hu.mpr (.inl hb)
    exact ⟨d, ha, hk, (hd d ha).1 hb⟩
  · have hb : ¬ Baseless m.symbols set.action := not_baseless_of_base? rfl
    have hf : terms.find? (·.unknown m.symbols) = some (.symbol "y" ⟨16, 17⟩) := by decide
    obtain ⟨hu, -, -, hd⟩ := execute_tells_first_reason hw set
    obtain ⟨d, ha, hk⟩ := hu.mpr (.inr ⟨terms, rfl, _, List.mem_of_find?_eq_some hf, by decide⟩)
    obtain ⟨e, t, he, ht, hs⟩ := (hd d ha).2.1 hb hk
    obtain rfl := Option.some.inj he
    obtain rfl := Option.some.inj (hf.symm.trans ht)
    exact ⟨d, ha, hk, hs⟩

end Machine
end StringProcessor
