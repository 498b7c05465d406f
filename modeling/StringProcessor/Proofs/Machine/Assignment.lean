import StringProcessor.Proofs.Machine.Update

/-! Assignments. Where a symbol has been set, the terms that it was set to may stand for it, and to append
to a symbol is to set it to itself with something behind it. -/
namespace StringProcessor

/-- The terms that stand for the term when an expression stands for the symbol. -/
def Term.substitute (x : String) (e : Expression) : Term → Expression
  | .symbol name span => if name = x then e else [.symbol name span]
  | .literal text span => [.literal text span]

/-- The expression with another one in place of a symbol. -/
def Expression.substitute (f : Expression) (x : String) (e : Expression) : Expression :=
  f.flatMap (Term.substitute x e)

namespace Machine

section
variable {symbols : SymbolTable} {x : String} {e : Expression} {value : String}

private theorem evaluate_substitute_term (he : evaluate symbols e = .ok value) (t : Term) :
    evaluate symbols (t.substitute x e) = valueOf (symbols.define ⟨x, value, false⟩) t := by
  cases t with
  | literal text span => exact evaluate_single _
  | symbol name span =>
    rw [Term.substitute, valueOf, SymbolTable.find?_define]
    split
    · rename_i hx
      rw [he, if_pos hx.symm]
    · rename_i hx
      rw [evaluate_single, valueOf, if_neg (Ne.symm hx)]

/-- An expression in place of a symbol counts as much as its value under the name of the symbol. -/
theorem evaluate_substitute (he : evaluate symbols e = .ok value) (f : Expression) :
    evaluate symbols (f.substitute x e) = evaluate (symbols.define ⟨x, value, false⟩) f := by
  induction f with
  | nil => rfl
  | cons t f ih =>
    rw [Expression.substitute, List.flatMap_cons, ← Expression.substitute, evaluate_append,
      evaluate_cons, evaluate_substitute_term he, ih]

theorem effect_print {aspect : Aspect} (h : evaluate symbols e = .ok value) :
    effect symbols (.print aspect e) = .ok (.emit (rendering value aspect)) := by
  rw [effect, argument, h]
  rfl

private theorem effect_print_error {aspect : Aspect} {u : Unresolved} (h : evaluate symbols e = .error u) :
    effect symbols (.print aspect e) = .error (.unresolved u) := by
  rw [effect, argument, h]
  rfl

private theorem effect_set_ok {v : String} (h : effect symbols (.set x e) = .ok (.store x v)) :
    evaluate symbols e = .ok v := by
  obtain ⟨value, he, hv⟩ := argument_map_ok h
  cases hv
  exact he

/-- Both write the joined value of the target and of the terms. -/
private theorem effect_append_eq_set {s : Symbol} (hs : symbols.find? x = some s) (inner : Span) :
    effect symbols (.append x e) = effect symbols (.set x (.symbol x inner :: e)) := by
  have hv : valueOf symbols (.symbol x inner) = .ok s.value := by rw [valueOf, hs]
  simp only [effect, hs, argument, evaluate_cons, hv]
  cases evaluate symbols e <;> rfl

private theorem effect_append_ok {v : String} (h : effect symbols (.append x e) = .ok (.store x v)) :
    ∃ s more, symbols.find? x = some s ∧ evaluate symbols e = .ok more ∧ v = s.value ++ more := by
  simp only [effect] at h
  split at h
  · cases h
  · rename_i s hs
    obtain ⟨more, he, hv⟩ := argument_map_ok h
    cases hv
    exact ⟨s, more, hs, he, rfl⟩

private theorem effect_append {s : Symbol} {more : String} (hs : symbols.find? x = some s)
    (he : evaluate symbols e = .ok more) :
    effect symbols (.append x e) = .ok (.store x (s.value ++ more)) := by
  simp only [effect, hs, argument, he]
  rfl

end

variable {σ ε : Type} [Output σ ε]

/-- Lines are written to the output, whatever else the machine holds. -/
private theorem emit_congr {m m' : Machine σ} (h : m'.sink = m.sink) (lines : List String) :
    (m'.emit lines).2 = (m.emit lines).2 ∧ (m'.emit lines).1.sink = (m.emit lines).1.sink := by
  simp [emit, h]

/-- What is printed of an expression is what there is to be printed of its value. -/
private theorem execute_print_congr {m m' : Machine σ} {e e' : Expression} (hs : m'.sink = m.sink)
    (he : evaluate m'.symbols e' = evaluate m.symbols e) (aspect : Aspect) (span : Span) :
    (m'.execute ⟨.print aspect e', span⟩).answer = (m.execute ⟨.print aspect e, span⟩).answer ∧
      (m'.execute ⟨.print aspect e', span⟩).next.sink =
        (m.execute ⟨.print aspect e, span⟩).next.sink := by
  cases hv : evaluate m.symbols e with
  | error u =>
    obtain ⟨hn, ha⟩ := execute_impossible (c := ⟨.print aspect e, span⟩) (effect_print_error hv)
    obtain ⟨hn', ha'⟩ := execute_impossible (c := ⟨.print aspect e', span⟩)
      (effect_print_error (he.trans hv))
    rw [hn, ha, hn', ha']
    exact ⟨rfl, hs⟩
  | ok value =>
    obtain ⟨hn, ha⟩ := execute_emit (c := ⟨.print aspect e, span⟩) (effect_print hv)
    obtain ⟨hn', ha'⟩ := execute_emit (c := ⟨.print aspect e', span⟩) (effect_print (he.trans hv))
    obtain ⟨hrefused, hsink⟩ := emit_congr hs (rendering value aspect)
    rw [hn, ha, hn', ha', hrefused]
    exact ⟨rfl, hsink⟩

/-- Behind a `set` an expression comes to what it comes to before when the terms that are set stand for the
symbol: the same value, or the same fault of the same term. So the same is printed of it. -/
theorem evaluate_after_set {m : Machine σ} {x : String} {e : Expression} {span : Span}
    (h : (m.execute ⟨.set x e, span⟩).answer = .accepted) (f : Expression) :
    let next := (m.execute ⟨.set x e, span⟩).next
    evaluate next.symbols f = evaluate m.symbols (f.substitute x e) ∧
      ∀ aspect place,
        let late := next.execute ⟨.print aspect f, place⟩
        let early := m.execute ⟨.print aspect (f.substitute x e), place⟩
        late.answer = early.answer ∧ late.next.sink = early.next.sink := by
  intro next
  obtain ⟨value, hv, hr⟩ := execute_stored rfl h
  have hnext : next = { m with symbols := m.symbols.define ⟨x, value, false⟩ } :=
    (execute_store hv hr).1
  have hf : evaluate next.symbols f = evaluate m.symbols (f.substitute x e) := by
    rw [hnext, evaluate_substitute (effect_set_ok hv)]
  exact ⟨hf, execute_print_congr (by rw [hnext]) hf⟩

/-- A symbol that is set to a text with itself in it, and a term behind it that is missing. -/
theorem evaluate_after_set_to_itself :
    let m : Machine := { Machine.start .off {} with symbols := SymbolTable.constants.define ⟨"x", "a", false⟩ }
    let e : Expression := [.symbol "x" ⟨6, 7⟩, .symbol "x" ⟨10, 11⟩]
    let f : Expression := [.symbol "x" ⟨19, 20⟩, .symbol "y" ⟨23, 24⟩, .symbol "x" ⟨27, 28⟩]
    let set : Command := ⟨.set "x" e, ⟨0, 12⟩⟩
    (m.execute set).answer = .accepted ∧
      evaluate (m.execute set).next.symbols f = evaluate m.symbols (f.substitute "x" e) ∧
      evaluate m.symbols (f.substitute "x" e) = .error ⟨"y", ⟨23, 24⟩⟩ := by
  intro m e f set
  have h : (m.execute set).answer = .accepted := rfl
  exact ⟨h, (evaluate_after_set h f).1, rfl⟩

/-- Where the target is missing, neither it nor a term that stands for it has a value. -/
private theorem append_set_missing {m : Machine σ} {x : String} (h : m.symbols.find? x = none)
    (e : Expression)
    (inner span : Span) :
    let append := m.execute ⟨.append x e, span⟩
    let set := m.execute ⟨.set x (.symbol x inner :: e), span⟩
    append.next = m ∧ set.next = m ∧ (∃ d, append.answer = .refused d ∧ d.kind = .undefinedSymbol) ∧
      ∃ d, set.answer = .refused d ∧ d.kind = .undefinedSymbol := by
  intro append set
  have hv : valueOf m.symbols (.symbol x inner) = .error ⟨x, inner⟩ := by rw [valueOf, h]
  have happend : effect m.symbols (.append x e) = .error (.nothingToAppendTo x) := by
    simp only [effect, h]
  have hset : effect m.symbols (.set x (.symbol x inner :: e)) = .error (.unresolved ⟨x, inner⟩) := by
    rw [effect, argument, evaluate_cons, hv]
    rfl
  obtain ⟨hn, ha⟩ := execute_impossible (c := ⟨.append x e, span⟩) happend
  obtain ⟨hn', ha'⟩ := execute_impossible (c := ⟨.set x (.symbol x inner :: e), span⟩) hset
  exact ⟨hn, hn', ⟨_, ha, rfl⟩, _, ha', rfl⟩

/-- What is appended in two parts may be appended at once, unless the second part changes with the
target. -/
private theorem append_append {m : Machine σ} {x : String} {e f : Expression} {span place : Span}
    (hx : x ∉ f.names) (ha : (m.execute ⟨.append x e, span⟩).answer = .accepted)
    (hb : ((m.execute ⟨.append x e, span⟩).next.execute ⟨.append x f, place⟩).answer = .accepted)
    (whole : Span) :
    (m.execute ⟨.append x (e ++ f), whole⟩).answer = .accepted ∧
      ((m.execute ⟨.append x e, span⟩).next.execute ⟨.append x f, place⟩).next =
        (m.execute ⟨.append x (e ++ f), whole⟩).next := by
  obtain ⟨_, hv, hr⟩ := execute_stored rfl ha
  obtain ⟨s, first, hs, he, rfl⟩ := effect_append_ok hv
  rw [(execute_store hv hr).1] at hb ⊢
  obtain ⟨_, hw, hr'⟩ := execute_stored rfl hb
  obtain ⟨s', more, hs', hf, rfl⟩ := effect_append_ok hw
  rw [(execute_store hw hr').1]
  -- the target has got its value from the first part, which the second part does not read
  obtain rfl : ⟨x, s.value ++ first, false⟩ = s' := by
    rw [SymbolTable.find?_define, if_pos rfl] at hs'
    exact Option.some.inj hs'
  have hkept : evaluate (m.symbols.define ⟨x, s.value ++ first, false⟩) f = evaluate m.symbols f := by
    refine evaluate_congr fun name hn => ?_
    have hne : x ≠ name := fun hn' => hx (hn' ▸ hn)
    rw [SymbolTable.find?_define, if_neg hne]
  have hjoined : evaluate m.symbols (e ++ f) = .ok (first ++ more) := by
    rw [evaluate_append, he, ← hkept, hf]
    rfl
  obtain ⟨hn, hanswer⟩ := execute_store (c := ⟨.append x (e ++ f), whole⟩) (effect_append hs hjoined) hr
  have hover : (m.symbols.define ⟨x, s.value ++ first, false⟩).define
      ⟨x, s.value ++ first ++ more, false⟩ =
        m.symbols.define ⟨x, s.value ++ (first ++ more), false⟩ := by
    rw [String.append_assoc]
    exact m.symbols.define_define rfl
  refine ⟨hanswer, ?_⟩
  rw [hn, ← hover]

/-- Where a symbol is there, to append to it is to set it to itself and what is appended: the answer is
the same, and so is the machine that is left. Where it is not, both are refused and change nothing. Two
expressions that are appended one after the other are appended together, unless the second one names the
symbol. -/
theorem append_eq_set (m : Machine σ) (x : String) (e : Expression) (inner span : Span) :
    let append := m.execute ⟨.append x e, span⟩
    let set := m.execute ⟨.set x (.symbol x inner :: e), span⟩
    (m.symbols.contains x → append.answer = set.answer ∧ append.next = set.next) ∧
    (¬ m.symbols.contains x → append.next = m ∧ set.next = m ∧
      (∃ d, append.answer = .refused d ∧ d.kind = .undefinedSymbol) ∧
      ∃ d, set.answer = .refused d ∧ d.kind = .undefinedSymbol) ∧
    ∀ f place whole, x ∉ Expression.names f → append.answer = .accepted →
      let second := append.next.execute ⟨.append x f, place⟩
      let joined := m.execute ⟨.append x (e ++ f), whole⟩
      second.answer = .accepted → joined.answer = .accepted ∧ second.next = joined.next := by
  intro append set
  refine ⟨fun hc => ?_, fun hc => ?_, fun f place whole hx ha hb => append_append hx ha hb whole⟩
  · obtain ⟨s, hs⟩ := Option.isSome_iff_exists.mp hc
    exact execute_congr (effect_append_eq_set hs inner) span
  · have hn : m.symbols.find? x = none := by simpa [SymbolTable.contains] using hc
    exact append_set_missing hn e inner span

/-- A symbol that is appended to itself, and one that is not there. -/
theorem append_eq_set_to_itself :
    let m : Machine := { Machine.start .off {} with symbols := SymbolTable.constants.define ⟨"x", "ab", false⟩ }
    let e : Expression := [.symbol "x" ⟨9, 10⟩]
    let f : Expression := [.literal "!" ⟨9, 12⟩]
    let append := m.execute ⟨.append "x" e, ⟨0, 11⟩⟩
    let set := m.execute ⟨.set "x" (.symbol "x" ⟨7, 8⟩ :: e), ⟨0, 11⟩⟩
    let missing := m.execute ⟨.append "y" e, ⟨0, 11⟩⟩
    m.symbols.contains "x" ∧ append.next = set.next ∧
      ¬ m.symbols.contains "y" ∧ missing.next = m ∧
      (append.next.execute ⟨.append "x" f, ⟨12, 25⟩⟩).next =
        (m.execute ⟨.append "x" (e ++ f), ⟨0, 17⟩⟩).next := by
  intro m e f append set missing
  obtain ⟨hthere, -, happended⟩ := append_eq_set m "x" e ⟨7, 8⟩ ⟨0, 11⟩
  obtain ⟨-, hmissing, -⟩ := append_eq_set m "y" e ⟨7, 8⟩ ⟨0, 11⟩
  have hx : m.symbols.contains "x" := by decide
  have hy : ¬ m.symbols.contains "y" := by decide
  refine ⟨hx, (hthere hx).2, hy, (hmissing hy).1, ?_⟩
  exact (happended f ⟨12, 25⟩ ⟨0, 17⟩ (by decide) rfl rfl).2

end Machine
end StringProcessor
