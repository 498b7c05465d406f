import StringProcessor.Proofs.Command
import StringProcessor.Proofs.Grammar.Residual

/-! Parts of statements: the tokens in which a command can be found again. -/
namespace StringProcessor.Grammar

theorem Body.keyword {word : String} {ts : List Token} {action : Action} (h : Body word ts action) :
    action.keyword.word = word := by
  cases h with
  | print hp _ => exact (mem_printing_iff.mp hp).symm
  | _ => rfl

/-- Each term of an expression is that of one of its tokens. -/
theorem Operands.operand_mem {ts : List Token} {e : Expression} (h : Operands ts e) {operand : Term}
    (hm : operand ∈ e) : ∃ t ∈ ts, Operand t operand := by
  induction h with
  | single ht =>
    obtain rfl := List.mem_singleton.mp hm
    exact ⟨_, .head _, ht⟩
  | join ht _ _ ih =>
    rcases List.mem_cons.mp hm with rfl | hm
    · exact ⟨_, .head _, ht⟩
    · obtain ⟨t, hts, ho⟩ := ih hm
      exact ⟨t, .tail _ (.tail _ hts), ho⟩

theorem Body.operand_mem {word : String} {ts : List Token} {action : Action} (h : Body word ts action)
    {e : Expression} {operand : Term} (he : action.value? = some e) (hm : operand ∈ e) :
    ∃ t ∈ ts, Operand t operand := by
  cases h with
  | append _ ho | set _ ho =>
    cases he
    obtain ⟨t, hts, ht⟩ := ho.operand_mem hm
    exact ⟨t, .tail _ hts, ht⟩
  | print _ ho =>
    cases he
    exact ho.operand_mem hm
  | reverse | list | exit => cases he

theorem Body.target_mem {word : String} {ts : List Token} {action : Action} (h : Body word ts action)
    {name : String} (hn : action.target? = some name) : ∃ t ∈ ts, t.kind = .name ∧ t.text = name := by
  cases h with
  | append hk _ | set hk _ | reverse hk =>
    cases hn
    exact ⟨_, .head _, hk, rfl⟩
  | print | list | exit => cases hn

/-- A statement spans its tokens from the keyword of its command to the terminator. -/
theorem Statement.parts {ts : List Token} {c : Command} (h : Statement ts c) :
    ∃ key body close, ts = key :: (body ++ [close]) ∧ key.kind = .keyword ∧
      key.text = c.keyword.word ∧ close.kind = .terminator ∧
      c.span = ⟨key.span.start, close.span.stop⟩ := by
  obtain ⟨hk, hb, hc⟩ := h
  exact ⟨_, _, _, rfl, hk, hb.keyword.symm, hc, rfl⟩

/-- Symbols in the expression of a command are tokens of its statement. -/
theorem Statement.symbol_mem {ts : List Token} {c : Command} (h : Statement ts c) {e : Expression}
    {name : String} {span : Span} (he : c.action.value? = some e)
    (hm : Term.symbol name span ∈ e) : ⟨.name, name, span⟩ ∈ ts := by
  obtain ⟨-, hb, -⟩ := h
  obtain ⟨t, hbody, ⟨⟩⟩ := hb.operand_mem he hm
  simp [hbody]

/-- The target of a command is a name in its statement. -/
theorem Statement.target_mem {ts : List Token} {c : Command} (h : Statement ts c) {name : String}
    (hn : c.action.target? = some name) : ∃ t ∈ ts, t.kind = .name ∧ t.text = name := by
  obtain ⟨-, hb, -⟩ := h
  obtain ⟨t, ht, hk⟩ := hb.target_mem hn
  exact ⟨t, by simp [ht], hk⟩

/-- Any statement of a cut has whole statements in front of it. -/
theorem Cut.split {ι : Type} {ts st : List (Token ι)} {before after : List (List (Token ι) × Command ι)}
    {c : Command ι}
    (h : Cut ts (before ++ (st, c) :: after)) :
    ∃ front rest, ts = front ++ (st ++ rest) ∧ Cut front before ∧ Statement st c := by
  induction before generalizing ts with
  | nil =>
    obtain _ | ⟨hs, _⟩ := h
    exact ⟨[], _, rfl, .nil, hs⟩
  | cons first before ih =>
    obtain _ | ⟨hs, hr⟩ := h
    obtain ⟨front, rest, rfl, hf, hst⟩ := ih hr
    exact ⟨_, rest, (List.append_assoc ..).symm, .cons hs hf, hst⟩

end StringProcessor.Grammar
