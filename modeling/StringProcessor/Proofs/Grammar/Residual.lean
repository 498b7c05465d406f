import StringProcessor.Proofs.Grammar
import StringProcessor.Statement.Stage

/-! What is still to come. For every stage of a statement and every phase of a list of statements,
the lists of tokens with which they can be finished; one token of them is one step. -/
namespace StringProcessor.Grammar
open StringProcessor.Statement
variable {ι : Type}

private theorem operand_iff {t : Token ι} {operand : Term ι} :
    Operand t operand ↔ Term.ofToken? t = some operand := by
  constructor
  · intro h
    cases h <;> rfl
  · intro h
    obtain ⟨kind, text, span⟩ := t
    cases kind <;> simp only [Term.ofToken?, Option.some.injEq, reduceCtorEq] at h
    · exact h ▸ .literal text span
    · exact h ▸ .symbol text span

theorem mem_printing_iff {word : String} {aspect : Aspect} :
    (word, aspect) ∈ printing ↔ word = (Keyword.print aspect).word := by
  cases aspect <;> simp [printing, Keyword.word]

/-- The tokens that lead from a stage to the terminator, and the action that they complete. -/
inductive Completes : Stage ι → List (Token ι) → Action ι → Prop
  | target {what : Change} {name : Token ι} {ts : List (Token ι)} {action : Action ι} :
      name.kind = .name → Completes (.ofTarget name.text what) ts action →
      Completes (.target what) (name :: ts) action
  | operand {head : Head} {terms : List (Term ι)} {t : Token ι} {operand : Term ι} {ts : List (Token ι)}
      {action : Action ι} : Operand t operand → Completes (.joint head (operand :: terms) t) ts action →
      Completes (.term head terms) (t :: ts) action
  | operator {head : Head} {terms : List (Term ι)} {last plus : Token ι} {ts : List (Token ι)}
      {action : Action ι} : plus.kind = .operator → Completes (.term head terms) ts action →
      Completes (.joint head terms last) (plus :: ts) action
  | joint {head : Head} {terms : List (Term ι)} {last : Token ι} :
      Completes (.joint head terms last) [] (head.action terms.reverse)
  | closing {action : Action ι} : Completes (.closing action) [] action

private theorem Operands.completes {ts : List (Token ι)} {e : Expression ι} (h : Operands ts e)
    (head : Head) (terms : List (Term ι)) :
    Completes (.term head terms) ts (head.action (terms.reverse ++ e)) := by
  induction h generalizing terms with
  | @single t operand ht =>
    rw [← List.reverse_cons]
    exact .operand ht .joint
  | @join t plus operand ts e ht hp _ ih =>
    have hr := ih (operand :: terms)
    rw [List.reverse_cons, List.append_assoc] at hr
    exact .operand ht (.operator hp hr)

private theorem Completes.operands {head : Head} {terms : List (Term ι)} {ts : List (Token ι)}
    {action : Action ι} (h : Completes (.term head terms) ts action) :
    ∃ e, Operands ts e ∧ action = head.action (terms.reverse ++ e) := by
  match h with
  | .operand ht .joint => exact ⟨[_], .single ht, by rw [List.reverse_cons]⟩
  | .operand ht (.operator hp h) =>
    obtain ⟨e, ho, rfl⟩ := h.operands
    exact ⟨_ :: e, .join ht hp ho, by rw [List.reverse_cons, List.append_assoc]; rfl⟩
termination_by ts.length

/-- Where a term is due, an expression follows. -/
private theorem completes_term_iff {head : Head} {terms : List (Term ι)} {ts : List (Token ι)}
    {action : Action ι} :
    Completes (.term head terms) ts action ↔
      ∃ e, Operands ts e ∧ action = head.action (terms.reverse ++ e) := by
  constructor
  · exact Completes.operands
  · rintro ⟨e, h, rfl⟩
    exact h.completes head terms

private theorem Body.completes {word : String} {ts : List (Token ι)} {action : Action ι}
    (h : Body word ts action) :
    ∃ k : Keyword, k.word = word ∧ Completes (.ofKeyword k) ts action := by
  cases h with
  | append hn ho => exact ⟨.change .append, rfl, .target hn (ho.completes _ [])⟩
  | set hn ho => exact ⟨.change .set, rfl, .target hn (ho.completes _ [])⟩
  | reverse hn => exact ⟨.change .reverse, rfl, .target hn .closing⟩
  | print hp ho => exact ⟨.print _, (mem_printing_iff.mp hp).symm, ho.completes _ []⟩
  | list => exact ⟨.list, rfl, .closing⟩
  | exit => exact ⟨.exit, rfl, .closing⟩

/-- Behind its keyword a statement goes on with its body. -/
theorem completes_ofKeyword_iff {k : Keyword} {ts : List (Token ι)} {action : Action ι} :
    Completes (.ofKeyword k) ts action ↔ Body k.word ts action := by
  constructor
  · intro h
    cases k with
    | change what =>
      obtain ⟨hn, h⟩ := h
      cases what with
      | append =>
        obtain ⟨e, ho, rfl⟩ := completes_term_iff.mp h
        exact .append hn ho
      | set =>
        obtain ⟨e, ho, rfl⟩ := completes_term_iff.mp h
        exact .set hn ho
      | reverse =>
        cases h
        exact .reverse hn
    | print aspect =>
      obtain ⟨e, ho, rfl⟩ := completes_term_iff.mp h
      exact .print (mem_printing_iff.mpr rfl) ho
    | list =>
      cases h
      exact .list
    | exit =>
      cases h
      exact .exit
  · intro h
    obtain ⟨k', hw, hc⟩ := h.completes
    exact Keyword.word_injective hw ▸ hc

/-- One more token of a statement is one step from stage to stage. -/
theorem completes_cons_iff {stage : Stage ι} {t : Token ι} {ts : List (Token ι)} {action : Action ι}
    (start : ι) : Completes stage (t :: ts) action ↔
      ∃ next, stage.step start t = .advance (.inside start next) ∧ Completes next ts action := by
  constructor
  · intro h
    cases h with
    | target hn h => exact ⟨_, by simp [Stage.step, hn], h⟩
    | operand ht h => exact ⟨_, by simp [Stage.step, operand_iff.mp ht], h⟩
    | operator hp h => exact ⟨_, by simp [Stage.step, hp], h⟩
  · rintro ⟨next, hs, h⟩
    cases stage with
    | target what =>
      cases hk : t.kind <;> simp [Stage.step, hk] at hs
      exact .target hk (hs ▸ h)
    | term head terms =>
      cases ht : Term.ofToken? t <;> simp [Stage.step, ht] at hs
      exact .operand (operand_iff.mpr ht) (hs ▸ h)
    | joint head terms last =>
      cases hk : t.kind <;> simp [Stage.step, hk] at hs
      exact .operator hk (hs ▸ h)
    | closing action =>
      cases hk : t.kind <;> simp [Stage.step, hk] at hs

/-- The terminator completes a statement exactly where no token is missing. -/
theorem step_complete_iff {stage : Stage ι} {start : ι} {t : Token ι} {c : Command ι} :
    stage.step start t = .complete c ↔
      t.kind = .terminator ∧ c.span = ⟨start, t.span.stop⟩ ∧ Completes stage [] c.action := by
  obtain ⟨action, span⟩ := c
  constructor
  · intro hs
    cases stage with
    | target what => cases hk : t.kind <;> simp [Stage.step, hk] at hs
    | term head terms => cases ht : Term.ofToken? t <;> simp [Stage.step, ht] at hs
    | joint head terms last =>
      cases hk : t.kind <;> simp [Stage.step, hk] at hs
      obtain ⟨rfl, rfl⟩ := hs
      exact ⟨rfl, rfl, .joint⟩
    | closing action =>
      cases hk : t.kind <;> simp [Stage.step, hk] at hs
      obtain ⟨rfl, rfl⟩ := hs
      exact ⟨rfl, rfl, .closing⟩
  · rintro ⟨hk, rfl, h⟩
    cases h <;> simp [Stage.step, hk, Head.action]

/-- The tokens that lead from a phase to the end, and the commands that they complete. -/
inductive Finishes : Phase ι → List (Token ι) → List (Command ι) → Prop
  | between {ts : List (Token ι)} {cut : List (List (Token ι) × Command ι)} :
      Cut ts cut → Finishes .between ts (cut.map Prod.snd)
  | inside {start : ι} {stage : Stage ι} {ts rest : List (Token ι)} {action : Action ι} {close : Token ι}
      {later : List (Command ι)} :
      Completes stage ts action → close.kind = .terminator → Finishes .between rest later →
      Finishes (.inside start stage) (ts ++ close :: rest)
        (⟨action, ⟨start, close.span.stop⟩⟩ :: later)

theorem finishes_between_iff {ts : List (Token ι)} {cs : List (Command ι)} :
    Finishes .between ts cs ↔ ∃ cut, Cut ts cut ∧ cs = cut.map Prod.snd := by
  constructor
  · rintro (hc | _)
    exact ⟨_, hc, rfl⟩
  · rintro ⟨cut, hc, rfl⟩
    exact .between hc

private theorem finishes_inside_iff {start : ι} {stage : Stage ι} {ts : List (Token ι)}
    {cs : List (Command ι)} :
    Finishes (.inside start stage) ts cs ↔ ∃ front close rest action later,
      ts = front ++ close :: rest ∧ Completes stage front action ∧ close.kind = .terminator ∧
      cs = ⟨action, ⟨start, close.span.stop⟩⟩ :: later ∧ Finishes .between rest later := by
  constructor
  · rintro (_ | ⟨hc, hk, hf⟩)
    exact ⟨_, _, _, _, _, rfl, hc, hk, rfl, hf⟩
  · rintro ⟨front, close, rest, action, later, rfl, hc, hk, rfl, hf⟩
    exact .inside hc hk hf

theorem finishes_nil_iff {phase : Phase ι} {cs : List (Command ι)} :
    Finishes phase [] cs ↔ phase = .between ∧ cs = [] := by
  cases phase with
  | between =>
    rw [finishes_between_iff]
    constructor
    · rintro ⟨cut, hc, rfl⟩
      generalize hn : ([] : List (Token ι)) = ts at hc
      cases hc with
      | nil => exact ⟨rfl, rfl⟩
      | cons hs _ =>
        obtain ⟨front, close, rfl, _⟩ := hs.last_terminator
        simp at hn
    · rintro ⟨_, rfl⟩
      exact ⟨[], .nil, rfl⟩
  | inside start stage => simp [finishes_inside_iff]

private theorem finishes_keyword_iff {t : Token ι} {ts : List (Token ι)} {cs : List (Command ι)} :
    Finishes .between (t :: ts) cs ↔
      ∃ k, t.keyword? = some k ∧ Finishes (.inside t.span.start (.ofKeyword k)) ts cs := by
  rw [finishes_between_iff]
  constructor
  · rintro ⟨cut, hc, rfl⟩
    generalize hn : t :: ts = tokens at hc
    cases hc with
    | nil => cases hn
    | cons hs hr =>
      obtain ⟨hk, hb, hc⟩ := hs
      obtain ⟨rfl, rfl⟩ := List.cons.inj hn
      obtain ⟨k, hw, hb⟩ := hb.completes
      have hf : Finishes (.inside t.span.start (.ofKeyword k)) _ _ := .inside hb hc (.between hr)
      exact ⟨k, Token.keyword?_eq_some_iff.mpr ⟨hk, hw.symm⟩, by simpa using hf⟩
  · rintro ⟨k, hk, hf⟩
    obtain ⟨hk, hw⟩ := Token.keyword?_eq_some_iff.mp hk
    obtain ⟨front, close, rest, action, later, rfl, hb, hc, rfl, hl⟩ := finishes_inside_iff.mp hf
    obtain ⟨cut, hr, rfl⟩ := finishes_between_iff.mp hl
    have hs := Statement.intro hk (hw ▸ completes_ofKeyword_iff.mp hb) hc
    exact ⟨_, by simpa using Cut.cons hs hr, rfl⟩

private theorem finishes_stage_iff {start : ι} {stage : Stage ι} {t : Token ι} {ts : List (Token ι)}
    {cs : List (Command ι)} : Finishes (.inside start stage) (t :: ts) cs ↔
      (∃ next, stage.step start t = .advance (.inside start next) ∧
        Finishes (.inside start next) ts cs) ∨
      ∃ c later, stage.step start t = .complete c ∧ cs = c :: later ∧ Finishes .between ts later := by
  rw [finishes_inside_iff]
  constructor
  · rintro ⟨front, close, rest, action, later, he, hb, hk, rfl, hf⟩
    cases front with
    | nil =>
      obtain ⟨rfl, rfl⟩ := List.cons.inj he
      exact .inr ⟨_, later, step_complete_iff.mpr ⟨hk, rfl, hb⟩, rfl, hf⟩
    | cons u front =>
      obtain ⟨rfl, rfl⟩ := List.cons.inj he
      obtain ⟨next, hs, hb⟩ := (completes_cons_iff start).mp hb
      exact .inl ⟨next, hs, .inside hb hk hf⟩
  · rintro (⟨next, hs, hf⟩ | ⟨⟨action, span⟩, later, hs, rfl, hf⟩)
    · obtain ⟨front, close, rest, action, later, rfl, hb, hk, rfl, hl⟩ := finishes_inside_iff.mp hf
      exact ⟨t :: front, close, rest, action, later, rfl,
        (completes_cons_iff start).mpr ⟨next, hs, hb⟩, hk, rfl, hl⟩
    · obtain ⟨hk, rfl, hb⟩ := step_complete_iff.mp hs
      exact ⟨[], t, ts, action, later, rfl, hb, hk, rfl, hf⟩

/-- A statement that is being read stays the same statement until it is complete. -/
theorem step_inside {start : ι} {stage : Stage ι} {t : Token ι} {next : Phase ι}
    (h : stage.step start t = .advance next) : ∃ later, next = .inside start later := by
  cases stage <;> simp only [Stage.step] at h <;> split at h <;> simp at h <;> exact ⟨_, h.symm⟩

/-- One more token is one step from phase to phase. -/
theorem finishes_cons_iff {phase : Phase ι} {t : Token ι} {ts : List (Token ι)} {cs : List (Command ι)} :
    Finishes phase (t :: ts) cs ↔
      (∃ next, phase.step t = .advance next ∧ Finishes next ts cs) ∨
      ∃ c later, phase.step t = .complete c ∧ cs = c :: later ∧ Finishes .between ts later := by
  cases phase with
  | between =>
    rw [finishes_keyword_iff]
    cases hk : t.keyword? with
    | none => simp [Phase.step, hk]
    | some k => simp [Phase.step, hk]
  | inside start stage =>
    rw [finishes_stage_iff]
    refine or_congr ⟨?_, ?_⟩ Iff.rfl
    · rintro ⟨next, hs, hf⟩
      exact ⟨_, hs, hf⟩
    · rintro ⟨next, hs, hf⟩
      obtain ⟨later, rfl⟩ := step_inside hs
      exact ⟨later, hs, hf⟩

end StringProcessor.Grammar
