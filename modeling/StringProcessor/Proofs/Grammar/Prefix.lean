import StringProcessor.Proofs.Grammar.Residual

/-! Beginnings of statements. Whatever stage a statement has come to, it can still be completed, so
the tokens up to there begin a list of statements; and what they leave open is one statement. -/
namespace StringProcessor.Grammar
open StringProcessor.Statement
variable {ι : Type}

/-- Some tokens behind these make a list of statements of them. -/
def Viable (ts : List (Token ι)) : Prop := ∃ rest cut, Cut (ts ++ rest) cut

/-- The tokens begin a statement with this keyword, and it lacks at least one token more. -/
def Unfinished (k : Keyword) (ts : List (Token ι)) : Prop :=
  ∃ key others missing c, ts = key :: others ∧ key.text = k.word ∧ missing ≠ [] ∧
    Statement (ts ++ missing) c

private theorem Cut.concat {ts st : List (Token ι)} {cut : List (List (Token ι) × Command ι)} {c : Command ι}
    (h : Cut ts cut) (hs : Statement st c) : Cut (ts ++ st) (cut ++ [(st, c)]) := by
  induction h with
  | nil => simpa using Cut.cons hs .nil
  | cons hf _ ih =>
    rw [List.append_assoc]
    exact .cons hf ih

/-- An unfinished statement has no whole one in front. -/
theorem Unfinished.no_statement {k : Keyword} {ts front rest : List (Token ι)} {c : Command ι}
    (h : Unfinished k ts) (he : ts = front ++ rest) : ¬ Statement front c := by
  obtain ⟨_, _, missing, c', _, _, hm, hs⟩ := h
  intro hf
  rw [he, List.append_assoc] at hs
  have hu : [] = rest ++ missing := (hs.front_unique hf (List.append_nil _)).2
  exact hm (List.append_eq_nil_iff.mp hu.symm).2

private theorem head_keyword (value : Expression ι) (head : Head) :
    (head.action value).keyword = head.keyword := by
  cases head <;> rfl

private theorem ofTarget_keyword (name : String) (what : Change) :
    (Stage.ofTarget name what : Stage ι).keyword = .change what := by
  cases what <;> rfl

private theorem ofKeyword_keyword (k : Keyword) : (Stage.ofKeyword k : Stage ι).keyword = k := by
  cases k <;> rfl

/-- A statement completes an action of its own keyword. -/
theorem Completes.keyword {stage : Stage ι} {ts : List (Token ι)} {action : Action ι}
    (h : Completes stage ts action) : action.keyword = stage.keyword := by
  induction h with
  | target _ _ ih => rw [ih, ofTarget_keyword]; rfl
  | operand _ _ ih => exact ih
  | operator _ _ ih => exact ih
  | joint => exact head_keyword _ _
  | closing => rfl

/-- Every stage can be completed, wherever the tokens for it are taken from. -/
private theorem exists_completes (span : Span ι) (stage : Stage ι) :
    ∃ ts action, Completes stage ts action := by
  have hterm (head : Head) (terms : List (Term ι)) : ∃ ts action, Completes (.term head terms) ts action :=
    ⟨[⟨.name, "", span⟩], _, .operand (.symbol _ _) .joint⟩
  cases stage with
  | target what =>
    obtain ⟨ts, action, h⟩ : ∃ ts action, Completes (.ofTarget "" what) ts action := by
      cases what with
      | append => exact hterm (.append "") []
      | set => exact hterm (.set "") []
      | reverse => exact ⟨[], _, .closing⟩
    exact ⟨⟨.name, "", span⟩ :: ts, action, .target rfl h⟩
  | term head terms => exact hterm head terms
  | joint head terms last => exact ⟨[], _, .joint⟩
  | closing action => exact ⟨[], action, .closing⟩

/-- What the tokens up to a phase are made of: whole statements, and behind them, inside a statement,
its keyword and the tokens from there to the stage. -/
inductive Reached : List (Token ι) → List (List (Token ι) × Command ι) → Phase ι → Prop
  | between {ts : List (Token ι)} {cut : List (List (Token ι) × Command ι)} : Cut ts cut →
      Reached ts cut .between
  | inside {whole others : List (Token ι)} {cut : List (List (Token ι) × Command ι)} {key : Token ι}
      {k : Keyword} {stage : Stage ι} : Cut whole cut → key.keyword? = some k →
      (∀ ts action, Completes stage ts action → Completes (.ofKeyword k) (others ++ ts) action) →
      Reached (whole ++ key :: others) cut (.inside key.span.start stage)

theorem reached_between_iff {ts : List (Token ι)} {cut : List (List (Token ι) × Command ι)} :
    Reached ts cut .between ↔ Cut ts cut := by
  constructor
  · rintro ⟨hc⟩
    exact hc
  · exact .between

namespace Reached
variable {ts : List (Token ι)} {cut : List (List (Token ι) × Command ι)} {phase next : Phase ι} {t : Token ι}

private theorem statement {others more : List (Token ι)} {key close : Token ι} {k : Keyword}
    {action : Action ι} (hk : key.keyword? = some k)
    (h : Completes (.ofKeyword k) (others ++ more) action) (hc : close.kind = .terminator) :
    Statement (key :: others ++ (more ++ [close])) ⟨action, ⟨key.span.start, close.span.stop⟩⟩ := by
  obtain ⟨hkind, hword⟩ := Token.keyword?_eq_some_iff.mp hk
  have hb := completes_ofKeyword_iff.mp h
  rw [← hword] at hb
  simpa using Statement.intro hkind hb hc

/-- A token that is gone on with. -/
theorem advance (h : Reached ts cut phase) (hs : phase.step t = .advance next) :
    Reached (ts ++ [t]) cut next := by
  cases h with
  | between hc =>
    simp only [Phase.step] at hs
    split at hs
    · rename_i k hk
      cases hs
      exact .inside hc hk fun _ _ h => h
    · cases hs
  | @inside whole others cut key k stage hc hk hr =>
    obtain ⟨later, rfl⟩ := step_inside hs
    rw [List.append_assoc, List.cons_append]
    refine .inside hc hk fun us action h => ?_
    rw [List.append_assoc]
    exact hr _ _ ((completes_cons_iff _).mpr ⟨later, hs, h⟩)

/-- A token that ends a statement. -/
theorem complete {c : Command ι} (h : Reached ts cut phase) (hs : phase.step t = .complete c) :
    ∃ st, Reached (ts ++ [t]) (cut ++ [(st, c)]) .between := by
  cases h with
  | between hc =>
    simp only [Phase.step] at hs
    split at hs <;> cases hs
  | @inside whole others cut key k stage hc hk hr =>
    obtain ⟨action, span⟩ := c
    obtain ⟨ht, rfl, h⟩ := step_complete_iff.mp hs
    have hst := statement hk (hr _ _ h) ht
    exact ⟨key :: others ++ [t], .between (by simpa using hc.concat hst)⟩

/-- The tokens up to a phase are those of whole statements and of one that is not finished. -/
theorem unfinished (h : Reached ts cut phase) :
    ∃ whole part, ts = whole ++ part ∧ Cut whole cut ∧
      (phase = .between ∧ part = [] ∨
        ∃ start stage, phase = .inside start stage ∧ Unfinished stage.keyword part) := by
  cases h with
  | between hc => exact ⟨ts, [], (List.append_nil ts).symm, hc, .inl ⟨rfl, rfl⟩⟩
  | @inside whole others cut key k stage hc hk hr =>
    obtain ⟨more, action, hm⟩ := exists_completes key.span stage
    have hkey : stage.keyword = k := by
      rw [← hm.keyword, (hr _ _ hm).keyword, ofKeyword_keyword]
    let close : Token ι := ⟨.terminator, ";", key.span⟩
    have hc' : close.kind = .terminator := rfl
    have hs := statement hk (hr _ _ hm) hc'
    refine ⟨whole, _, rfl, hc, .inr ⟨_, stage, rfl, key, others, _, _, rfl, ?_, ?_, hs⟩⟩
    · rw [hkey]
      exact (Token.keyword?_eq_some_iff.mp hk).2
    · simp

theorem viable (h : Reached ts cut phase) : Viable ts := by
  obtain ⟨whole, part, rfl, hc, ⟨-, rfl⟩ | ⟨_, _, -, _, _, missing, c, rfl, _, _, hs⟩⟩ := h.unfinished
  · exact ⟨[], cut, by simpa using hc⟩
  · exact ⟨missing, _, by simpa using hc.concat hs⟩

end Reached
end StringProcessor.Grammar
