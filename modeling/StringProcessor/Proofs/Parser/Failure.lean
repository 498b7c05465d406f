import StringProcessor.Proofs.Grammar.Parts
import StringProcessor.Proofs.Grammar.Prefix
import StringProcessor.Proofs.Parser.Acceptance

/-! Where a parser fails: at the first token that no list of statements can go on with, or at the end
of tokens that leave a statement open. -/
namespace StringProcessor.Parser
open Grammar Statement
variable {ι : Type}

namespace Cursor

/-- From one cursor to another, over these tokens and the commands that they complete. -/
inductive Reaches : Cursor ι → List (Token ι) → List (Command ι) → Cursor ι → Prop
  | here {c : Cursor ι} : Reaches c [] [] c
  | advance {c c' : Cursor ι} {t : Token ι} {ts : List (Token ι)} {cs : List (Command ι)} {phase : Phase ι} :
      c.phase.step t = .advance phase → Reaches (c.pass t phase) ts cs c' → Reaches c (t :: ts) cs c'
  | complete {c c' : Cursor ι} {t : Token ι} {ts : List (Token ι)} {cs : List (Command ι)} {command : Command ι} :
      c.phase.step t = .complete command → Reaches (c.pass t .between) ts cs c' →
      Reaches c (t :: ts) (command :: cs) c'

/-- The cursor cannot go on: it is at the end inside a statement, or in front of a token that is
rejected. -/
inductive Stuck (c : Cursor ι) : List (Token ι) → Prop
  | atEnd : c.phase ≠ .between → Stuck c []
  | rejected {t : Token ι} {ts : List (Token ι)} : c.phase.step t = .reject → Stuck c (t :: ts)

theorem Reaches.position {c c' : Cursor ι} {ts : List (Token ι)} {cs : List (Command ι)}
    (h : Reaches c ts cs c') : c'.position = c.position + ts.length := by
  induction h with
  | here => rfl
  | advance _ _ ih | complete _ _ ih =>
    rw [ih, position_pass, List.length_cons]
    omega

theorem Reaches.before {c c' : Cursor ι} {ts : List (Token ι)} {cs : List (Command ι)}
    (h : Reaches c ts cs c') : c'.before = ts.getLast?.or c.before := by
  induction h with
  | here => rfl
  | advance _ _ ih | complete _ _ ih =>
    rw [ih, before_pass, List.getLast?_cons]
    cases List.getLast? _ <;> rfl

/-- What is reached has been reached by the grammar too. -/
theorem Reaches.reached {c c' : Cursor ι} {ts : List (Token ι)} {cs : List (Command ι)}
    (h : Reaches c ts cs c') {front : List (Token ι)} {cut : List (List (Token ι) × Command ι)}
    (hr : Reached front cut c.phase) :
    ∃ cut', Reached (front ++ ts) (cut ++ cut') c'.phase ∧ cut'.map Prod.snd = cs := by
  induction h generalizing front cut with
  | here => exact ⟨[], by simpa using hr, rfl⟩
  | advance hs _ ih =>
    obtain ⟨cut', hr', hc⟩ := ih (hr.advance hs)
    exact ⟨cut', by simpa using hr', hc⟩
  | complete hs _ ih =>
    obtain ⟨st, hr'⟩ := hr.complete hs
    obtain ⟨cut', hr', hc⟩ := ih hr'
    exact ⟨(st, _) :: cut', by simpa using hr', by simp [hc]⟩

/-- The last token is known where a statement is open. -/
theorem Reaches.last {c : Cursor ι} {ts : List (Token ι)} {cs : List (Command ι)} (h : Reaches {} ts cs c)
    (hp : c.phase ≠ .between) : ∃ t, ts.getLast? = some t ∧ c.before = some t := by
  have hb := h.before
  rw [Option.or_none] at hb
  cases hl : ts.getLast? with
  | some t => exact ⟨t, rfl, hb.trans hl⟩
  | none =>
    rw [List.getLast?_eq_none_iff] at hl
    subst hl
    cases h
    exact absurd rfl hp

variable [Add ι] [OfNat ι 0] [OfNat ι 1]

theorem Stuck.read {c : Cursor ι} {ts : List (Token ι)} (h : c.Stuck ts) :
    c.read ts = ([], some (c.fault ts)) := by
  cases h with
  | atEnd hp =>
    cases hc : c.phase with
    | between => exact absurd hc hp
    | inside start stage => simp [Cursor.read, hc]
  | rejected hs => simp [Cursor.read, hs]

theorem Reaches.read {c c' : Cursor ι} {ts : List (Token ι)} {cs : List (Command ι)}
    (h : Reaches c ts cs c') (rest : List (Token ι)) :
    c.read (ts ++ rest) = (cs ++ (c'.read rest).1, (c'.read rest).2) := by
  induction h with
  | here => rfl
  | advance hs _ ih => simp only [List.cons_append, Cursor.read, hs, ih]
  | complete hs _ ih => simp only [List.cons_append, Cursor.read, hs, ih]

/-- Reading goes on until it is between statements at the end, or until it gets stuck. -/
private theorem exists_reaches (c : Cursor ι) (ts : List (Token ι)) :
    ∃ front rest c', ts = front ++ rest ∧ Reaches c front (c.read ts).1 c' ∧
      (rest = [] ∧ c'.phase = .between ∧ (c.read ts).2 = none ∨
        c'.Stuck rest ∧ (c.read ts).2 = some (c'.fault rest)) := by
  induction ts generalizing c with
  | nil =>
    refine ⟨[], [], c, rfl, ?_⟩
    cases hp : c.phase with
    | between =>
      have hread : c.read [] = ([], none) := by simp [Cursor.read, hp]
      rw [hread]
      exact ⟨.here, .inl ⟨rfl, rfl, rfl⟩⟩
    | inside start stage =>
      have hs : c.Stuck [] := .atEnd (by simp [hp])
      rw [hs.read]
      exact ⟨.here, .inr ⟨hs, rfl⟩⟩
  | cons t ts ih =>
    cases hs : c.phase.step t with
    | reject =>
      have hst : c.Stuck (t :: ts) := .rejected hs
      rw [hst.read]
      exact ⟨[], t :: ts, c, rfl, .here, .inr ⟨hst, rfl⟩⟩
    | advance phase =>
      obtain ⟨front, rest, c', rfl, hr, hend⟩ := ih (c.pass t phase)
      simp only [Cursor.read, hs]
      exact ⟨t :: front, rest, c', rfl, .advance hs hr, hend⟩
    | complete command =>
      obtain ⟨front, rest, c', rfl, hr, hend⟩ := ih (c.pass t .between)
      simp only [Cursor.read, hs]
      exact ⟨t :: front, rest, c', rfl, .complete hs hr, hend⟩

/-- Reading that ends in a fault gets stuck somewhere. -/
theorem exists_stuck {c : Cursor ι} {ts : List (Token ι)} {cs : List (Command ι)} {d : Diagnostic ι}
    (h : c.read ts = (cs, some d)) :
    ∃ front rest c', ts = front ++ rest ∧ Reaches c front cs c' ∧ c'.Stuck rest ∧
      d = c'.fault rest := by
  obtain ⟨front, rest, c', ht, hr, hend⟩ := exists_reaches c ts
  rw [h] at hr hend
  obtain ⟨-, -, hn⟩ | ⟨hs, hd⟩ := hend
  · cases hn
  · exact ⟨front, rest, c', ht, hr, hs, Option.some.inj hd⟩

/-- Reading that ends without a fault ends between statements. -/
theorem exists_between {c : Cursor ι} {ts : List (Token ι)} {cs : List (Command ι)}
    (h : c.read ts = (cs, none)) : ∃ c', Reaches c ts cs c' ∧ c'.phase = .between := by
  obtain ⟨front, rest, c', rfl, hr, hend⟩ := exists_reaches c ts
  rw [h] at hr hend
  obtain ⟨rfl, hp, -⟩ | ⟨-, hd⟩ := hend
  · exact ⟨c', by rwa [List.append_nil], hp⟩
  · cases hd

/-- The commands that are read are those of whole statements in front. -/
theorem read_commands (tokens : List (Token ι)) :
    ∃ whole rest cut, tokens = whole ++ rest ∧ Cut whole cut ∧
      (({} : Cursor ι).read tokens).1 = cut.map Prod.snd := by
  cases hf : (({} : Cursor ι).read tokens).2 with
  | none =>
    have hb := (read_eq_iff {} tokens _).mp (Prod.ext rfl hf)
    obtain ⟨cut, hc, hm⟩ := finishes_between_iff.mp hb
    exact ⟨tokens, [], cut, (List.append_nil _).symm, hc, hm⟩
  | some d =>
    obtain ⟨front, rest, c, rfl, hr, -, -⟩ := exists_stuck (Prod.ext rfl hf)
    obtain ⟨cut, hreached, hm⟩ := hr.reached (.between .nil)
    obtain ⟨whole, part, rfl, hc, -⟩ := hreached.unfinished
    exact ⟨whole, part ++ rest, cut, List.append_assoc .., hc, hm.symm⟩

theorem read_statement {tokens : List (Token ι)} {c : Command ι}
    (h : c ∈ (({} : Cursor ι).read tokens).1) :
    ∃ front statement rest, tokens = front ++ (statement ++ rest) ∧ Statement statement c := by
  obtain ⟨whole, rest, cut, rfl, hcut, hm⟩ := read_commands tokens
  rw [hm] at h
  obtain ⟨⟨statement, c⟩, hmem, rfl⟩ := List.mem_map.mp h
  obtain ⟨before, after, rfl⟩ := List.append_of_mem hmem
  obtain ⟨front, behind, rfl, -, hs⟩ := hcut.split
  exact ⟨front, statement, behind ++ rest, by simp, hs⟩

/-- Where a cursor is stuck, no statements go on. -/
private theorem Stuck.no_cut {c : Cursor ι} {front rest : List (Token ι)} {cs : List (Command ι)}
    (hr : Reaches {} front cs c) (h : c.Stuck rest) : ¬ ∃ cut, Cut (front ++ rest) cut := by
  rintro ⟨cut, hc⟩
  have hn := (read_eq_iff {} _ _).mpr (.between hc)
  rw [hr.read, h.read] at hn
  simp at hn

private theorem Stuck.not_viable {c : Cursor ι} {front rest : List (Token ι)} {t : Token ι}
    {cs : List (Command ι)}
    (hr : Reaches {} front cs c) (h : c.Stuck (t :: rest)) : ¬ Viable (front ++ [t]) := by
  rintro ⟨more, hm⟩
  have hs : c.Stuck (t :: more) := by
    obtain _ | hs := h
    exact .rejected hs
  have hm' : ∃ cut, Cut (front ++ t :: more) cut := by simpa using hm
  exact hs.no_cut hr hm'

private theorem span_fault_end {c : Cursor ι} {t : Token ι} (h : c.before = some t) :
    (c.fault []).span = .single t.span.stop := by
  simp [fault, Phase.fault, Gap.span, h, Diagnostic.withHelp, Diagnostic.malformedStatement]

/-- A fault points at a token or behind one. -/
theorem Stuck.fault_span {c : Cursor ι} {front rest : List (Token ι)} {cs : List (Command ι)}
    (h : c.Stuck rest) (hr : Reaches {} front cs c) :
    ∃ t ∈ front ++ rest, (c.fault rest).span = t.span ∨ (c.fault rest).span = .single t.span.stop := by
  cases h with
  | atEnd hp =>
    obtain ⟨t, hlast, hb⟩ := hr.last hp
    exact ⟨t, by simp [List.mem_of_getLast? hlast], .inr (span_fault_end hb)⟩
  | @rejected t ts hs => exact ⟨t, by simp, .inl rfl⟩

def context (c : Cursor ι) : Diagnostic.Context :=
  ⟨c.phase.state.label, c.phase.state.keyword?.map Keyword.word, c.position⟩

end Cursor

private theorem label_ne_root (k : Keyword) : "command(" ++ k.word ++ ")" ≠ "root" := by
  intro h
  have hl := congrArg String.toList h
  simp at hl

private theorem nil_not_statement {front rest : List (Token ι)} {c : Command ι} (h : [] = front ++ rest) :
    ¬ Statement front c := by
  intro hs
  obtain ⟨before, close, rfl, _⟩ := hs.last_terminator
  simp at h

variable [Add ι] [OfNat ι 0] [OfNat ι 1]

/-- A fault that is reported as early as it can be, and the context that it is reported with. -/
structure Earliest (tokens : List (Token ι)) (collected : List (Command ι)) (fault : Diagnostic ι)
    (context : Diagnostic.Context) : Prop where
  given : fault.context = some context
  position_le : context.position ≤ tokens.length
  /-- Up to the position there could still be more statements to come. -/
  viable : Viable (tokens.take context.position)
  /-- The token there cannot be gone on with, and the fault points at it. -/
  rejected : ∀ t, tokens[context.position]? = some t →
    ¬ Viable (tokens.take (context.position + 1)) ∧ fault.span = t.span
  /-- At the end there are no whole statements, and the fault points behind the last token. -/
  ended : context.position = tokens.length → (¬ ∃ cut, Cut tokens cut) ∧
    ∃ last, tokens.getLast? = some last ∧ fault.span = .single last.span.stop
  /-- The commands are those of all the statements that are whole, and the context names the one
  that is not. -/
  read : ∃ whole part cut, tokens.take context.position = whole ++ part ∧ Cut whole cut ∧
    collected = cut.map Prod.snd ∧ (∀ front rest c, part = front ++ rest → ¬ Statement front c) ∧
    (part = [] ∧ context.state = "root" ∧ context.command = none ∨
      ∃ k, Unfinished k part ∧ context.state = "command(" ++ k.word ++ ")" ∧
        context.command = some k.word)
  root_iff : context.state = "root" ↔ ∃ cut, Cut (tokens.take context.position) cut

namespace Cursor
variable {c : Cursor ι} {front rest : List (Token ι)} {cs : List (Command ι)}

omit [Add ι] [OfNat ι 0] [OfNat ι 1] in
private theorem earliest_read (hr : Reaches {} front cs c) :
    ∃ whole part cut, front = whole ++ part ∧ Cut whole cut ∧ cs = cut.map Prod.snd ∧
      (∀ before after command, part = before ++ after → ¬ Statement before command) ∧
      (part = [] ∧ c.context.state = "root" ∧ c.context.command = none ∨
        ∃ k, Unfinished k part ∧ c.context.state = "command(" ++ k.word ++ ")" ∧
          c.context.command = some k.word) := by
  obtain ⟨cut, hreached, hc⟩ := hr.reached (.between .nil)
  obtain ⟨whole, part, hw, hcut, ⟨hp, rfl⟩ | ⟨start, stage, hp, hu⟩⟩ := hreached.unfinished
  · refine ⟨whole, [], cut, hw, hcut, hc.symm, fun _ _ _ h => nil_not_statement h, .inl ⟨rfl, ?_⟩⟩
    simp [context, hp, Phase.state, State.label, State.keyword?]
  · refine ⟨whole, part, cut, hw, hcut, hc.symm, fun _ _ _ h => hu.no_statement h,
      .inr ⟨stage.keyword, hu, ?_⟩⟩
    simp [context, hp, Phase.state, State.label, State.keyword?]

private theorem context_root_iff (hr : Reaches {} front cs c) :
    c.context.state = "root" ↔ ∃ cut, Cut front cut := by
  cases hp : c.phase with
  | between =>
    obtain ⟨cut, hreached, -⟩ := hr.reached (.between .nil)
    rw [hp] at hreached
    obtain ⟨hc⟩ := hreached
    simpa [context, hp, Phase.state, State.label] using ⟨_, hc⟩
  | inside start stage =>
    have hs : c.Stuck [] := .atEnd (by simp [hp])
    have hn := hs.no_cut hr
    rw [List.append_nil] at hn
    refine iff_of_false ?_ hn
    rw [context, hp]
    exact label_ne_root stage.keyword

/-- The fault of a cursor that is stuck is reported early. -/
private theorem Stuck.earliest (h : c.Stuck rest) (hr : Reaches {} front cs c) :
    Earliest (front ++ rest) cs (c.fault rest) c.context := by
  have hp : c.context.position = front.length := by simpa [context] using hr.position
  have htake : (front ++ rest).take c.context.position = front := by rw [hp, List.take_left]
  constructor
  case given => rfl
  case position_le =>
    rw [hp, List.length_append]
    omega
  case viable =>
    obtain ⟨cut, hreached, -⟩ := hr.reached (.between .nil)
    rw [htake]
    exact hreached.viable
  case rejected =>
    intro t ht
    rw [hp, List.getElem?_append_right (Nat.le_refl _), Nat.sub_self] at ht
    cases rest with
    | nil => simp at ht
    | cons u rest =>
      obtain rfl : u = t := by simpa using ht
      have hnext : (front ++ u :: rest).take (c.context.position + 1) = front ++ [u] := by
        simp [hp, List.take_append, List.take_of_length_le]
      rw [hnext]
      exact ⟨h.not_viable hr, rfl⟩
  case ended =>
    intro hend
    rw [hp, List.length_append] at hend
    obtain rfl : rest = [] := List.eq_nil_of_length_eq_zero (by omega)
    refine ⟨h.no_cut hr, ?_⟩
    obtain ⟨hphase⟩ := h
    obtain ⟨t, hlast, hb⟩ := hr.last hphase
    rw [List.append_nil]
    exact ⟨t, hlast, by rw [← span_fault_end hb]⟩
  case read =>
    rw [htake]
    exact earliest_read hr
  case root_iff =>
    rw [htake]
    exact context_root_iff hr

end Cursor

/-- A ready parser that collects commands reports the first token that no statements can go on with, or
that the tokens end too early. The character behind the last token is counted as the positions are: the
numbers may be of a fixed width, and start again from zero behind their greatest. -/
theorem parse_fails_earliest [ToString ι] (parser : Parser ι) (hp : parser.state = .ready)
    (tokens : List (Token ι)) (fault : Diagnostic ι)
    (h : (parser.parse collect [] tokens).answer = .refused fault) :
    ∃ context, Earliest tokens (parser.parse collect [] tokens).next.2.reverse fault context := by
  obtain ⟨hn, ha⟩ := parse_collect hp tokens
  rw [ha] at h
  rw [hn, List.reverse_reverse]
  cases hf : (({} : Cursor ι).read tokens).2 with
  | none => simp [hf] at h
  | some d =>
    simp only [hf, Option.elim_some, Verdict.refused.injEq] at h
    subst h
    obtain ⟨front, rest, c, ht, hr, hs, hd⟩ := Cursor.exists_stuck (Prod.ext rfl hf)
    have he := hs.earliest hr
    rw [← ht, ← hd] at he
    exact ⟨c.context, he⟩

/-- Behind a statement that is whole, an expression lacks its second term. And a keyword that ends at the
greatest number of 64 bits: the character behind it is counted as the first of all. -/
theorem parse_fails_at_missing_term :
    let tokens : List Token := [⟨.keyword, "list", ⟨0, 4⟩⟩, ⟨.terminator, ";", ⟨4, 5⟩⟩,
      ⟨.keyword, "set", ⟨5, 8⟩⟩, ⟨.name, "x", ⟨9, 10⟩⟩, ⟨.string, "a", ⟨11, 14⟩⟩,
      ⟨.operator, "+", ⟨15, 16⟩⟩, ⟨.terminator, ";", ⟨17, 18⟩⟩]
    let last : List (Token UInt64) := [⟨.keyword, "print", ⟨0, 18446744073709551615⟩⟩]
    (∃ fault context, (parse {} collect [] tokens).answer = .refused fault ∧
      fault.span = ⟨17, 18⟩ ∧ Earliest tokens [⟨.list, ⟨0, 5⟩⟩] fault context) ∧
    ∃ fault context, (parse {} collect [] last).answer = .refused fault ∧
      fault.span = ⟨18446744073709551615, 0⟩ ∧ Earliest last [] fault context := by
  intro tokens last
  obtain ⟨context, h⟩ := parse_fails_earliest {} rfl tokens _ rfl
  obtain ⟨context', h'⟩ := parse_fails_earliest {} rfl last _ rfl
  exact ⟨⟨_, context, rfl, rfl, h⟩, _, context', rfl, by decide, h'⟩

end StringProcessor.Parser
