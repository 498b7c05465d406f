import StringProcessor.Proofs.Grammar.Residual
import StringProcessor.Proofs.Parser.Reading

/-! Which lists of tokens a parser accepts: exactly those that the grammar cuts into statements. -/
namespace StringProcessor.Parser
open Grammar
variable {ι : Type}

section
variable [Add ι] [OfNat ι 0] [OfNat ι 1]

/-- Tokens are read without a fault exactly if they finish what is being read. -/
theorem Cursor.read_eq_iff (cursor : Cursor ι) (ts : List (Token ι)) (cs : List (Command ι)) :
    cursor.read ts = (cs, none) ↔ Finishes cursor.phase ts cs := by
  induction ts generalizing cursor cs with
  | nil =>
    rw [finishes_nil_iff]
    cases hp : cursor.phase <;> simp [read, hp, eq_comm]
  | cons t ts ih =>
    rw [finishes_cons_iff]
    cases hs : cursor.phase.step t with
    | reject => simp [read, hs]
    | advance phase => simpa [read, hs] using ih (cursor.pass t phase) cs
    | complete c =>
      have hl (later : List (Command ι)) := ih (cursor.pass t .between) later
      simp only [phase_pass] at hl
      simp only [read, hs, ← hl, Prod.ext_iff]
      constructor
      · rintro ⟨rfl, hn⟩
        exact .inr ⟨c, _, rfl, rfl, rfl, hn⟩
      · rintro (⟨_, ha, _⟩ | ⟨c', later, hc, rfl, hf, hn⟩)
        · cases ha
        · cases hc
          exact ⟨by rw [hf], hn⟩

private theorem finishes_unique {ts : List (Token ι)} {cs cs' : List (Command ι)}
    (h : Finishes .between ts cs) (h' : Finishes .between ts cs') : cs = cs' := by
  have hr := (Cursor.read_eq_iff {} ts cs).mpr h
  have hr' := (Cursor.read_eq_iff {} ts cs').mpr h'
  exact congrArg Prod.fst (hr.symm.trans hr')

private theorem statement_unique {ts : List (Token ι)} {c c' : Command ι} (h : Statement ts c)
    (h' : Statement ts c') : c = c' := by
  have hf := finishes_unique (.between (.cons h .nil)) (.between (.cons h' .nil))
  exact (List.cons.inj hf).1

/-- There is at most one way to cut tokens into statements. -/
theorem cut_unique {ts : List (Token ι)} {cut cut' : List (List (Token ι) × Command ι)} (h : Cut ts cut)
    (h' : Cut ts cut') : cut = cut' := by
  induction h generalizing cut' with
  | nil =>
    have hf := finishes_nil_iff.mp (.between h')
    exact (List.map_eq_nil_iff.mp hf.2).symm
  | @cons ts rest c cut hs hr ih =>
    -- The first terminator ends the first statement of either cut.
    generalize he : ts ++ rest = tokens at h'
    cases h' with
    | nil =>
      obtain ⟨front, close, rfl, _⟩ := hs.last_terminator
      simp at he
    | cons hs' hr' =>
      obtain ⟨rfl, rfl⟩ := hs.front_unique hs' he
      rw [statement_unique hs hs', ih hr']

/-- Statements one after the other are accepted, and their commands are collected. -/
theorem parse_cut [ToString ι] {parser : Parser ι} (hp : parser.state = .ready)
    {tokens : List (Token ι)} {cut : List (List (Token ι) × Command ι)} (h : Cut tokens cut) :
    let turn := parser.parse collect [] tokens
    turn.answer = .accepted ∧ turn.next.2.reverse = cut.map Prod.snd := by
  obtain ⟨hn, ha⟩ := parse_collect hp tokens
  have hr := (Cursor.read_eq_iff {} tokens _).mpr (.between h)
  rw [hr] at hn ha
  exact ⟨ha, by rw [hn, List.reverse_reverse]⟩

/-- A ready parser accepts tokens exactly if they are statements one after the other. It then has
collected the commands of these statements in their order, and they are cut out in one way only. What
earlier calls have left in the parser, and the numbers by which positions are given, have no part in it. -/
theorem parse_accepts_iff_statements [ToString ι] (parser : Parser ι) (hp : parser.state = .ready)
    (tokens : List (Token ι)) :
    let turn := parser.parse collect [] tokens
    (turn.answer = .accepted ↔ ∃ cut, Cut tokens cut) ∧
      ∀ cut, Cut tokens cut → turn.next.2.reverse = cut.map Prod.snd ∧
        ∀ other, Cut tokens other → other = cut := by
  obtain ⟨hn, ha⟩ := parse_collect hp tokens
  have hr := Cursor.read_eq_iff {} tokens
  refine ⟨?_, fun cut hc => ⟨?_, fun other ho => cut_unique ho hc⟩⟩
  · rw [ha]
    constructor
    · intro h
      cases hf : (({} : Cursor ι).read tokens).2 with
      | none =>
        have hb := (hr _).mp (Prod.ext rfl hf)
        obtain ⟨cut, hc, _⟩ := finishes_between_iff.mp hb
        exact ⟨cut, hc⟩
      | some d => simp [hf] at h
    · rintro ⟨cut, hc⟩
      rw [(hr _).mpr (.between hc)]
      rfl
  · rw [hn, (hr _).mpr (.between hc)]
    simp

end

/-- An assignment with a joined expression, behind a statement that needs no operand. The parser holds on to
tokens of an earlier call. -/
theorem parse_accepts_list_then_set :
    let parser : Parser := ⟨.verbose, .ready, [⟨.operator, "+", ⟨7, 7⟩⟩], 3⟩
    let tokens : List Token := [⟨.keyword, "list", ⟨0, 4⟩⟩, ⟨.terminator, ";", ⟨4, 5⟩⟩,
      ⟨.keyword, "set", ⟨5, 8⟩⟩, ⟨.name, "x", ⟨9, 10⟩⟩, ⟨.string, "a", ⟨11, 14⟩⟩,
      ⟨.operator, "+", ⟨15, 16⟩⟩, ⟨.name, "y", ⟨17, 18⟩⟩, ⟨.terminator, ";", ⟨18, 19⟩⟩]
    let turn := parser.parse collect [] tokens
    turn.answer = .accepted ∧ turn.next.2.reverse = [⟨.list, ⟨0, 5⟩⟩,
      ⟨.set "x" [.literal "a" ⟨11, 14⟩, .symbol "y" ⟨17, 18⟩], ⟨5, 19⟩⟩] := by
  intro parser tokens turn
  have hl := @Statement.intro Nat ⟨.keyword, "list", ⟨0, 4⟩⟩ ⟨.terminator, ";", ⟨4, 5⟩⟩ [] .list
    rfl .list rfl
  have hs := @Statement.intro Nat ⟨.keyword, "set", ⟨5, 8⟩⟩ ⟨.terminator, ";", ⟨18, 19⟩⟩
    [⟨.name, "x", ⟨9, 10⟩⟩, ⟨.string, "a", ⟨11, 14⟩⟩, ⟨.operator, "+", ⟨15, 16⟩⟩,
      ⟨.name, "y", ⟨17, 18⟩⟩] _ rfl (.set rfl (.join (.literal _ _) rfl (.single (.symbol _ _)))) rfl
  have hc : Cut tokens _ := .cons hl (.cons hs .nil)
  have h := parse_accepts_iff_statements parser rfl tokens
  exact ⟨h.1.mpr ⟨_, hc⟩, (h.2 _ hc).1⟩

end StringProcessor.Parser
