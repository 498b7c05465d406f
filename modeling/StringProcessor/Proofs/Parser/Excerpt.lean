import StringProcessor.Proofs.Batch.Excerpt
import StringProcessor.Proofs.Parser.Execution
import StringProcessor.Proofs.Parser.Move

/-! Commands cut out of their line. The characters that a command spans are a line of their own, which
asks for the same command; its terms stand inside its span, and the next command behind it. -/
namespace StringProcessor

section
variable {f g : Nat → Nat}

private theorem Term.move_back (h : ∀ n, g (f n) = n) (t : Term) : (t.move f).move g = t := by
  cases t <;> simp [move, Span.move, h]

private theorem Action.move_back (h : ∀ n, g (f n) = n) (action : Action) :
    (action.move f).move g = action := by
  cases action <;> simp [move, Function.comp_def, Term.move_back h]

/-- A command that is moved away and back is the same. -/
private theorem Command.move_back (h : ∀ n, g (f n) = n) (c : Command) : (c.move f).move g = c := by
  simp [move, Action.move_back h, Span.move, h]

end

namespace Grammar

/-- Tokens none of which is empty and each of which ends before the next begins. -/
structure InPlace (ts : List Token) : Prop where
  filled : ∀ t ∈ ts, t.span.start < t.span.stop
  ordered : ts.Pairwise fun t u => t.span.stop ≤ u.span.start

private theorem InPlace.of_append {ts rest : List Token} (h : InPlace (ts ++ rest)) :
    InPlace ts ∧ InPlace rest ∧ ∀ t ∈ ts, ∀ u ∈ rest, t.span.stop ≤ u.span.start := by
  obtain ⟨hts, hrest⟩ := List.forall_mem_append.mp h.filled
  obtain ⟨ho, ho', hbetween⟩ := List.pairwise_append.mp h.ordered
  exact ⟨⟨hts, ho⟩, ⟨hrest, ho'⟩, hbetween⟩

theorem Operand.span_eq {t : Token} {operand : Term} (h : Operand t operand) : operand.span = t.span := by
  cases h <;> rfl

/-- A statement has its terms between the keyword that its command starts with and the terminator that it
ends with. -/
private theorem Statement.encloses {ts : List Token} {c : Command} (h : Statement ts c) (hp : InPlace ts) :
    c.span.start < c.span.stop ∧ ∀ e ∈ c.action.value?, ∀ t ∈ e,
      c.span.start < t.span.start ∧ t.span.start < t.span.stop ∧ t.span.stop < c.span.stop := by
  obtain ⟨-, hb, -⟩ := h
  rename_i key close body action
  have hsplit : InPlace ([key] ++ (body ++ [close])) := hp
  obtain ⟨hkey, hrest, hbehind⟩ := hsplit.of_append
  obtain ⟨hbody, hclose, hbefore⟩ := hrest.of_append
  have hk : key.span.start < key.span.stop := hkey.filled key (by simp)
  have hc : close.span.start < close.span.stop := hclose.filled close (by simp)
  refine ⟨?_, fun e he t ht => ?_⟩
  · have hkc := hbehind key (by simp) close (by simp)
    show key.span.start < close.span.stop
    omega
  · obtain ⟨token, hm, ho⟩ := hb.operand_mem he ht
    have hkt := hbehind key (by simp) token (by simp [hm])
    have htoken := hbody.filled token hm
    have htc := hbefore token hm close (by simp)
    rw [ho.span_eq]
    show key.span.start < _ ∧ _ ∧ _ < close.span.stop
    omega

/-- The commands of statements stand one behind the other. -/
theorem Cut.ordered {ts : List Token} {cut : List (List Token × Command)} (h : Cut ts cut)
    (hp : InPlace ts) : (cut.map Prod.snd).Pairwise fun c d => c.span.stop ≤ d.span.start := by
  induction h with
  | nil => exact .nil
  | @cons ts rest c cut hs hr ih =>
    obtain ⟨-, hrest, hbetween⟩ := hp.of_append
    refine .cons (fun d hd => ?_) (ih hrest)
    obtain ⟨⟨st, d⟩, hmem, rfl⟩ := List.mem_map.mp hd
    obtain ⟨before, after, rfl⟩ := List.append_of_mem hmem
    obtain ⟨front, behind, rfl, -, hst⟩ := hr.split
    obtain ⟨_, _, close, rfl, -, -, -, hspan⟩ := hs.parts
    obtain ⟨key, _, _, rfl, -, -, -, hspan'⟩ := hst.parts
    rw [hspan, hspan']
    exact hbetween close (by simp) key (by simp)

end Grammar

namespace Parser
open Grammar

/-- The tokens of a statement ask for its command also where they stand in front of it. -/
private theorem commands_of_moved {tokens : List Token} {n : Nat} {c : Command}
    (h : Statement (tokens.map (Token.move (n + ·))) c) :
    commands tokens = ([c.move (· - n)], none) := by
  have hfurther : Cursor.Further n 0 {} {} := ⟨rfl, rfl, fun hne => absurd rfl hne⟩
  have hread := (Cursor.read_eq_iff {} _ [c]).mpr (.between (.cons h .nil))
  rw [List.append_nil, hfurther.read, ← commands_eq_read] at hread
  obtain ⟨hcommands, hfault⟩ := Prod.ext_iff.mp hread
  obtain ⟨c', hc', rfl⟩ := List.map_eq_singleton_iff.mp hcommands
  rw [Command.move_back (fun m => Nat.add_sub_cancel_left n m)]
  exact Prod.ext hc' (Option.map_eq_none_iff.mp hfault)

variable {σ ε : Type}

/-- Whoever receives the commands of a line, each of them can be cut out of the line: what it spans is a
line with this command alone, moved to the front. The terms of a command stand inside its span, and the
commands one behind the other. -/
theorem handed_commands_stand_alone {line : String} {tokens : List Token} (h : Batch.Whole line tokens)
    {parser : Parser} (hp : parser.state = .ready) (execute : Executor σ ε) (s : σ) :
    let handed := (parser.parse execute.recording (s, []) tokens).next.2.2.reverse
    (∀ c ∈ handed,
      (∃ excerpt, Batch.Whole (String.ofList (c.span.cut line.toList)) excerpt ∧
        commands excerpt = ([c.move (· - c.span.start)], none)) ∧
      c.span.start < c.span.stop ∧ c.span.stop ≤ line.length ∧
      ∀ e ∈ c.action.value?, ∀ t ∈ e,
        c.span.start < t.span.start ∧ t.span.start < t.span.stop ∧ t.span.stop < c.span.stop) ∧
    handed.Pairwise fun c d => c.span.stop ≤ d.span.start := by
  intro handed
  have hlaid := h.laid
  have hplace : InPlace tokens := ⟨fun t ht => (hlaid.placed t ht).1, hlaid.ordered⟩
  have hread : handed <+: (({} : Cursor).read tokens).1 := by
    have hhanded : handed = execute.handed s _ := parse_recording hp execute s tokens
    rw [hhanded]
    exact execute.handed_prefix s _
  refine ⟨fun c hc => ?_, ?_⟩
  · obtain ⟨front, statement, rest, rfl, hs⟩ := Cursor.read_statement (hread.subset hc)
    obtain ⟨key, body, close, rfl, -, -, hclose, hspan⟩ := hs.parts
    obtain ⟨hne, hterms⟩ := hs.encloses hplace.of_append.2.1.of_append.1
    obtain ⟨excerpt, hwhole, hmoved⟩ := h.excerpt hclose
    rw [← hspan] at hwhole hmoved
    rw [hmoved] at hs
    refine ⟨⟨excerpt, hwhole, commands_of_moved hs⟩, hne, ?_, hterms⟩
    rw [hspan, ← String.length_toList]
    exact (hlaid.placed close (by simp)).2
  · obtain ⟨whole, rest, cut, rfl, hcut, hcommands⟩ := Cursor.read_commands tokens
    rw [hcommands] at hread
    exact (hcut.ordered hplace.of_append.1).sublist hread.sublist

/-- A terminator in a literal does not end the excerpt, and a fault behind the command does not matter. -/
theorem handed_commands_stand_alone_before_fault :
    let tokens : List Token := [⟨.keyword, "exit", ⟨0, 4⟩⟩, ⟨.terminator, ";", ⟨4, 5⟩⟩,
      ⟨.keyword, "print", ⟨6, 11⟩⟩, ⟨.string, "a;", ⟨12, 16⟩⟩, ⟨.operator, "+", ⟨17, 18⟩⟩,
      ⟨.name, "y", ⟨19, 20⟩⟩, ⟨.terminator, ";", ⟨20, 21⟩⟩, ⟨.operator, "+", ⟨22, 23⟩⟩]
    let c : Command := ⟨.print .text [.literal "a;" ⟨12, 16⟩, .symbol "y" ⟨19, 20⟩], ⟨6, 21⟩⟩
    let alone : Command := ⟨.print .text [.literal "a;" ⟨6, 10⟩, .symbol "y" ⟨13, 14⟩], ⟨0, 15⟩⟩
    Batch.Whole "exit; print 'a;' + y; +" tokens ∧ (commands tokens).2.isSome ∧
      c ∈ (parse {} collect.recording ([], []) tokens).next.2.2.reverse ∧
      ∃ excerpt, Batch.Whole "print 'a;' + y;" excerpt ∧ commands excerpt = ([alone], none) := by
  intro tokens c alone
  have hwhole : Batch.Whole "exit; print 'a;' + y; +" tokens := ⟨rfl, rfl⟩
  have hc : c ∈ (parse {} collect.recording ([], []) tokens).next.2.2.reverse := .tail _ (.head _)
  obtain ⟨hexcerpt, -⟩ := (handed_commands_stand_alone hwhole rfl collect []).1 c hc
  exact ⟨hwhole, rfl, hc, hexcerpt⟩

end Parser
end StringProcessor
