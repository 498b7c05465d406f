import StringProcessor.Proofs.Batch.Lexing
import StringProcessor.Proofs.Parser.Acceptance
import StringProcessor.Proofs.Writing.Statements

/-! Reading back what has been written. Every list of commands can be written down, in any layout, and
is found again by scanning and parsing the text. -/
namespace StringProcessor.Writing
open Lexical

/-- A program that is written down on one line is scanned to its end and parsed into the same
commands, wherever their terms stand. So it is at every level, whatever was scanned and parsed before. -/
theorem read_program {b : Batch} (hb : b.pending = false) {parser : Parser}
    (hp : parser.state = .ready) (layout : Nat → Layout) (cs : List Command)
    (h : ∀ c ∈ cs, Writable c.action) :
    let scanned := b.feed (program layout cs)
    scanned.next.pending = false ∧ ∃ tokens, scanned.answer = .ok tokens ∧
      let parsed := parser.parse Parser.collect [] tokens
      parsed.answer = .accepted ∧
        parsed.next.2.reverse.map (·.action.unplaced) = cs.map (·.action.unplaced) := by
  have hd : Dissects (script layout cs) .complete (program layout cs).toList := by
    rw [← spelling_script]
    exact (line_script layout h []).dissects
  obtain ⟨ha, hheld, -⟩ := Batch.feed_dissected hb hd
  obtain ⟨cut, hc, hu⟩ := cut_script layout h 0
  obtain ⟨haccepted, hf⟩ := Parser.parse_cut hp hc
  intro scanned
  refine ⟨?_, _, ha, haccepted, ?_⟩
  · exact Batch.held_eq_none_iff.mp hheld
  · rw [hf, List.map_map]
    exact hu

/-- A quote of the literal's own kind, the other quote and a backslash, in either kind of quotes. -/
theorem read_quotes :
    let single : Layout := ⟨fun _ => .single, 0, 0, 0⟩
    let double : Layout := ⟨fun _ => .double, 0, 1, 2⟩
    let layout (i : Nat) := if i = 0 then single else double
    let terms : Expression := [.literal "\"'\\" (.single 0), .symbol "y_1" (.single 0)]
    let cs : List Command := [⟨.set "x" terms, .single 0⟩, ⟨.print .words terms, .single 0⟩]
    (∀ c ∈ cs, Writable c.action) ∧
      program layout cs = "set x '\"\\'\\\\' + y_1;printwords  \"\\\"'\\\\\" + y_1  ;" ∧
      ∃ tokens, (({} : Batch).feed (program layout cs)).answer = .ok tokens ∧
        (Parser.parse {} Parser.collect [] tokens).next.2.reverse.map (·.action.unplaced) =
          [.set "x" terms, .print .words terms] := by
  intro single double layout terms cs
  have hx : IsName "x" := ⟨⟨'x', [], rfl, rfl, by simp⟩, by decide⟩
  have hy : IsName "y_1" := ⟨⟨'y', ['_', '1'], rfl, rfl, by simp [isNameChar]⟩, by decide⟩
  have ht : terms ≠ [] ∧ ∀ name span, Term.symbol name span ∈ terms → IsName name := by
    refine ⟨by simp [terms], fun name span hm => ?_⟩
    obtain ⟨rfl, -⟩ : name = "y_1" ∧ span = .single 0 := by simpa [terms] using hm
    exact hy
  have hc : ∀ c ∈ cs, Writable c.action := by
    intro c hm
    obtain rfl | rfl : c = ⟨.set "x" terms, .single 0⟩ ∨ c = ⟨.print .words terms, .single 0⟩ := by
      simpa [cs] using hm
    · exact ⟨by rintro _ ⟨⟩; exact hx, by rintro _ ⟨⟩; exact ht⟩
    · exact ⟨by rintro _ ⟨⟩, by rintro _ ⟨⟩; exact ht⟩
  have hb : ({} : Batch).pending = false := rfl
  have hp : ({} : Parser).state = .ready := rfl
  obtain ⟨-, tokens, ha, -, hf⟩ := read_program hb hp layout cs hc
  exact ⟨hc, by decide, tokens, ha, hf⟩

end StringProcessor.Writing
