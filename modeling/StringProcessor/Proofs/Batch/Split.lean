import StringProcessor.Proofs.Batch.LineBreak
import StringProcessor.Proofs.Batch.Lexing
import StringProcessor.Proofs.Grammar
import StringProcessor.Proofs.Lexical.Line

/-! Lines that are split between statements. The terminator ends its token, so what comes behind it is
scanned as if it were a line of its own. -/
namespace StringProcessor

namespace Scan

/-- A scan is between tokens behind a line whose last token, if it has any, is a terminator. -/
private theorem run_between {s : Scan} {cs : List Char} {tokens : List Token}
    (h : (s.line cs).outcome = (.ok tokens, none))
    (ht : ∀ t ∈ tokens.getLast?, t.kind = .terminator) :
    (cs.foldl step s).At (s.position + cs.length) .between tokens.reverse := by
  rw [line] at h
  have hposition := position_run s cs
  generalize cs.foldl step s = scan at h hposition
  cases hm : scan.mode with
  | between =>
    rw [endWord_of_between hm, outcome, hm] at h
    cases h
    refine ⟨?_, hm, (List.reverse_reverse _).symm⟩
    rcases hposition with hp | ⟨c, hc⟩
    · exact hp
    · rw [hm] at hc
      cases hc
  | word start letters =>
    -- The word would be the last of the tokens.
    have hw := endWord_of_word hm
    rw [outcome, hw.mode, hw.tokens] at h
    cases h
    rw [List.getLast?_reverse, List.head?_cons] at ht
    have hk := ht _ rfl
    rcases wordToken_kind (String.ofList letters.reverse) ⟨start, scan.position⟩ with h | h <;>
      simp [h] at hk
  | literal l =>
    rw [endWord_of_literal hm, outcome, hm] at h
    cases h
  | stuck c =>
    rw [endWord_of_stuck hm, outcome, hm] at h
    cases h

end Scan

namespace Batch
open Lexical

/-- On its own the line gives these tokens and leaves no literal open. -/
structure Whole (line : String) (tokens : List Token) : Prop where
  answer : (({} : Batch).feed line).answer = .ok tokens
  closed : (({} : Batch).feed line).next.pending = false

private theorem whole_iff {line : String} {tokens : List Token} :
    Whole line tokens ↔ (({} : Batch).entry.line line.toList).outcome = (.ok tokens, none) := by
  obtain ⟨ha, hn⟩ := feed_eq_outcome {} line
  constructor
  · rintro ⟨h, hc⟩
    rw [ha] at h
    rw [← held_eq_none_iff, hn] at hc
    exact Prod.ext h hc
  · intro h
    rw [h] at ha hn
    exact ⟨ha, held_eq_none_iff.mp hn⟩

/-- Wherever no literal is open the line gives the same. -/
theorem Whole.feed {b : Batch} {line : String} {tokens : List Token} (hb : b.pending = false)
    (h : Whole line tokens) :
    (b.feed line).answer = .ok tokens ∧ (b.feed line).next.pending = false := by
  obtain ⟨ha, hn⟩ := feed_congr hb (rfl : ({} : Batch).pending = false) line
  rw [← held_eq_none_iff, ha, hn]
  exact ⟨h.answer, held_eq_none_iff.mpr h.closed⟩

/-- A line that ends with a terminator, blanks aside, can go on with any other line. The tokens of that one
are moved by the characters in front. -/
theorem Whole.append {l₁ l₂ : String} {tokens₁ tokens₂ : List Token} (h₁ : Whole l₁ tokens₁)
    (h₂ : Whole l₂ tokens₂) (hlast : ∀ t ∈ tokens₁.getLast?, t.kind = .terminator) :
    Whole (l₁ ++ l₂) (tokens₁ ++ tokens₂.map (Token.move (l₁.length + ·))) := by
  rw [whole_iff] at h₁ h₂ ⊢
  obtain ⟨items, e, hd⟩ := exists_dissection l₂.toList
  have hscan := Scan.run_between h₁ hlast
  have hjoined := Scan.line_dissected hscan.mode hd
  have hsecond := Scan.line_dissected (s := entry {}) rfl hd
  rw [hsecond] at h₂
  rw [String.toList_append, Scan.line_append, hjoined, hscan.position, hscan.tokens]
  cases e with
  | complete =>
    cases h₂
    simp [Ending.outcome, ← tokens_move, String.length_toList, entry, resume, scan, Scan.position]
  | unclosed quote body escaping => cases h₂
  | illegal c rest => cases h₂

end Batch
end StringProcessor
