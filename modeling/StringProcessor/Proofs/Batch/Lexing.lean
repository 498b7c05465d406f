import StringProcessor.Proofs.Scan.Dissected

/-! What a line comes to by the lexical grammar. -/
namespace StringProcessor.Batch
open Lexical

/-- Any dissection of the line tells what the line comes to. -/
theorem feed_dissected {b : Batch} (hb : b.pending = false) {line : String} {items : List Item}
    {e : Ending} (h : Dissects items e line.toList) :
    let outcome := e.outcome (extent items) (Lexical.tokens 0 items)
    (b.feed line).answer = outcome.1 ∧ (b.feed line).next.held = outcome.2 ∧
      (b.feed line).next.source = line := by
  have hentry := entry_of_not_pending hb
  have ho := Scan.line_dissected hentry.mode h
  rw [hentry.position, hentry.tokens, Nat.zero_add] at ho
  obtain ⟨ha, hn⟩ := feed_eq_outcome b line
  rw [ha, hn, ho, source_feed, resume_of_not_pending hb]
  exact ⟨rfl, rfl, String.empty_append⟩

/-- Every line is made of items and an ending in exactly one way, and this decides what it comes to:
the tokens of the items, or an open literal that holds them back, or the fault of a character that
no item starts with. -/
theorem feed_by_dissection (b : Batch) (hb : b.pending = false) (line : String) :
    ∃ items e, Dissects items e line.toList ∧
      (∀ items' e', Dissects items' e' line.toList → items' = items ∧ e' = e) ∧
      let outcome := e.outcome (extent items) (Lexical.tokens 0 items)
      (b.feed line).answer = outcome.1 ∧ (b.feed line).next.held = outcome.2 ∧
        (b.feed line).next.source = line := by
  obtain ⟨items, e, h⟩ := exists_dissection line.toList
  exact ⟨items, e, h, fun items' e' h' => h'.unique h, feed_dissected hb h⟩

theorem feed_word_then_open_literal :
    (({} : Batch).feed "a\"\\n").next.held =
      some ⟨[⟨.name, "a", ⟨0, 1⟩⟩], ⟨'"', 1, false, ['\n']⟩⟩ := by
  obtain ⟨items, e, -, hu, -, hn, -⟩ := feed_by_dissection {} rfl "a\"\\n"
  have hw : (Item.word 'a' []).Stands (Ending.unclosed '"' [.escaped 'n'] false).spelling :=
    .word rfl (by simp) (by rintro _ ⟨⟩; rfl)
  have hl : (Ending.unclosed '"' [.escaped 'n'] false).Valid := .unclosed rfl (by simp [Piece.Fits])
  obtain ⟨rfl, rfl⟩ := hu _ _ (.item hw (.ending hl))
  rw [hn]
  decide

end StringProcessor.Batch
