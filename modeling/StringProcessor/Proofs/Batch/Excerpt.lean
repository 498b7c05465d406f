import StringProcessor.Proofs.Batch.Layout
import StringProcessor.Proofs.Batch.Split

/-! Excerpts of lines. From the start of a token to the end of a terminator behind it, a line gives the
same tokens when it is cut out. -/
namespace StringProcessor.Batch
open Lexical

/-- A line is whole if it is made of items alone. -/
private theorem whole_iff_items {line : String} {tokens : List Token} :
    Whole line tokens ↔ ∃ items, Line items [] ∧ line.toList = items.flatMap Item.spelling ∧
      tokens = Lexical.tokens 0 items := by
  constructor
  · rintro ⟨ha, hc⟩
    obtain ⟨items, e, hd⟩ := exists_dissection line.toList
    obtain ⟨hanswer, hnext, -⟩ := feed_dissected (b := {}) rfl hd
    rw [ha] at hanswer
    rw [← held_eq_none_iff, hnext] at hc
    obtain ⟨-, hline, hspelled⟩ := dissects_iff.mp hd
    cases e with
    | complete =>
      cases hanswer
      exact ⟨items, hline, hspelled.trans (List.append_nil _), rfl⟩
    | unclosed quote body escaping => cases hc
    | illegal c rest => cases hanswer
  · rintro ⟨items, hline, hspelled, rfl⟩
    obtain ⟨ha, hn, -⟩ := feed_dissected (b := {}) rfl (hspelled ▸ hline.dissects)
    exact ⟨ha, held_eq_none_iff.mp hn⟩

theorem Whole.laid {line : String} {tokens : List Token} (h : Whole line tokens) :
    Laid line.toList line.toList.length tokens := by
  have hshows := feed_shows (faithful_of_not_pending (b := {}) rfl) line
  have hheld : (({} : Batch).feed line).next.held = none := held_eq_none_iff.mpr h.closed
  have hsource : (({} : Batch).feed line).next.source = line := by
    rw [source_feed]
    exact String.empty_append
  simp only [h.answer, hheld, hsource] at hshows
  generalize line.toList = text at hshows
  obtain ⟨ht⟩ := hshows
  exact Laid.of_tiled (by simpa using ht) (Nat.le_refl _)

/-- Tokens up to a terminator are found again in the part of the line that they span. -/
theorem Whole.excerpt {line : String} {front body rest : List Token} {key close : Token}
    (h : Whole line (front ++ (key :: (body ++ [close]) ++ rest))) (hc : close.kind = .terminator) :
    let span : Span := ⟨key.span.start, close.span.stop⟩
    ∃ tokens, Whole (String.ofList (span.cut line.toList)) tokens ∧
      key :: (body ++ [close]) = tokens.map (Token.move (span.start + ·)) := by
  intro span
  obtain ⟨items, hline, hspelled, htokens⟩ := whole_iff_items.mp h
  have htokens' : Lexical.tokens 0 items = front ++ key :: (body ++ close :: rest) := by
    simpa using htokens.symm
  obtain ⟨before, i, behind, rfl, -, hkey, hbehind⟩ := tokens_split htokens'
  obtain ⟨between, j, after, rfl, hbody, hclose, -⟩ := tokens_split hbehind
  obtain rfl := Item.token?_terminator hclose hc
  obtain ⟨middle, hm⟩ : ∃ middle, middle = i :: (between ++ [.terminator]) := ⟨_, rfl⟩
  have hitems : before ++ i :: (between ++ .terminator :: after) = before ++ (middle ++ after) := by
    simp [hm]
  rw [hitems] at hline hspelled
  -- The items in the middle are spelled by the characters of the span.
  have hspan : span = ⟨(before.flatMap Item.spelling).length,
      (before.flatMap Item.spelling ++ middle.flatMap Item.spelling).length⟩ := by
    simp only [span, Item.token?_span hkey, Item.token?_span hclose]
    simp [extent, hm, Nat.add_assoc]
  have hcut : span.cut line.toList = middle.flatMap Item.spelling := by
    rw [hspan, hspelled, List.flatMap_append, List.flatMap_append, ← List.append_assoc,
      Scan.cut_append (Nat.le_refl _), Scan.cut_behind]
  have hmiddle : Line middle [] := by
    obtain ⟨hmiddle, -⟩ := line_append.mp (line_append.mp hline).2
    rw [hm, ← List.cons_append] at hmiddle ⊢
    exact hmiddle.terminated []
  refine ⟨_, whole_iff_items.mpr ⟨middle, hmiddle, String.toList_ofList.trans hcut, rfl⟩, ?_⟩
  have hstart : span.start = 0 + extent before := by rw [hspan, Nat.zero_add, extent]
  have hone : extent (before ++ [i]) = extent before + i.spelling.length := by simp [extent]
  rw [hone, ← Nat.add_assoc] at hbody hclose
  rw [← tokens_move, Nat.add_zero, hstart, hm, Lexical.tokens, hkey, tokens_append, hbody,
    Lexical.tokens, hclose]
  rfl

end StringProcessor.Batch
