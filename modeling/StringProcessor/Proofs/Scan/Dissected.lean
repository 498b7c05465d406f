import StringProcessor.Proofs.Batch.Outcome
import StringProcessor.Proofs.Lexical.First

/-! Scanning what has been dissected. A scan that stands between tokens comes out of an item with
the item's token, and out of an ending with what the ending means. -/
namespace StringProcessor.Scan
open Lexical

private theorem outcome_literal {s : Scan} {cs : List Char} {position : Nat} {l : OpenLiteral}
    {tokens : List Token} (h : (cs.foldl step s).At position (.literal l) tokens) :
    (s.line cs).outcome = (.ok [], some ⟨tokens, l⟩) := by
  rw [line, endWord_of_literal h.mode, outcome, h.mode, h.tokens]

private theorem outcome_stuck {s : Scan} {cs : List Char} {position : Nat} {c : Char}
    {tokens : List Token} (h : (cs.foldl step s).At position (.stuck c) tokens) :
    (s.line cs).outcome = (.error (.illegalCharacter position c), none) := by
  rw [line, endWord_of_stuck h.mode, outcome, h.mode, h.position]

private theorem value_escaped (c : Char) : (Piece.escaped c).value = unescape c := by
  rw [Piece.value]
  unfold unescape
  split
  case h_8 ha hb hf hn hr ht hv =>
    have hl : controls.lookup c = none :=
      List.lookup_eq_none_iff.mpr (by simpa [controls] using ⟨ha, hb, hf, hn, hr, ht, hv⟩)
    rw [hl, Option.getD_none]
  all_goals rfl

theorem ofWord?_isSome_iff (word : String) :
    (Keyword.ofWord? word).isSome ↔ word ∈ Keyword.all.map Keyword.word := by
  simp [Keyword.ofWord?, List.find?_isSome]

section
variable {s : Scan} {l : OpenLiteral}

private theorem step_literal (hm : s.mode = .literal l) (c : Char) : s.step c = s.gather l c := by
  rw [step, mode_eq_literal_iff.mp hm]

private theorem step_plain (hm : s.mode = .literal l) (he : l.escaping = false) {c : Char}
    (hc : c ≠ l.delimiter) (hb : c ≠ '\\') :
    (s.step c).At (s.position + 1) (.literal { l with gathered := c :: l.gathered }) s.tokens := by
  rw [step_literal hm]
  simp only [gather, he, hb, hc, beq_iff_eq, Bool.false_eq_true, ↓reduceIte]
  exact ⟨rfl, rfl, rfl⟩

private theorem step_backslash (hm : s.mode = .literal l) (he : l.escaping = false) :
    (s.step '\\').At (s.position + 1) (.literal { l with escaping := true }) s.tokens := by
  rw [step_literal hm]
  simp only [gather, he, beq_self_eq_true, Bool.false_eq_true, ↓reduceIte]
  exact ⟨rfl, rfl, rfl⟩

private theorem step_escaped (hm : s.mode = .literal l) (he : l.escaping = true) (c : Char) :
    (s.step c).At (s.position + 1)
      (.literal { l with escaping := false, gathered := unescape c :: l.gathered }) s.tokens := by
  rw [step_literal hm]
  simp only [gather, he, ↓reduceIte]
  exact ⟨rfl, rfl, rfl⟩

private theorem step_close (hm : s.mode = .literal l) (he : l.escaping = false)
    (hq : isQuote l.delimiter) :
    (s.step l.delimiter).At (s.position + 1) .between
      (⟨.string, l.text, ⟨l.start, s.position + 1⟩⟩ :: s.tokens) := by
  rw [step_literal hm]
  simp only [gather, he, quote_not_backslash hq, beq_iff_eq, Bool.false_eq_true, ↓reduceIte]
  exact ⟨rfl, rfl, rfl⟩

private theorem run_piece {p : Piece} (hm : s.mode = .literal l) (he : l.escaping = false)
    (hf : p.Fits l.delimiter) :
    (p.spelling.foldl step s).At (s.position + p.spelling.length)
      (.literal { l with gathered := p.value :: l.gathered }) s.tokens := by
  cases p with
  | plain c => exact step_plain hm he hf.1 hf.2
  | escaped c =>
    have hb := step_backslash hm he
    have hc := step_escaped hb.mode rfl c
    rw [hb.position, hb.tokens] at hc
    refine ⟨hc.position, ?_, hc.tokens⟩
    rw [value_escaped, he]
    exact hc.mode

/-- The body of a literal is gathered piece by piece. -/
private theorem run_body {body : List Piece} (hm : s.mode = .literal l) (he : l.escaping = false)
    (hf : ∀ p ∈ body, p.Fits l.delimiter) :
    let cs := body.flatMap Piece.spelling
    (cs.foldl step s).At (s.position + cs.length)
      (.literal { l with gathered := (body.map Piece.value).reverse ++ l.gathered }) s.tokens := by
  induction body generalizing s l with
  | nil => exact ⟨rfl, hm, rfl⟩
  | cons p body ih =>
    obtain ⟨hp, hr⟩ := List.forall_mem_cons.mp hf
    have hs := run_piece hm he hp
    have hi := ih hs.mode he hr
    rw [hs.position, hs.tokens] at hi
    intro cs
    have hcs : cs = p.spelling ++ body.flatMap Piece.spelling := List.flatMap_cons
    rw [hcs, List.foldl_append, List.length_append, ← Nat.add_assoc]
    exact ⟨hi.position, by simpa using hi.mode, hi.tokens⟩

private theorem run_letters {start : Nat} {letters others : List Char}
    (hm : s.mode = .word start letters) (ho : ∀ c ∈ others, isNameChar c) :
    (others.foldl step s).At (s.position + others.length)
      (.word start (others.reverse ++ letters)) s.tokens := by
  induction others generalizing s letters with
  | nil => exact ⟨rfl, hm, rfl⟩
  | cons c others ih =>
    obtain ⟨hc, hr⟩ := List.forall_mem_cons.mp ho
    obtain ⟨ha, hstart⟩ := mode_eq_word_iff.mp hm
    have hs : s.step c = s.pass (.word (c :: letters)) := by simp [step, ha, hc]
    have hi := @ih (s.pass (.word (c :: letters))) _ (mode_eq_word_iff.mpr ⟨rfl, hstart⟩) hr
    rw [List.foldl_cons, hs, List.length_cons]
    refine ⟨?_, by simpa using hi.mode, hi.tokens⟩
    rw [hi.position, position_pass]
    omega

/-- A word ends in front of what it cannot go on with. -/
private theorem line_endWord {start : Nat} {letters rest : List Char} (hm : s.mode = .word start letters)
    (hr : ∀ c ∈ rest.head?, isNameChar c = false) : s.line rest = s.endWord.line rest := by
  -- Behind the word the step goes on between tokens, where ending the word again does nothing.
  have he := (endWord_of_word hm).mode
  cases rest with
  | nil => exact (endWord_of_between he).symm
  | cons c rest =>
    have hs : s.step c = s.endWord.step c := by
      rw [step, (mode_eq_word_iff.mp hm).1, step, mode_eq_between_iff.mp he]
      simp [hr c rfl]
    rw [line, line, List.foldl_cons, List.foldl_cons, hs]

private theorem step_between (hm : s.mode = .between) (c : Char) : s.step c = s.startToken c := by
  rw [step, mode_eq_between_iff.mp hm]

private theorem step_blank (hm : s.mode = .between) {c : Char} (hc : Text.isBlank c) :
    (s.step c).At (s.position + 1) .between s.tokens := by
  rw [step_between hm, startToken, if_pos hc]
  exact ⟨rfl, rfl, rfl⟩

private theorem step_terminator (hm : s.mode = .between) :
    (s.step ';').At (s.position + 1) .between (⟨.terminator, ";", .single s.position⟩ :: s.tokens) := by
  rw [step_between hm]
  exact ⟨rfl, rfl, rfl⟩

private theorem step_operator (hm : s.mode = .between) :
    (s.step '+').At (s.position + 1) .between (⟨.operator, "+", .single s.position⟩ :: s.tokens) := by
  rw [step_between hm]
  exact ⟨rfl, rfl, rfl⟩

private theorem step_quote (hm : s.mode = .between) {quote : Char} (hq : isQuote quote) :
    (s.step quote).At (s.position + 1) (.literal ⟨quote, s.position, false, []⟩) s.tokens := by
  rw [step_between hm, startToken, if_neg (quote_not_blank hq), beginToken, if_pos hq]
  exact ⟨rfl, rfl, rfl⟩

private theorem step_letter (hm : s.mode = .between) {c : Char} (hc : c.isAlpha) :
    (s.step c).At (s.position + 1) (.word s.position [c]) s.tokens := by
  obtain ⟨hb, hq, ht, ho⟩ := letter_only hc
  rw [step_between hm]
  simp only [startToken, beginToken, hb, hq, ht, ho, hc, beq_iff_eq, Bool.false_eq_true, ↓reduceIte]
  exact ⟨rfl, rfl, rfl⟩

private theorem step_illegal (hm : s.mode = .between) {c : Char} (hb : ¬ Text.isBlank c) (hq : ¬ isQuote c)
    (ht : c ≠ ';') (ho : c ≠ '+') (ha : ¬ c.isAlpha) :
    (s.step c).At s.position (.stuck c) s.tokens := by
  rw [step_between hm]
  simp only [startToken, beginToken, hb, hq, ht, ho, ha, beq_iff_eq, Bool.false_eq_true, ↓reduceIte]
  exact ⟨rfl, rfl, rfl⟩

private theorem run_word (hm : s.mode = .between) {c : Char} {others : List Char} (hc : c.isAlpha)
    (ho : ∀ c ∈ others, isNameChar c) :
    ((c :: others).foldl step s).At (s.position + (c :: others).length)
      (.word s.position (c :: others).reverse) s.tokens := by
  have hs := step_letter hm hc
  have hw := run_letters hs.mode ho
  rw [List.foldl_cons, List.length_cons, List.reverse_cons]
  refine ⟨?_, hw.mode, hw.tokens.trans hs.tokens⟩
  rw [hw.position, hs.position]
  omega

/-- An opened literal. -/
private theorem run_opened (hm : s.mode = .between) {quote : Char} {body : List Piece}
    (hq : isQuote quote) (hf : ∀ p ∈ body, p.Fits quote) :
    let cs := quote :: body.flatMap Piece.spelling
    (cs.foldl step s).At (s.position + cs.length)
      (.literal ⟨quote, s.position, false, (body.map Piece.value).reverse⟩) s.tokens := by
  intro cs
  have hs := step_quote hm hq
  have hb := run_body hs.mode rfl hf
  rw [hs.position, hs.tokens] at hb
  rw [List.foldl_cons, List.length_cons]
  refine ⟨?_, by simpa using hb.mode, hb.tokens⟩
  rw [hb.position]
  omega

theorem line_append (s : Scan) (cs rest : List Char) :
    s.line (cs ++ rest) = (cs.foldl step s).line rest := by
  rw [line, line, List.foldl_append]

/-- A scan comes out of an item with its token, if it has one. -/
private theorem line_item {i : Item} {rest : List Char} (hm : s.mode = .between) (h : i.Stands rest) :
    ∃ s' : Scan, s'.At (s.position + i.spelling.length) .between
        ((i.token? s.position).toList ++ s.tokens) ∧
      s.line (i.spelling ++ rest) = s'.line rest := by
  rw [line_append]
  cases h with
  | @blank c _ hc =>
    exact ⟨s.step c, step_blank hm hc, rfl⟩
  | terminator => exact ⟨s.step ';', step_terminator hm, rfl⟩
  | operator => exact ⟨s.step '+', step_operator hm, rfl⟩
  | @word c others _ hc ho hr =>
    have hw := run_word hm hc ho
    have he := endWord_of_word hw.mode
    refine ⟨((c :: others).foldl step s).endWord, ?_, line_endWord hw.mode hr⟩
    rw [hw.position, hw.tokens] at he
    refine ⟨he.position, he.mode, ?_⟩
    rw [he.tokens]
    simp [wordToken, ofWord?_isSome_iff, Item.token?, Item.spelling]
  | @literal quote body _ hq hf =>
    have ho := run_opened hm hq hf
    have hc := step_close ho.mode rfl hq
    rw [ho.position, ho.tokens] at hc
    refine ⟨(Item.literal quote body).spelling.foldl step s, ?_, rfl⟩
    have hs : (Item.literal quote body).spelling =
        (quote :: body.flatMap Piece.spelling) ++ [quote] := rfl
    rw [hs, List.foldl_append, List.length_append, ← Nat.add_assoc]
    refine ⟨hc.position, hc.mode, ?_⟩
    rw [List.foldl_cons, List.foldl_nil, hc.tokens]
    simp [Item.token?, Item.spelling, OpenLiteral.text, Nat.add_assoc]

private theorem line_ending {e : Ending} (hm : s.mode = .between) (h : e.Valid) :
    (s.line e.spelling).outcome = e.outcome s.position s.tokens.reverse := by
  cases h with
  | complete => simp [Ending.spelling, line, endWord_of_between hm, Scan.outcome, hm, Ending.outcome]
  | @unclosed quote body escaping hq hf =>
    have ho := run_opened hm hq hf
    cases escaping with
    | false =>
      have hs : (Ending.unclosed quote body false).spelling =
          quote :: body.flatMap Piece.spelling := by simp [Ending.spelling]
      rw [hs, outcome_literal ho]
      simp [Ending.outcome]
    | true =>
      have hs : (Ending.unclosed quote body true).spelling =
          (quote :: body.flatMap Piece.spelling) ++ ['\\'] := rfl
      have hb := step_backslash ho.mode rfl
      rw [ho.tokens] at hb
      rw [hs, line_append, @outcome_literal _ ['\\'] _ _ _ hb]
      simp [Ending.outcome]
  | @illegal c rest hb hq ht ho ha =>
    have hs := step_illegal hm hb hq ht ho ha
    have hr : ((c :: rest).foldl step s).At s.position (.stuck c) s.tokens := by
      rwa [List.foldl_cons, run_stuck hs.mode]
    exact outcome_stuck hr

/-- What a scan comes to is what the dissection of the text tells. -/
theorem line_dissected {items : List Item} {e : Ending} {cs : List Char} (hm : s.mode = .between)
    (h : Dissects items e cs) :
    (s.line cs).outcome = e.outcome (s.position + extent items)
      (s.tokens.reverse ++ Lexical.tokens s.position items) := by
  induction h generalizing s with
  | ending he => simpa [extent, Lexical.tokens] using line_ending hm he
  | @item i items e rest hi hd ih =>
    obtain ⟨s', hs, hl⟩ := line_item hm hi
    rw [hl, ih hs.mode, hs.position, hs.tokens]
    have ht : (i.token? s.position).toList.reverse = (i.token? s.position).toList := by
      cases i.token? s.position <;> rfl
    simp [extent, Lexical.tokens, ht, Nat.add_assoc]

end
end StringProcessor.Scan
