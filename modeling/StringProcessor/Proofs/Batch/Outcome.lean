import StringProcessor.Proofs.Scan.Move

/-! What a line does to a batch, told from the scan of the line alone. -/
namespace StringProcessor

/-- The answer that a finished scan gives, and what it holds back. -/
def Scan.outcome (s : Scan) : Except Diagnostic (List Token) × Option Batch.Held :=
  match s.mode with
  | .stuck c => (.error (.illegalCharacter s.position c), none)
  | .literal l => (.ok [], some ⟨s.tokens, l⟩)
  | _ => (.ok s.tokens.reverse, none)

def Batch.moveAnswer (f : Nat → Nat) :
    Except Diagnostic (List Token) → Except Diagnostic (List Token)
  | .ok ts => .ok (ts.map (Token.move f))
  | .error d => .error (d.move f)

namespace Scan

/-- Where a scan is. What it has told is left open, and the place where the last token began. -/
structure At (s : Scan) (position : Nat) (mode : Mode) (tokens : List Token) : Prop where
  position : s.position = position
  mode : s.mode = mode
  tokens : s.tokens = tokens

theorem endWord_of_word {s : Scan} {start : Nat} {letters : List Char}
    (h : s.mode = .word start letters) :
    s.endWord.At s.position .between
      (wordToken (String.ofList letters.reverse) ⟨start, s.position⟩ :: s.tokens) := by
  obtain ⟨ha, rfl⟩ := mode_eq_word_iff.mp h
  rw [endWord, ha]
  exact ⟨rfl, rfl, rfl⟩

private theorem mode_move_id (m : Mode) : m.move id = m := by
  cases m <;> rfl

/-- The outcome is read off the position, the mode and the tokens. -/
private theorem outcome_congr {s t : Scan} (hp : t.position = s.position) (hm : t.mode = s.mode)
    (ht : t.tokens = s.tokens) (cs : List Char) : (t.line cs).outcome = (s.line cs).outcome := by
  have hs : Moved id s t :=
    ⟨hp, hm.trans (mode_move_id s.mode).symm, ht.trans (List.map_id s.tokens).symm⟩
  have hl : Moved id (s.line cs) (t.line cs) := (hs.run (fun _ _ => rfl) cs).endWord
  have hm := hl.mode
  rw [mode_move_id] at hm
  have ht : (t.line cs).tokens = (s.line cs).tokens := hl.tokens.trans (List.map_id _)
  simp only [outcome, hl.position, hm, ht, id_eq]

/-- A scan that has read the same elsewhere gives the same answer about there. -/
theorem Moved.outcome {f : Nat → Nat} {s t : Scan} (h : Moved f s t)
    (hf : f (s.position + 1) = f s.position + 1) :
    t.outcome = (Batch.moveAnswer f s.outcome.1, s.outcome.2.map (Batch.Held.move f)) := by
  have ht := h.mode
  cases hs : s.mode with
  | stuck c =>
    rw [hs] at ht
    simp [Scan.outcome, hs, ht, Mode.move, h.position, Batch.moveAnswer, Diagnostic.move,
      Diagnostic.illegalCharacter, Span.move, Span.single, hf]
  | literal l =>
    rw [hs] at ht
    simp [Scan.outcome, hs, ht, Mode.move, h.tokens, Batch.moveAnswer, Batch.Held.move]
  | between | word start letters =>
    rw [hs] at ht
    simp [Scan.outcome, hs, ht, Mode.move, h.tokens, Batch.moveAnswer]

/-- A word is ended at the latest with its line. -/
theorem endWord_activity (s : Scan) : s.endWord.activity = .between ∨ s.endWord = s := by
  cases ha : s.activity with
  | word letters =>
    left
    simp only [endWord, ha]
    rfl
  | _ =>
    right
    simp only [endWord, ha]

theorem Halted.line {s : Scan} (h : s.Halted) (cs : List Char) : (s.line cs).Halted := by
  rcases endWord_activity (cs.foldl Scan.step s) with ha | hs
  · intro c hc
    rw [Scan.line, ha] at hc
    cases hc
  · rw [Scan.line, hs]
    exact h.run cs

end Scan

namespace Batch

def entry (b : Batch) : Scan := { b.resume.scan with base := b.resume.length, current := 0 }

@[simp] theorem position_entry (b : Batch) : b.entry.position = b.resume.length := rfl

private theorem halted_entry (b : Batch) : b.entry.Halted := by
  intro c h
  have ha : b.entry.activity = b.resume.literal.elim .between .literal := rfl
  rw [ha] at h
  cases hl : b.resume.literal <;> simp [hl] at h

private theorem conclude_eq_outcome (b : Batch) {scan : Scan} (h : scan.Halted) :
    (b.conclude scan).answer = scan.outcome.1 ∧ (b.conclude scan).next.held = scan.outcome.2 := by
  unfold conclude Scan.outcome
  cases ha : scan.activity with
  | stuck c =>
    rw [Scan.mode_eq_stuck_iff.mpr ha, h c ha]
    exact ⟨rfl, rfl⟩
  | literal l =>
    rw [Scan.mode_eq_literal_iff.mpr ha]
    exact ⟨rfl, rfl⟩
  | between =>
    rw [Scan.mode_eq_between_iff.mpr ha]
    exact ⟨rfl, rfl⟩
  | word letters =>
    rw [Scan.mode_eq_word_iff.mpr ⟨ha, rfl⟩]
    exact ⟨rfl, rfl⟩

/-- A line is scanned from where the batch goes on. -/
theorem feed_eq_outcome (b : Batch) (line : String) :
    let outcome := (b.entry.line line.toList).outcome
    (b.feed line).answer = outcome.1 ∧ (b.feed line).next.held = outcome.2 := by
  let start := b.entry.debug (.lineBegun line)
  have htold : (start.line line.toList).outcome = (b.entry.line line.toList).outcome :=
    Scan.outcome_congr (s := b.entry) (t := start) rfl rfl rfl line.toList
  have hhalted : (start.line line.toList).Halted :=
    Scan.Halted.line (s := start) b.halted_entry line.toList
  rw [← htold]
  exact conclude_eq_outcome _ hhalted

private theorem source_conclude (b : Batch) (scan : Scan) :
    (b.conclude scan).next.source = b.source ∧ (b.conclude scan).next.length = b.length := by
  simp only [conclude]
  split <;> exact ⟨rfl, rfl⟩

/-- The source is what goes before the line, and the line. -/
theorem source_feed (b : Batch) (line : String) :
    (b.feed line).next.source = b.resume.source ++ line :=
  (source_conclude _ _).1

theorem length_feed (b : Batch) (line : String) :
    (b.feed line).next.length = b.resume.length + line.length :=
  (source_conclude _ _).2

/-- A line that completes its batch leaves no token in it. -/
theorem tokens_feed {b : Batch} {line : String} (h : (b.feed line).next.pending = false) :
    (b.feed line).next.tokens = [] := by
  simp only [feed, conclude] at h ⊢
  split at h <;> simp_all [pending]

/-- The source is as long as it is said to be, unless the batch is over. -/
def Counted (b : Batch) : Prop := b.pending = true → b.length = b.source.length

theorem counted_of_not_pending {b : Batch} (h : b.pending = false) : b.Counted := by
  intro hp
  rw [h] at hp
  cases hp

theorem Counted.resume {b : Batch} (h : b.Counted) : b.resume.length = b.resume.source.length := by
  unfold Batch.resume
  cases hl : b.literal with
  | none => rfl
  | some l =>
    have hb := h (by rw [pending, hl]; rfl)
    simp [hb]

theorem Counted.length_feed {b : Batch} (h : b.Counted) (line : String) :
    (b.feed line).next.length = (b.feed line).next.source.length := by
  rw [Batch.length_feed, source_feed, h.resume, String.length_append]

theorem Counted.feed {b : Batch} (h : b.Counted) (line : String) : (b.feed line).next.Counted :=
  fun _ => h.length_feed line

/-- A line is answered with no other fault than an illegal character. -/
theorem feed_error {b : Batch} {line : String} {d : Diagnostic}
    (h : (b.feed line).answer = .error d) : ∃ position c, d = .illegalCharacter position c := by
  rw [(feed_eq_outcome b line).1] at h
  generalize b.entry.line line.toList = scan at h
  rw [Scan.outcome] at h
  split at h
  · cases h
    exact ⟨_, _, rfl⟩
  · cases h
  · cases h

/-- A batch that holds nothing back is begun anew, whatever is left over in it. -/
theorem resume_of_not_pending {b : Batch} (h : b.pending = false) :
    b.resume = { b with source := "", length := 0, tokens := [] } := by
  have hn : b.literal = none := by simpa [pending] using h
  rw [resume, hn]

theorem entry_of_not_pending {b : Batch} (h : b.pending = false) : b.entry.At 0 .between [] := by
  have hl : b.literal = none := by simpa [pending] using h
  constructor <;> simp [entry, Scan.position, Scan.mode, scan, resume_of_not_pending h, hl]

theorem held_eq_none_iff {b : Batch} : b.held = none ↔ b.pending = false := by
  simp [held, pending]

theorem pending_of_held {b : Batch} {held : Held} (h : b.held = some held) :
    b.pending = true ∧ b.literal = some held.literal ∧ b.tokens = held.tokens := by
  obtain ⟨l, hl, rfl⟩ := Option.map_eq_some_iff.mp h
  exact ⟨by rw [pending, hl]; rfl, hl, rfl⟩

theorem held_of_pending {b : Batch} (h : b.pending = true) : ∃ held, b.held = some held := by
  refine Option.ne_none_iff_exists'.mp fun hn => ?_
  rw [held_eq_none_iff.mp hn] at h
  cases h

/-- An open batch goes on behind a line feed, with what it holds back. -/
theorem entry_of_pending {b : Batch} {held : Held} (h : b.held = some held) :
    b.resume.source = b.source.push '\n' ∧ b.resume.length = b.length + 1 ∧
      b.entry.mode = .literal held.literal ∧ b.entry.tokens = held.tokens := by
  obtain ⟨-, hl, ht⟩ := pending_of_held h
  have hr : b.resume = { b with source := b.source.push '\n', length := b.length + 1 } := by
    rw [resume, hl]
  refine ⟨by rw [hr], by rw [hr], ?_, ?_⟩
  · simp [entry, Scan.mode, scan, hr, hl]
  · rw [← ht]
    simp [entry, scan, hr]

/-- What is left over in batches that hold nothing back has no part in what a line comes to. -/
theorem feed_congr {b b' : Batch} (h : b.pending = false) (h' : b'.pending = false) (line : String) :
    (b.feed line).answer = (b'.feed line).answer ∧
      (b.feed line).next.held = (b'.feed line).next.held := by
  have he := entry_of_not_pending h
  have he' := entry_of_not_pending h'
  have ho : (b.entry.line line.toList).outcome = (b'.entry.line line.toList).outcome :=
    Scan.outcome_congr (he.position.trans he'.position.symm) (he.mode.trans he'.mode.symm)
      (he.tokens.trans he'.tokens.symm) _
  obtain ⟨ha, hn⟩ := feed_eq_outcome b line
  obtain ⟨ha', hn'⟩ := feed_eq_outcome b' line
  rw [ha, hn, ha', hn', ho]
  exact ⟨rfl, rfl⟩

end Batch
end StringProcessor
