import StringProcessor.Proofs.Batch.Outcome
import StringProcessor.Proofs.Scan.Tiling

/-! The source of a batch. Its tokens, also those that an open literal holds back, tile the source, line
breaks included, and an illegal character is found where it is said to be. -/
namespace StringProcessor.Batch
open Scan

/-- What a line has come to, and what is held back, as the source shows it. -/
inductive Shows (source : List Char) : Except Diagnostic (List Token) → Option Held → Prop
  | complete {tokens : List Token} : Tiled source tokens.reverse → Shows source (.ok tokens) none
  | pending {held : Held} : Reading source (.literal held.literal) held.tokens →
      Shows source (.ok []) (some held)
  | illegal {before after : List Char} {c : Char} : source = before ++ c :: after → Illegal c →
      Shows source (.error (.illegalCharacter before.length c)) none

/-- What a batch holds back stands in its source, whose characters have been counted. -/
structure Faithful (b : Batch) : Prop where
  counted : b.Counted
  reading : ∀ held ∈ b.held, Reading b.source.toList (.literal held.literal) held.tokens

theorem faithful_of_not_pending {b : Batch} (h : b.pending = false) : b.Faithful := by
  refine ⟨counted_of_not_pending h, fun held hh => ?_⟩
  rw [held_eq_none_iff.mpr h] at hh
  cases hh

/-- The scan that a line is read with has read the text before the line. -/
theorem Faithful.entry {b : Batch} (h : b.Faithful) :
    Reading b.resume.source.toList b.entry.mode b.entry.tokens ∧
      b.entry.position = b.resume.source.toList.length := by
  refine ⟨?_, h.counted.resume.trans String.length_toList.symm⟩
  cases hh : b.held with
  | none =>
    have hp := held_eq_none_iff.mp hh
    have he := entry_of_not_pending hp
    rw [he.mode, he.tokens, resume_of_not_pending hp]
    exact .between .nil
  | some held =>
    obtain ⟨hs, -, hm, ht⟩ := entry_of_pending hh
    rw [hs, hm, ht, String.toList_push]
    exact (h.reading held hh).more '\n' rfl rfl

private theorem shows_line {s : Scan} {text cs : List Char} (h : Reading text s.mode s.tokens)
    (hp : s.position = text.length) :
    let outcome := (s.line cs).outcome
    Shows (text ++ cs) outcome.1 outcome.2 := by
  have hrun := h.run hp cs
  rw [Scan.line]
  generalize cs.foldl step s = t at hrun
  cases hrun with
  | whole hr hp =>
    generalize text ++ cs = source at hr hp
    generalize hm : t.mode = m at hr
    cases m with
    | between =>
      obtain ⟨ht⟩ := hr
      rw [endWord_of_between hm, outcome, hm]
      exact .complete (by simpa using ht)
    | word start letters =>
      have he := endWord_of_word hm
      rw [outcome, he.mode, he.tokens, hp]
      obtain _ | ⟨hl, ht⟩ := hr
      exact .complete (by simpa using ht.word hl)
    | literal l =>
      rw [endWord_of_literal hm, outcome, hm]
      exact .pending hr
    | stuck c => cases hr
  | stopped he hi hm hp =>
    rw [endWord_of_stuck hm, outcome, hm, hp]
    exact .illegal (by rw [he, List.append_assoc]) hi

theorem feed_shows {b : Batch} (h : b.Faithful) (line : String) :
    let turn := b.feed line
    Shows turn.next.source.toList turn.answer turn.next.held := by
  intro turn
  obtain ⟨hr, hp⟩ := h.entry
  obtain ⟨ha, hn⟩ := feed_eq_outcome b line
  rw [ha, hn, source_feed, String.toList_append]
  exact shows_line hr hp

theorem Faithful.feed {b : Batch} (h : b.Faithful) (line : String) : (b.feed line).next.Faithful := by
  have hs := feed_shows h line
  refine ⟨h.counted.feed line, fun held hh => ?_⟩
  simp only [Option.mem_def.mp hh] at hs
  generalize (b.feed line).next.source.toList = source at hs ⊢
  generalize (b.feed line).answer = answer at hs
  cases hs with
  | pending hr => exact hr

/-- The input ends in a fault only where a literal is open. It goes from the opening quote to the end of
the source. -/
theorem Faithful.finish {b : Batch} (h : b.Faithful) {d : Diagnostic} (hd : b.finish.answer = .error d) :
    ∃ held, b.held = some held ∧
      d = .unterminatedString ⟨held.literal.start, b.source.length⟩ held.literal.delimiter := by
  cases hh : b.held with
  | none =>
    have hl : b.literal = none := Option.map_eq_none_iff.mp hh
    simp [Batch.finish, hl] at hd
  | some held =>
    obtain ⟨l, hl, rfl⟩ := Option.map_eq_some_iff.mp hh
    have hlength : b.length = b.source.length := h.counted (pending_of_held hh).1
    obtain ⟨-, hopened, -⟩ := (h.reading _ hh).opened
    obtain ⟨hlt, -⟩ := List.getElem?_eq_some_iff.mp hopened
    rw [String.length_toList] at hlt
    have hmax : max b.length (l.start + 1) = b.source.length := by
      rw [hlength]
      exact Nat.max_eq_left hlt
    simp only [Batch.finish, hl, hmax] at hd
    exact ⟨_, rfl, (Except.error.inj hd).symm⟩

/-- The tokens that a line gives out tile its source. -/
theorem feed_tiled {b : Batch} (h : b.Faithful) {line : String} {tokens : List Token} {t : Token}
    (ha : (b.feed line).answer = .ok tokens) (ht : t ∈ tokens) :
    Tiled (b.feed line).next.source.toList tokens.reverse := by
  have hs := feed_shows h line
  simp only [ha] at hs
  generalize (b.feed line).next.held = held at hs
  cases hs with
  | complete htiled => exact htiled
  | pending => cases ht

end StringProcessor.Batch
