import StringProcessor.Proofs.Batch.Outcome

/-! What batches carry over. Of an earlier line nothing is seen again but an open literal, the tokens in
front of it and the source: where a token began is not asked before the next one has begun. -/
namespace StringProcessor

/-- Where the token began is still to be asked. -/
def Scan.Activity.begun : Activity → Bool
  | .word _ | .stuck _ => true
  | .between | .literal _ => false

namespace Scan

/-- The scans differ at most in where an earlier token began. -/
structure Alike (s t : Scan) : Prop where
  same : { s with start := t.start } = t
  start : s.activity.begun = true → s.start = t.start

variable {s t : Scan}

theorem Alike.refl (s : Scan) : Alike s s := ⟨rfl, fun _ => rfl⟩

theorem Alike.activity (h : Alike s t) : s.activity = t.activity := by rw [← h.same]

private theorem Alike.eq_of_begun (h : Alike s t) (hb : s.activity.begun = true) : s = t := by
  rw [← h.same, ← h.start hb]

private theorem Alike.of_not_begun (hs : { s with start := t.start } = t) (hb : s.activity.begun = false) :
    Alike s t := by
  refine ⟨hs, fun hb' => ?_⟩
  rw [hb] at hb'
  cases hb'

/-- A token that begins takes the place of the one before. -/
private theorem beginToken_start (s : Scan) (n : Nat) (c : Char) :
    ({ s with start := n }).beginToken c = s.beginToken c := rfl

/-- Inside a literal it does not matter where it began. -/
private theorem gather_start (s : Scan) (n : Nat) (l : OpenLiteral) (c : Char) :
    ({ s with start := n }).gather l c = { s.gather l c with start := n } := by
  unfold gather
  dsimp only
  split
  · rfl
  · split
    · rfl
    · split <;> rfl

private theorem gather_not_begun (s : Scan) (l : OpenLiteral) (c : Char) :
    (s.gather l c).activity.begun = false := by
  unfold gather
  dsimp only
  split
  · rfl
  · split
    · rfl
    · split <;> rfl

theorem Alike.startToken (h : Alike s t) (c : Char) :
    Alike (s.startToken c) (t.startToken c) := by
  unfold Scan.startToken
  split
  · exact .of_not_begun (by rw [← h.same]; rfl) rfl
  · rw [← h.same, beginToken_start]
    exact .refl _

/-- Scans that are alike read on alike. -/
theorem Alike.step (h : Alike s t) (c : Char) : Alike (s.step c) (t.step c) := by
  cases hb : s.activity.begun with
  | true =>
    rw [h.eq_of_begun hb]
    exact .refl _
  | false =>
    have ha := h.activity
    simp only [Scan.step, ← ha]
    cases hs : s.activity with
    | word letters | stuck c' =>
      rw [hs] at hb
      cases hb
    | between => exact h.startToken c
    | literal l =>
      have ht : t.gather l c = { s.gather l c with start := t.start } := by
        rw [← gather_start, h.same]
      show Alike (s.gather l c) (t.gather l c)
      rw [ht]
      exact .of_not_begun rfl (gather_not_begun s l c)

theorem Alike.endWord (h : Alike s t) : Alike s.endWord t.endWord := by
  cases hb : s.activity.begun with
  | true =>
    rw [h.eq_of_begun hb]
    exact .refl _
  | false =>
    have ha := h.activity
    simp only [Scan.endWord, ← ha]
    cases hs : s.activity with
    | word letters | stuck c =>
      rw [hs] at hb
      cases hb
    | between | literal l => exact h

theorem Alike.line (h : Alike s t) (cs : List Char) : Alike (s.line cs) (t.line cs) := by
  refine endWord ?_
  induction cs generalizing s t with
  | nil => exact h
  | cons c cs ih => exact ih (h.step c)

end Scan

namespace Batch

/-- The batches differ at most in what is left over from lines that are over. -/
structure Alike (b b' : Batch) : Prop where
  level : b.level = b'.level
  held : b.held = b'.held
  source : b.pending = true → b.source = b'.source ∧ b.length = b'.length

variable {b b' : Batch}

theorem Alike.literal (h : Alike b b') : b.literal = b'.literal := by
  have hl := congrArg (Option.map Held.literal) h.held
  simpa [Batch.held, Function.comp_def] using hl

theorem Alike.pending (h : Alike b b') : b.pending = b'.pending := by
  rw [Batch.pending, Batch.pending, h.literal]

theorem Alike.of_not_pending (hl : b.level = b'.level) (hb : b.pending = false)
    (hb' : b'.pending = false) : Alike b b' := by
  refine ⟨hl, (held_eq_none_iff.mpr hb).trans (held_eq_none_iff.mpr hb').symm, fun hp => ?_⟩
  rw [hb] at hp
  cases hp

/-- The next line finds the same in both. -/
theorem Alike.resume (h : Alike b b') :
    b.resume.level = b'.resume.level ∧ b.resume.source = b'.resume.source ∧
      b.resume.length = b'.resume.length ∧ b.resume.tokens = b'.resume.tokens ∧
      b.resume.literal = b'.resume.literal := by
  have hl := h.literal
  cases hb : b.literal with
  | none =>
    rw [hb] at hl
    simp only [Batch.resume, hb, ← hl]
    exact ⟨h.level, trivial, trivial, trivial, trivial⟩
  | some l =>
    rw [hb] at hl
    obtain ⟨hsource, hlength⟩ := h.source (by rw [Batch.pending, hb]; rfl)
    have htokens : b.tokens = b'.tokens := by
      have hh := h.held
      simp only [Batch.held, hb, ← hl, Option.map_some] at hh
      exact congrArg Held.tokens (Option.some.inj hh)
    simp only [Batch.resume, hb, ← hl]
    exact ⟨h.level, by rw [hsource], by rw [hlength], htokens, trivial⟩

/-- Alike scans come to the same, and leave alike batches of one source. -/
private theorem conclude_alike {s t : Scan} (hl : b.level = b'.level) (hs : b.source = b'.source)
    (hn : b.length = b'.length) (h : Scan.Alike s t) :
    (b.conclude s).answer = (b'.conclude t).answer ∧ (b.conclude s).log = (b'.conclude t).log ∧
      Alike (b.conclude s).next (b'.conclude t).next ∧
      (b.conclude s).next.source = (b'.conclude t).next.source := by
  have ha := h.activity
  have htokens : s.tokens = t.tokens := by rw [← h.same]
  have hlog : s.log = t.log := by rw [← h.same]
  have hlevel : s.level = t.level := by rw [← h.same]
  simp only [conclude, ← ha]
  cases hact : s.activity with
  | stuck c =>
    obtain rfl := h.eq_of_begun (by rw [hact]; rfl)
    exact ⟨rfl, rfl, ⟨hl, rfl, fun _ => ⟨hs, hn⟩⟩, hs⟩
  | literal l =>
    refine ⟨rfl, ?_, ⟨hl, ?_, fun _ => ⟨hs, hn⟩⟩, hs⟩
    · simp only [Scan.debug, Scan.tell, htokens, hlog, hlevel]
    · simp only [Batch.held, htokens]
  | between | word letters =>
    exact ⟨by simp only [htokens], by simp only [hlog], ⟨hl, rfl, fun _ => ⟨hs, hn⟩⟩, hs⟩

/-- Alike batches answer a line alike, tell the same about it, and stay alike. -/
theorem Alike.feed (h : Alike b b') (line : String) :
    (b.feed line).answer = (b'.feed line).answer ∧ (b.feed line).log = (b'.feed line).log ∧
      Alike (b.feed line).next (b'.feed line).next ∧
      (b.feed line).next.source = (b'.feed line).next.source := by
  obtain ⟨hlevel, hsource, hlength, htokens, hliteral⟩ := h.resume
  refine conclude_alike hlevel (congrArg (· ++ line) hsource)
    (congrArg (· + line.length) hlength) (Scan.Alike.line (.of_not_begun ?_ ?_) _)
  · simp only [Batch.append, Batch.scan, Scan.debug, Scan.tell, hlevel, hlength, htokens, hliteral]
  · show (b.resume.literal.elim Scan.Activity.between .literal).begun = false
    cases b.resume.literal <;> rfl

theorem Alike.finish (h : Alike b b') :
    b.finish.answer = b'.finish.answer ∧ Alike b.finish.next b'.finish.next := by
  refine ⟨?_, .of_not_pending h.level rfl rfl⟩
  have hl := h.literal
  cases hb : b.literal with
  | none =>
    rw [hb] at hl
    simp only [Batch.finish, hb, ← hl]
  | some l =>
    rw [hb] at hl
    obtain ⟨-, hlength⟩ := h.source (by rw [Batch.pending, hb]; rfl)
    simp only [Batch.finish, hb, ← hl, hlength]

theorem level_feed (b : Batch) (line : String) : (b.feed line).next.level = b.level := by
  have hr : b.resume.level = b.level := by
    unfold resume
    split <;> rfl
  simp only [feed, conclude]
  split <;> exact hr

end Batch
end StringProcessor
