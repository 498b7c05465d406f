import StringProcessor.Batch
import StringProcessor.Proofs.Narration

/-! Scanning at different levels. The level of a scan is asked at every character and decides on nothing
but what is put on record. -/
namespace StringProcessor

namespace Scan

/-- The second scan is at the level where the first is at the fullest. -/
structure Under (level : Level) (s t : Scan) : Prop where
  full : s.level = .verbose
  same : t = { s with level, log := level.mute s.log }

variable {level : Level} {s t : Scan}

theorem Under.tell (h : Under level s t) {rs rs' : List Record} (hr : rs' = level.mute rs) :
    Under level (s.tell rs) (t.tell rs') := by
  obtain ⟨hs, rfl⟩ := h
  refine ⟨hs, ?_⟩
  simp only [Scan.tell, hr, Level.mute_append, Level.mute_reverse]

theorem Under.debug (h : Under level s t) (e : Event) : Under level (s.debug e) (t.debug e) := by
  refine h.tell ?_
  rw [h.full, h.same]
  exact level.debug_eq_mute ..

theorem Under.trace (h : Under level s t) (e : Event) : Under level (s.trace e) (t.trace e) := by
  refine h.tell ?_
  rw [h.full, h.same]
  exact level.trace_eq_mute ..

theorem Under.make (h : Under level s t) (token : Token) : Under level (s.make token) (t.make token) := by
  have hmade : Under level { s with tokens := token :: s.tokens } { t with tokens := token :: t.tokens } := by
    obtain ⟨hs, rfl⟩ := h
    exact ⟨hs, rfl⟩
  exact hmade.debug _

theorem Under.pass (h : Under level s t) (a : Activity) : Under level (s.pass a) (t.pass a) := by
  obtain ⟨hs, rfl⟩ := h
  exact ⟨hs, rfl⟩

theorem Under.activity (h : Under level s t) : t.activity = s.activity := by rw [h.same]

theorem Under.position (h : Under level s t) : t.position = s.position := by
  rw [h.same]
  rfl

theorem Under.lexeme (h : Under level s t) : t.lexeme = s.lexeme := by
  rw [h.same]
  rfl

theorem Under.endWord (h : Under level s t) : Under level s.endWord t.endWord := by
  have hended : Under level { s with activity := .between } { t with activity := .between } := by
    obtain ⟨hs, rfl⟩ := h
    exact ⟨hs, rfl⟩
  rw [Scan.endWord, Scan.endWord, h.activity]
  split
  · rw [h.lexeme]
    exact hended.make _
  · exact h

theorem Under.beginToken (h : Under level s t) (c : Char) :
    Under level (s.beginToken c) (t.beginToken c) := by
  have hbegun : Under level { s with start := s.current } { t with start := t.current } := by
    obtain ⟨hs, rfl⟩ := h
    exact ⟨hs, rfl⟩
  have hstuck : Under level { s with start := s.current, activity := .stuck c }
      { t with start := t.current, activity := .stuck c } := by
    obtain ⟨hs, rfl⟩ := h
    exact ⟨hs, rfl⟩
  have hopened : t.base + t.current = s.base + s.current := by rw [h.same]
  have hpassed := hbegun.pass .between
  have hlexeme := hpassed.lexeme
  unfold Scan.beginToken
  dsimp only
  split
  · rw [hopened]
    exact (hbegun.debug _).pass _
  · split
    · rw [hlexeme]
      exact hpassed.make _
    · split
      · rw [hlexeme]
        exact hpassed.make _
      · split
        · exact hbegun.pass _
        · exact hstuck

theorem Under.startToken (h : Under level s t) (c : Char) :
    Under level (s.startToken c) (t.startToken c) := by
  unfold Scan.startToken
  split
  · exact h.pass _
  · exact h.beginToken c

theorem Under.gather (h : Under level s t) (l : OpenLiteral) (c : Char) :
    Under level (s.gather l c) (t.gather l c) := by
  unfold Scan.gather
  have htold := h.trace (.literalRead c l.escaping l.gathered)
  have hpassed := htold.pass .between
  dsimp only
  split
  · exact htold.pass _
  · split
    · exact htold.pass _
    · split
      · rw [hpassed.position]
        exact hpassed.make _
      · exact htold.pass _

/-- A character is read in the same way at every level. -/
theorem Under.step (h : Under level s t) (c : Char) : Under level (s.step c) (t.step c) := by
  rw [Scan.step, Scan.step, h.activity]
  split
  · exact h.startToken c
  · split
    · exact h.pass _
    · exact h.endWord.startToken c
  · exact h.gather _ c
  · exact h

theorem Under.line (h : Under level s t) (cs : List Char) : Under level (s.line cs) (t.line cs) := by
  refine endWord ?_
  induction cs generalizing s t with
  | nil => exact h
  | cons c cs ih => exact ih (h.step c)

end Scan

namespace Batch

/-- The second batch is at the level where the first is at the fullest. -/
structure Under (level : Level) (b b' : Batch) : Prop where
  full : b.level = .verbose
  same : b' = { b with level }

variable {level : Level} {b b' : Batch}

theorem Under.conclude (h : Under level b b') {s t : Scan} (hs : Scan.Under level s t) :
    Turn.Muted level (Under level) (b.conclude s) (b'.conclude t) := by
  have hopen (l : OpenLiteral) := hs.debug (.literalLeftOpen l.delimiter s.tokens.length)
  obtain ⟨hb, rfl⟩ := h
  obtain ⟨-, rfl⟩ := id hs
  unfold Batch.conclude
  dsimp only
  split
  · exact ⟨⟨hb, rfl⟩, rfl, (level.mute_reverse _).symm⟩
  · rename_i l _
    refine ⟨⟨hb, rfl⟩, rfl, ?_⟩
    rw [(hopen l).same, Level.mute_reverse]
  · exact ⟨⟨hb, rfl⟩, rfl, (level.mute_reverse _).symm⟩

/-- A line comes to the same at every level. -/
theorem Under.feed (h : Under level b b') (line : String) :
    Turn.Muted level (Under level) (b.feed line) (b'.feed line) := by
  have hb : Under level (b.resume.append line) (b'.resume.append line) := by
    obtain ⟨hb, rfl⟩ := h
    unfold Batch.resume
    dsimp only
    split <;> exact ⟨hb, rfl⟩
  have hs : Scan.Under level (b.resume.append line).scan (b'.resume.append line).scan := by
    rw [hb.same]
    exact ⟨hb.full, rfl⟩
  have hline : (b'.resume.append line).line = (b.resume.append line).line := rfl
  unfold Batch.feed
  dsimp only
  rw [hline]
  exact hb.conclude ((hs.debug _).line _)

theorem Under.finish (h : Under level b b') :
    Turn.Muted level (Under level) b.finish b'.finish := by
  obtain ⟨hb, rfl⟩ := h
  exact ⟨⟨hb, rfl⟩, rfl, rfl⟩

end Batch
end StringProcessor
