import StringProcessor.Proofs.Scan.Position

/-! Scans elsewhere. What a scan reads does not depend on where in the source it stands: the same text
gives the same tokens, with their spans moved. -/
namespace StringProcessor

def Span.move (f : Nat → Nat) (s : Span) : Span := ⟨f s.start, f s.stop⟩

def Token.move (f : Nat → Nat) (t : Token) : Token := { t with span := t.span.move f }

def OpenLiteral.move (f : Nat → Nat) (l : OpenLiteral) : OpenLiteral := { l with start := f l.start }

def Diagnostic.move (f : Nat → Nat) (d : Diagnostic) : Diagnostic := { d with span := d.span.move f }

def Batch.Held.move (f : Nat → Nat) (h : Batch.Held) : Batch.Held :=
  ⟨h.tokens.map (Token.move f), h.literal.move f⟩

namespace Scan

def Mode.move (f : Nat → Nat) : Mode → Mode
  | .between => .between
  | .word start letters => .word (f start) letters
  | .literal l => .literal (l.move f)
  | .stuck c => .stuck c

/-- The second scan has read the same as the first, elsewhere. What the scans tell is left open. -/
structure Moved (f : Nat → Nat) (s t : Scan) : Prop where
  position : t.position = f s.position
  mode : t.mode = s.mode.move f
  tokens : t.tokens = s.tokens.map (Token.move f)

namespace Moved
variable {f : Nat → Nat} {s t : Scan}

private theorem position_succ (h : Moved f s t) (hf : f (s.position + 1) = f s.position + 1) :
    t.position + 1 = f (s.position + 1) := by
  rw [h.position, hf]

/-- The character that a scan stands before, as a token. -/
private theorem single (h : Moved f s t) (hf : f (s.position + 1) = f s.position + 1)
    (kind : TokenKind) (text : String) :
    (⟨kind, text, ⟨t.position, t.position + 1⟩⟩ : Token) :: t.tokens =
      ((⟨kind, text, ⟨s.position, s.position + 1⟩⟩ : Token) :: s.tokens).map (Token.move f) := by
  rw [List.map_cons, Token.move, Span.move, ← h.position_succ hf, ← h.position, h.tokens]

theorem endWord (h : Moved f s t) : Moved f s.endWord t.endWord := by
  have ht := h.mode
  cases hs : s.activity with
  | word letters =>
    rw [mode_eq_word_iff.mpr ⟨hs, rfl⟩, Mode.move] at ht
    obtain ⟨ht, hstart⟩ := mode_eq_word_iff.mp ht
    simp only [Scan.endWord, hs, ht]
    refine ⟨h.position, rfl, ?_⟩
    simp only [tokens_make, List.map_cons, h.tokens]
    congr 1
    change wordToken _ ⟨t.base + t.start, t.position⟩ = wordToken _ ⟨f (s.base + s.start), f s.position⟩
    rw [hstart, h.position]
  | between =>
    rw [mode_eq_between_iff.mpr hs] at ht
    simpa only [Scan.endWord, hs, mode_eq_between_iff.mp ht] using h
  | literal l =>
    rw [mode_eq_literal_iff.mpr hs] at ht
    simpa only [Scan.endWord, hs, mode_eq_literal_iff.mp ht] using h
  | stuck c =>
    rw [mode_eq_stuck_iff.mpr hs] at ht
    simpa only [Scan.endWord, hs, mode_eq_stuck_iff.mp ht] using h

private theorem branch {p : Prop} [Decidable p] {s t s' t' : Scan} (h : p → Moved f s t)
    (h' : ¬ p → Moved f s' t') : Moved f (if p then s else s') (if p then t else t') := by
  by_cases hp : p
  · simpa only [if_pos hp] using h hp
  · simpa only [if_neg hp] using h' hp

theorem startToken (h : Moved f s t) (hf : f (s.position + 1) = f s.position + 1) (c : Char) :
    Moved f (s.startToken c) (t.startToken c) := by
  have hp := h.position_succ hf
  refine branch (fun _ => ⟨hp, rfl, h.tokens⟩) fun _ => branch (fun _ => ⟨hp, ?_, h.tokens⟩) fun _ =>
    branch (fun _ => ⟨hp, rfl, h.single hf _ _⟩) fun _ =>
    branch (fun _ => ⟨hp, rfl, h.single hf _ _⟩) fun _ => branch (fun _ => ⟨hp, ?_, h.tokens⟩) fun _ =>
    ⟨h.position, rfl, h.tokens⟩
  · exact congrArg (fun p => Mode.literal ⟨c, p, false, []⟩) h.position
  · exact congrArg (fun p => Mode.word p [c]) h.position

theorem gather (h : Moved f s t) (hf : f (s.position + 1) = f s.position + 1) (l : OpenLiteral)
    (c : Char) : Moved f (s.gather l c) (t.gather (l.move f) c) := by
  have hp := h.position_succ hf
  refine branch (fun _ => ⟨hp, rfl, h.tokens⟩) fun _ => branch (fun _ => ⟨hp, rfl, h.tokens⟩) fun _ =>
    branch (fun _ => ⟨hp, rfl, ?_⟩) fun _ => ⟨hp, rfl, h.tokens⟩
  change (⟨.string, l.text, ⟨f l.start, t.position + 1⟩⟩ : Token) :: t.tokens =
    (⟨.string, l.text, ⟨l.start, s.position + 1⟩⟩ :: s.tokens).map (Token.move f)
  rw [hp, h.tokens]
  rfl

/-- A character is read in the same way, wherever it stands. -/
theorem step (h : Moved f s t) (hf : f (s.position + 1) = f s.position + 1) (c : Char) :
    Moved f (s.step c) (t.step c) := by
  have ht := h.mode
  cases hs : s.activity with
  | between =>
    rw [mode_eq_between_iff.mpr hs] at ht
    simpa only [Scan.step, hs, mode_eq_between_iff.mp ht] using h.startToken hf c
  | word letters =>
    rw [mode_eq_word_iff.mpr ⟨hs, rfl⟩, Mode.move] at ht
    obtain ⟨ht, hstart⟩ := mode_eq_word_iff.mp ht
    simp only [Scan.step, hs, ht]
    refine branch (fun _ => ⟨h.position_succ hf, ?_, h.tokens⟩) fun _ => h.endWord.startToken ?_ c
    · exact congrArg (fun p => Mode.word p (c :: letters)) hstart
    · simpa only [position_endWord] using hf
  | literal l =>
    rw [mode_eq_literal_iff.mpr hs] at ht
    simpa only [Scan.step, hs, mode_eq_literal_iff.mp ht] using h.gather hf l c
  | stuck c' =>
    rw [mode_eq_stuck_iff.mpr hs] at ht
    simpa only [Scan.step, hs, mode_eq_stuck_iff.mp ht] using h

/-- So is a text, if the positions behind the first scan stay next to each other. -/
theorem run (h : Moved f s t) (hf : ∀ p, s.position ≤ p → f (p + 1) = f p + 1) (cs : List Char) :
    Moved f (cs.foldl Scan.step s) (cs.foldl Scan.step t) := by
  induction cs generalizing s t with
  | nil => exact h
  | cons c cs ih =>
    have hs := position_le_step s c
    exact ih (h.step (hf _ (Nat.le_refl _)) c) fun p hp => hf p (Nat.le_trans hs hp)

end Moved

end Scan
end StringProcessor
