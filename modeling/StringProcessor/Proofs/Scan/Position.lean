import StringProcessor.Proofs.Scan.Step

/-! Positions in scans. A scan passes one character after the other, and all tokens that it has made
stand before the word or the literal that it is reading. -/
namespace StringProcessor.Scan

theorem Starts.position {c : Char} {p p' : Nat} {m : Mode} {ts ts' : List Token}
    (h : Starts c p ts p' m ts') : p' = p + 1 ∨ p' = p ∧ m = .stuck c := by
  cases h with
  | illegal => exact .inr ⟨rfl, rfl⟩
  | _ => exact .inl rfl

/-- A character is passed, unless the scan is stuck. -/
theorem Reads.position {c : Char} {p p' : Nat} {m m' : Mode} {ts ts' : List Token}
    (h : Reads c p m ts p' m' ts') : p' = p + 1 ∨ p' = p ∧ ∃ c', m' = .stuck c' := by
  cases h with
  | starts h => exact h.position.imp_right fun ⟨hp, hm⟩ => ⟨hp, c, hm⟩
  | ends _ h => exact h.position.imp_right fun ⟨hp, hm⟩ => ⟨hp, c, hm⟩
  | stuck => exact .inr ⟨rfl, _, rfl⟩
  | _ => exact .inl rfl

theorem position_le_step (s : Scan) (c : Char) : s.position ≤ (s.step c).position := by
  rcases (step_reads s c).position with h | h <;> omega

theorem position_le_run (s : Scan) (cs : List Char) :
    s.position ≤ (cs.foldl step s).position := by
  induction cs generalizing s with
  | nil => exact Nat.le_refl _
  | cons c cs ih => exact Nat.le_trans (position_le_step s c) (ih _)

private theorem step_stuck {s : Scan} {c c' : Char} (h : s.mode = .stuck c') : s.step c = s := by
  rw [step, mode_eq_stuck_iff.mp h]

theorem run_stuck {s : Scan} {c : Char} (h : s.mode = .stuck c) (cs : List Char) :
    cs.foldl step s = s := by
  induction cs with
  | nil => rfl
  | cons c' cs ih => rw [List.foldl_cons, step_stuck h, ih]

/-- A text is passed as a whole, unless the scan is stuck. -/
theorem position_run (s : Scan) (cs : List Char) :
    (cs.foldl step s).position = s.position + cs.length ∨ ∃ c, (cs.foldl step s).mode = .stuck c := by
  induction cs generalizing s with
  | nil => exact .inl rfl
  | cons c cs ih =>
    rcases (step_reads s c).position with hp | ⟨_, c', hc⟩
    · refine (ih (s.step c)).imp_left fun h => ?_
      simp only [List.foldl_cons, h, hp, List.length_cons]
      omega
    · exact .inr ⟨c', by rw [List.foldl_cons, run_stuck hc, hc]⟩

/-- A scan that is stuck stands where a token was begun. -/
def Halted (s : Scan) : Prop := ∀ c, s.activity = .stuck c → s.start = s.current

theorem Halted.startToken (s : Scan) (c : Char) : (s.startToken c).Halted := by
  unfold Halted Scan.startToken beginToken
  repeat' split
  all_goals first | exact fun _ _ => rfl | rintro _ ⟨⟩

theorem Halted.step {s : Scan} (h : s.Halted) (c : Char) : (s.step c).Halted := by
  unfold Scan.step
  cases ha : s.activity with
  | between => exact .startToken s c
  | word letters =>
    dsimp only
    split
    · rintro _ ⟨⟩
    · exact .startToken _ c
  | literal l =>
    intro c' hc
    simp only [gather] at hc
    repeat' split at hc
    all_goals cases hc
  | stuck c' => exact h

theorem Halted.run {s : Scan} (h : s.Halted) (cs : List Char) : (cs.foldl Scan.step s).Halted := by
  induction cs generalizing s with
  | nil => exact h
  | cons c cs ih => exact ih (h.step c)

/-- Where the word or the literal that is being read starts. -/
def front (p : Nat) : Mode → Nat
  | .word start _ => start
  | .literal l => l.start
  | _ => p

/-- Tokens are not empty and end before what is being read, which starts before the position. -/
structure Settled (p : Nat) (m : Mode) (ts : List Token) : Prop where
  started : m = .between ∨ (∃ c, m = .stuck c) ∨ front p m < p
  tokens : ∀ t ∈ ts, t.span.start < t.span.stop ∧ t.span.stop ≤ front p m

namespace Settled
variable {p p' : Nat} {m m' : Mode} {ts ts' : List Token} {c : Char}

private theorem cons {t : Token} {q : Nat} (h : Settled p m ts) (hq : front p m ≤ t.span.start)
    (ht : t.span.start < t.span.stop) (hs : t.span.stop ≤ q) : Settled q .between (t :: ts) := by
  refine ⟨.inl rfl, fun u hu => ?_⟩
  rcases List.mem_cons.mp hu with rfl | hu
  · exact ⟨ht, hs⟩
  · have := h.tokens u hu
    exact ⟨this.1, by simp only [front]; omega⟩

private theorem later {q : Nat} (h : Settled p m ts)
    (hs : m' = .between ∨ (∃ c, m' = .stuck c) ∨ front q m' < q)
    (hf : front p m ≤ front q m') : Settled q m' ts :=
  ⟨hs, fun t ht => ⟨(h.tokens t ht).1, Nat.le_trans (h.tokens t ht).2 hf⟩⟩

theorem starts (h : Settled p .between ts) (hs : Starts c p ts p' m ts') : Settled p' m ts' := by
  cases hs with
  | blank => exact h.later (.inl rfl) (Nat.le_succ p)
  | quote => exact h.later (.inr (.inr (Nat.lt_succ_self p))) (Nat.le_refl p)
  | terminator => exact h.cons (Nat.le_refl p) (Nat.lt_succ_self p) (Nat.le_refl _)
  | operator => exact h.cons (Nat.le_refl p) (Nat.lt_succ_self p) (Nat.le_refl _)
  | letter => exact h.later (.inr (.inr (Nat.lt_succ_self p))) (Nat.le_refl p)
  | illegal => exact h.later (.inr (.inl ⟨c, rfl⟩)) (Nat.le_refl p)

/-- What is settled stays so with one more character. -/
theorem reads (h : Settled p m ts) (hr : Reads c p m ts p' m' ts') : Settled p' m' ts' := by
  have hs := h.started
  cases hr with
  | starts h' => exact h.starts h'
  | @goesOn start letters =>
    have hl : start < p := by simpa [front] using hs
    exact h.later (.inr (.inr (Nat.lt_succ_of_lt hl))) (Nat.le_refl _)
  | @ends _ start letters _ _ _ _ h' =>
    have hl : start < p := by simpa [front] using hs
    have hw : Settled p .between (wordToken (String.ofList letters.reverse) ⟨start, p⟩ :: ts) :=
      h.cons (Nat.le_refl _) hl (Nat.le_refl _)
    exact hw.starts h'
  | @escaped l | @backslash l | @plain l =>
    have hl : l.start < p := by simpa [front] using hs
    exact h.later (.inr (.inr (Nat.lt_succ_of_lt hl))) (Nat.le_refl _)
  | @closes l =>
    have hl : l.start < p := by simpa [front] using hs
    exact h.cons (Nat.le_refl _) (Nat.lt_succ_of_lt hl) (Nat.le_refl _)
  | stuck => exact h

theorem run {s : Scan} (h : Settled s.position s.mode s.tokens) (cs : List Char) :
    let s' := cs.foldl step s
    Settled s'.position s'.mode s'.tokens := by
  induction cs generalizing s with
  | nil => exact h
  | cons c cs ih => exact ih (h.reads (step_reads s c))

end Settled

section
variable {c : Char} {p p' q : Nat} {m m' : Mode} {ts ts' : List Token}

theorem Starts.kept (h : Starts c p ts p' m ts') : ts ⊆ ts' := by
  cases h with
  | terminator | operator => exact List.subset_cons_self _ _
  | _ => exact List.Subset.refl _

/-- Tokens that have been made are kept. -/
theorem Reads.kept (h : Reads c p m ts p' m' ts') : ts ⊆ ts' := by
  cases h with
  | starts h => exact h.kept
  | ends _ h => exact List.Subset.trans (List.subset_cons_self _ _) h.kept
  | closes => exact List.subset_cons_self _ _
  | _ => exact List.Subset.refl _

/-- A position inside a literal, behind its opening quote and, once it is closed, before its closing
quote. -/
inductive Enclosed (q p : Nat) : Mode → List Token → Prop
  | unclosed {l : OpenLiteral} {ts : List Token} : l.start < q → q < p →
      Enclosed q p (.literal l) ts
  | closed {t : Token} {m : Mode} {ts : List Token} : t ∈ ts → t.kind = .string →
      t.span.start < q → q + 1 < t.span.stop → Enclosed q p m ts

namespace Enclosed

/-- What is enclosed stays so with one more character. -/
theorem reads (h : Enclosed q p m ts) (hr : Reads c p m ts p' m' ts') : Enclosed q p' m' ts' := by
  cases h with
  | closed ht hk hs hq => exact .closed (hr.kept ht) hk hs hq
  | unclosed hs hq =>
    cases hr with
    | escaped | backslash | plain => exact .unclosed hs (Nat.lt_succ_of_lt hq)
    | closes => exact .closed (.head _) rfl hs (Nat.succ_lt_succ hq)

theorem later (h : Enclosed q p m ts) (hp : p ≤ p') : Enclosed q p' m ts := by
  cases h with
  | closed ht hk hs hq => exact .closed ht hk hs hq
  | unclosed hs hq => exact .unclosed hs (Nat.lt_of_lt_of_le hq hp)

theorem run {s : Scan} (h : Enclosed q s.position s.mode s.tokens) (cs : List Char) :
    let s' := cs.foldl step s
    Enclosed q s'.position s'.mode s'.tokens := by
  induction cs generalizing s with
  | nil => exact h
  | cons c cs ih => exact ih (h.reads (step_reads s c))

theorem endWord {s : Scan} (h : Enclosed q s.position s.mode s.tokens) :
    Enclosed q s.endWord.position s.endWord.mode s.endWord.tokens := by
  cases ha : s.activity with
  | word letters =>
    rw [mode_eq_word_iff.mpr ⟨ha, rfl⟩] at h
    obtain _ | ⟨ht, hk, hs, hq⟩ := h
    simp only [Scan.endWord, ha]
    exact .closed (.tail _ ht) hk hs hq
  | _ => simpa only [Scan.endWord, ha] using h

end Enclosed

end

end StringProcessor.Scan
