import StringProcessor.Batch

/-! One step of a scan. What a character does is written down once, without the events, and
everything that scans keep follows from it. -/
namespace StringProcessor.Scan

/-- What a scan is in the middle of, with the position in the source where a word began. -/
inductive Mode
  | between
  | word (start : Nat) (letters : List Char)
  | literal (l : OpenLiteral)
  | stuck (c : Char)

def mode (s : Scan) : Mode :=
  match s.activity with
  | .between => .between
  | .word letters => .word (s.base + s.start) letters
  | .literal l => .literal l
  | .stuck c => .stuck c

theorem mode_eq_between_iff {s : Scan} : s.mode = .between ↔ s.activity = .between := by
  cases h : s.activity <;> simp [mode, h]

theorem mode_eq_word_iff {s : Scan} {start : Nat} {letters : List Char} :
    s.mode = .word start letters ↔ s.activity = .word letters ∧ s.base + s.start = start := by
  cases h : s.activity <;> simp [mode, h, and_comm]

theorem mode_eq_literal_iff {s : Scan} {l : OpenLiteral} :
    s.mode = .literal l ↔ s.activity = .literal l := by
  cases h : s.activity <;> simp [mode, h]

theorem mode_eq_stuck_iff {s : Scan} {c : Char} : s.mode = .stuck c ↔ s.activity = .stuck c := by
  cases h : s.activity <;> simp [mode, h]

@[simp] theorem position_tell (s : Scan) (rs : List Record) : (s.tell rs).position = s.position := rfl
@[simp] theorem mode_tell (s : Scan) (rs : List Record) : (s.tell rs).mode = s.mode := rfl
@[simp] theorem tokens_tell (s : Scan) (rs : List Record) : (s.tell rs).tokens = s.tokens := rfl
@[simp] theorem position_make (s : Scan) (t : Token) : (s.make t).position = s.position := rfl
@[simp] theorem mode_make (s : Scan) (t : Token) : (s.make t).mode = s.mode := rfl
@[simp] theorem tokens_make (s : Scan) (t : Token) : (s.make t).tokens = t :: s.tokens := rfl
@[simp] theorem position_pass (s : Scan) (a : Activity) : (s.pass a).position = s.position + 1 := rfl
@[simp] theorem tokens_pass (s : Scan) (a : Activity) : (s.pass a).tokens = s.tokens := rfl

@[simp] theorem position_endWord (s : Scan) : s.endWord.position = s.position := by
  unfold endWord
  split <;> rfl

theorem endWord_of_between {s : Scan} (h : s.mode = .between) : s.endWord = s := by
  rw [endWord, mode_eq_between_iff.mp h]

theorem endWord_of_literal {s : Scan} {l : OpenLiteral} (h : s.mode = .literal l) : s.endWord = s := by
  rw [endWord, mode_eq_literal_iff.mp h]

theorem endWord_of_stuck {s : Scan} {c : Char} (h : s.mode = .stuck c) : s.endWord = s := by
  rw [endWord, mode_eq_stuck_iff.mp h]

theorem wordToken_kind (text : String) (span : Span) :
    (wordToken text span).kind = .keyword ∨ (wordToken text span).kind = .name := by
  unfold wordToken
  split
  · exact .inl rfl
  · exact .inr rfl

private theorem isQuote_iff {c : Char} : isQuote c ↔ c = '"' ∨ c = '\x27' := by simp [isQuote]

theorem quote_not_blank {c : Char} (h : isQuote c) : ¬ Text.isBlank c := by
  obtain rfl | rfl := isQuote_iff.mp h <;> decide

theorem isNameChar_of_isAlpha {c : Char} (h : c.isAlpha) : isNameChar c := by
  simp [isNameChar, Char.isAlphanum, h]

/-- Words are of visible ASCII characters. -/
theorem isNameChar_range {c : Char} (h : isNameChar c) : 48 ≤ c.toNat ∧ c.toNat ≤ 122 := by
  have hranges : isNameChar c =
      (decide (65 ≤ c.val ∧ c.val ≤ 90) || (decide (97 ≤ c.val) && decide (c.val ≤ 122)) ||
        (decide (48 ≤ c.val) && decide (c.val ≤ 57)) || c == '_') := rfl
  simp only [hranges, Bool.or_eq_true, Bool.and_eq_true, decide_eq_true_eq, beq_iff_eq,
    UInt32.le_iff_toNat_le, Char.toNat_val] at h
  rcases h with ((⟨hA, hZ⟩ | ⟨ha, hz⟩) | ⟨h0, h9⟩) | rfl
  · exact ⟨Nat.le_trans (by decide) hA, Nat.le_trans hZ (by decide)⟩
  · exact ⟨Nat.le_trans (by decide) ha, hz⟩
  · exact ⟨h0, Nat.le_trans h9 (by decide)⟩
  · decide

/-- A letter starts a word and nothing else. -/
theorem letter_only {c : Char} (h : c.isAlpha) :
    ¬ Text.isBlank c ∧ ¬ isQuote c ∧ c ≠ ';' ∧ c ≠ '+' := by
  refine ⟨?_, ?_, ?_, ?_⟩
  · have hn := isNameChar_range (isNameChar_of_isAlpha h)
    simp [Text.isBlank, Text.blankRanges, Text.inRanges]
    omega
  · rw [isQuote_iff]
    rintro (rfl | rfl) <;> cases h
  · rintro rfl
    cases h
  · rintro rfl
    cases h

/-- What a character does between tokens, to the position, the mode and the tokens. -/
inductive Starts (c : Char) (p : Nat) (ts : List Token) : Nat → Mode → List Token → Prop
  | blank : Text.isBlank c → Starts c p ts (p + 1) .between ts
  | quote : isQuote c → Starts c p ts (p + 1) (.literal ⟨c, p, false, []⟩) ts
  | terminator : c = ';' → Starts c p ts (p + 1) .between (⟨.terminator, ";", .single p⟩ :: ts)
  | operator : c = '+' → Starts c p ts (p + 1) .between (⟨.operator, "+", .single p⟩ :: ts)
  | letter : c.isAlpha → Starts c p ts (p + 1) (.word p [c]) ts
  | illegal : ¬ Text.isBlank c → ¬ isQuote c → c ≠ ';' → c ≠ '+' → ¬ c.isAlpha →
      Starts c p ts p (.stuck c) ts

/-- What a character does, to the position, the mode and the tokens. -/
inductive Reads (c : Char) : Nat → Mode → List Token → Nat → Mode → List Token → Prop
  | starts {p p' : Nat} {m : Mode} {ts ts' : List Token} :
      Starts c p ts p' m ts' → Reads c p .between ts p' m ts'
  | goesOn {p start : Nat} {letters : List Char} {ts : List Token} : isNameChar c →
      Reads c p (.word start letters) ts (p + 1) (.word start (c :: letters)) ts
  | ends {p p' start : Nat} {letters : List Char} {m : Mode} {ts ts' : List Token} :
      isNameChar c = false →
      Starts c p (wordToken (String.ofList letters.reverse) ⟨start, p⟩ :: ts) p' m ts' →
      Reads c p (.word start letters) ts p' m ts'
  | escaped {p : Nat} {l : OpenLiteral} {ts : List Token} : l.escaping →
      Reads c p (.literal l) ts (p + 1)
        (.literal { l with escaping := false, gathered := unescape c :: l.gathered }) ts
  | backslash {p : Nat} {l : OpenLiteral} {ts : List Token} : l.escaping = false → c = '\\' →
      Reads c p (.literal l) ts (p + 1) (.literal { l with escaping := true }) ts
  | closes {p : Nat} {l : OpenLiteral} {ts : List Token} : l.escaping = false → c = l.delimiter →
      Reads c p (.literal l) ts (p + 1) .between (⟨.string, l.text, ⟨l.start, p + 1⟩⟩ :: ts)
  | plain {p : Nat} {l : OpenLiteral} {ts : List Token} :
      l.escaping = false → c ≠ '\\' → c ≠ l.delimiter →
      Reads c p (.literal l) ts (p + 1) (.literal { l with gathered := c :: l.gathered }) ts
  | stuck {p : Nat} {c' : Char} {ts : List Token} : Reads c p (.stuck c') ts p (.stuck c') ts

private theorem startToken_starts (s : Scan) (c : Char) :
    let s' := s.startToken c
    Starts c s.position s.tokens s'.position s'.mode s'.tokens := by
  unfold startToken
  split
  · exact .blank ‹_›
  · rename_i hb
    unfold beginToken
    split
    · exact .quote ‹_›
    · rename_i hq
      split
      · exact .terminator (by simpa using ‹(c == ';') = true›)
      · split
        · exact .operator (by simpa using ‹(c == '+') = true›)
        · split
          · exact .letter ‹_›
          · exact .illegal hb hq (by simpa using ‹¬(c == ';') = true›)
              (by simpa using ‹¬(c == '+') = true›) ‹_›

theorem step_reads (s : Scan) (c : Char) :
    let s' := s.step c
    Reads c s.position s.mode s.tokens s'.position s'.mode s'.tokens := by
  unfold step
  cases ha : s.activity with
  | between =>
    rw [mode_eq_between_iff.mpr ha]
    exact .starts (startToken_starts s c)
  | word letters =>
    rw [mode_eq_word_iff.mpr ⟨ha, rfl⟩]
    cases hc : isNameChar c with
    | true => exact .goesOn hc
    | false =>
      have hs := startToken_starts s.endWord c
      simp only [endWord, ha] at hs ⊢
      exact .ends hc hs
  | literal l =>
    rw [mode_eq_literal_iff.mpr ha]
    simp only [gather]
    split
    · exact .escaped ‹_›
    · rename_i he
      rw [Bool.not_eq_true] at he
      split
      · exact .backslash he (by simpa using ‹(c == '\\') = true›)
      · split
        · exact .closes he (by simpa using ‹(c == l.delimiter) = true›)
        · exact .plain he (by simpa using ‹¬(c == '\\') = true›)
            (by simpa using ‹¬(c == l.delimiter) = true›)
  | stuck c' =>
    simp only [mode_eq_stuck_iff.mpr ha]
    exact .stuck

end StringProcessor.Scan
