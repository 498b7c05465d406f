import StringProcessor.Text.Quoted

/-! Quoted values. The quoted form of a value has no control character, and it can be told where it ends
and what value it shows, whatever stands behind it. -/
namespace StringProcessor.Text

/-- A hexadecimal digit as it is written in a quoted value. -/
def upperDigit (n : Nat) : Char := n.digitChar.toUpper

def digitValue (c : Char) : Nat := if c.isDigit then c.toNat - '0'.toNat else c.toNat - 'A'.toNat + 10

private theorem digitValue_upperDigit : ∀ n < 16, digitValue (upperDigit n) = n := by decide

private theorem upperDigit_visible : ∀ n < 16, isControl (upperDigit n) = false := by decide

theorem upperHex_digit {n : Nat} (h : n < 16) : upperHex n = [upperDigit n] := by
  rw [upperHex, hex, Nat.toDigits_of_lt_base h]
  rfl

theorem upperHexByte_eq {n : Nat} (h : n < 256) :
    upperHexByte n = [upperDigit (n / 16), upperDigit (n % 16)] := by
  rw [upperHexByte, upperHex_digit (by omega), upperHex_digit (by omega)]
  rfl

private theorem upperHex_eq_byte {n : Nat} (h : 16 ≤ n) (h' : n < 256) : upperHex n = upperHexByte n := by
  rw [upperHexByte_eq h', upperHex, hex, Nat.toDigits_of_base_le (by decide) h,
    Nat.toDigits_of_lt_base (by omega)]
  rfl

def letters : List (Char × Char) :=
  [('"', '"'), ('\\', '\\'), ('a', '\x07'), ('b', '\x08'), ('t', '\t'), ('n', '\n'), ('v', '\x0B'),
    ('f', '\x0C'), ('r', '\r'), ('e', '\x1B')]

/-- How a character is shown: by a letter, as itself, or by two digits. -/
inductive Shown (c : Char) : List Char → Prop
  | letter {l : Char} : (l, c) ∈ letters → Shown c ['\\', l]
  | plain : c ≠ '"' → c ≠ '\\' → isControl c = false → Shown c [c]
  | byte {high low : Nat} : high < 16 → low < 16 → c.toNat = 16 * high + low →
      Shown c ['\\', 'x', upperDigit high, upperDigit low]
  | code {high low : Nat} : high < 16 → low < 16 → c.toNat = 16 * high + low →
      Shown c ['\\', 'u', '{', upperDigit high, upperDigit low, '}']

theorem quotedLetter?_some {c l : Char} (h : quotedLetter? c = some l) : (l, c) ∈ letters := by
  have hc (n : Nat) (hn : c.toNat = n) : c = Char.ofNat n := by rw [← hn, Char.ofNat_toNat]
  unfold quotedLetter? at h
  split at h
  case h_11 => cases h
  all_goals
    rename_i hn
    obtain rfl := Option.some.inj h
    rw [hc _ hn]
    decide

theorem quotedChar_shown (c : Char) : Shown c (quotedChar c) := by
  unfold quotedChar
  split
  · rename_i l hl
    exact .letter (quotedLetter?_some hl)
  rename_i hl
  split
  · rename_i hv
    refine .plain ?_ ?_ (by simpa using hv)
    · rintro rfl
      cases hl
    · rintro rfl
      cases hl
  rename_i hv
  split
  · rename_i hn
    rw [upperHexByte_eq (by omega)]
    exact .byte (by omega) (by omega) (by omega)
  · rename_i hn
    have hlt : c.toNat < 0xA0 := by
      simp [isControl] at hv
      omega
    rw [upperHex_eq_byte (by omega) (by omega), upperHexByte_eq (by omega)]
    exact .code (by omega) (by omega) (by omega)

def ofDigits (high low : Char) : Char := .ofNat (16 * digitValue high + digitValue low)

private theorem ofDigits_upperDigit {c : Char} {high low : Nat} (hh : high < 16) (hl : low < 16)
    (hc : c.toNat = 16 * high + low) : ofDigits (upperDigit high) (upperDigit low) = c := by
  rw [ofDigits, digitValue_upperDigit high hh, digitValue_upperDigit low hl, ← hc, Char.ofNat_toNat]

/-- Reads back the character that is shown first, and tells what stands behind it. -/
def readShown : List Char → Option (Char × List Char)
  | '\\' :: 'x' :: high :: low :: rest => some (ofDigits high low, rest)
  | '\\' :: 'u' :: '{' :: high :: low :: '}' :: rest => some (ofDigits high low, rest)
  | '\\' :: l :: rest => (letters.lookup l).map (·, rest)
  | c :: rest => some (c, rest)
  | [] => none

namespace Shown
variable {c : Char} {form : List Char}

theorem read (h : Shown c form) (rest : List Char) : readShown (form ++ rest) = some (c, rest) := by
  cases h with
  | letter hl =>
    simp only [letters, List.mem_cons, Prod.mk.injEq, List.not_mem_nil, or_false] at hl
    rcases hl with ⟨rfl, rfl⟩ | ⟨rfl, rfl⟩ | ⟨rfl, rfl⟩ | ⟨rfl, rfl⟩ | ⟨rfl, rfl⟩ | ⟨rfl, rfl⟩ |
      ⟨rfl, rfl⟩ | ⟨rfl, rfl⟩ | ⟨rfl, rfl⟩ | ⟨rfl, rfl⟩ <;> rfl
  | plain _ hb _ => simp [readShown, hb]
  | byte hh hl hc | code hh hl hc => simp [readShown, ofDigits_upperDigit hh hl hc]

/-- No character is shown by what starts with the quote that ends a value. -/
private theorem ne_quote (h : Shown c form) (rest rest' : List Char) : form ++ rest ≠ '"' :: rest' := by
  cases h with
  | plain hq => simpa using fun he => absurd he hq
  | _ => simp

private theorem visible (h : Shown c form) : ∀ c' ∈ form, isControl c' = false := by
  have hfixed : ∀ c' ∈ ['\\', 'x', 'u', '{', '}'], isControl c' = false := by simp [isControl]
  have hletters : ∀ p ∈ letters, isControl p.1 = false := by simp [letters, isControl]
  cases h with
  | letter hl => simpa [hfixed] using hletters _ hl
  | plain _ _ hv => simpa using hv
  | byte hh hl _ | code hh hl _ =>
    simp [hfixed, upperDigit_visible _ hh, upperDigit_visible _ hl]

end Shown

/-- The characters of a value can be read back one by one: where the form of the first ends, and which
one it is, does not depend on what stands behind it. -/
private theorem quotedChar_unique {c c' : Char} {rest rest' : List Char}
    (h : quotedChar c ++ rest = quotedChar c' ++ rest') : c = c' ∧ rest = rest' := by
  have hr := (quotedChar_shown c).read rest
  rw [h, (quotedChar_shown c').read] at hr
  simpa [eq_comm] using hr

/-- So can the value, up to the quote that ends it. -/
theorem quotedChars_unique {text text' rest rest' : List Char}
    (h : quotedChars text ++ rest = quotedChars text' ++ rest') : text = text' ∧ rest = rest' := by
  simp only [quotedChars, List.cons_append, List.append_assoc, List.cons.injEq, true_and,
    List.nil_append] at h
  induction text generalizing text' with
  | nil =>
    cases text' with
    | nil => simpa using h
    | cons c' text' =>
      rw [List.flatMap_cons, List.append_assoc] at h
      exact absurd h.symm ((quotedChar_shown c').ne_quote _ _)
  | cons c text ih =>
    rw [List.flatMap_cons, List.append_assoc] at h
    cases text' with
    | nil => exact absurd h ((quotedChar_shown c).ne_quote _ _)
    | cons c' text' =>
      rw [List.flatMap_cons, List.append_assoc] at h
      obtain ⟨rfl, hrest⟩ := quotedChar_unique h
      obtain ⟨rfl, rfl⟩ := ih hrest
      exact ⟨rfl, rfl⟩

theorem quotedChars_visible (text : List Char) : ∀ c ∈ quotedChars text, isControl c = false := by
  intro c hc
  simp only [quotedChars, List.mem_cons, List.mem_append, List.mem_flatMap] at hc
  rcases hc with (rfl | ⟨c', -, hc⟩) | rfl | hc
  · decide
  · exact (quotedChar_shown c').visible c hc
  · decide
  · cases hc

end StringProcessor.Text
