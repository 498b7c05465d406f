import StringProcessor.Proofs.Batch.Lexing
import StringProcessor.Proofs.Text.Quoted

/-! Quoted values as literals. The form in which a value is listed is a literal of the language, but it does
not always stand for the value: the language knows fewer escapes than listings use. -/
namespace StringProcessor

namespace Lexical
open Text

/-- The form of a listed character as pieces of a literal. A backslash goes with what is behind it. -/
def pieces : List Char → List Piece
  | '\\' :: c :: form => .escaped c :: form.map .plain
  | form => form.map .plain

private theorem spelling_plain (form : List Char) :
    (form.map Piece.plain).flatMap Piece.spelling = form := by
  induction form with
  | nil => rfl
  | cons c form ih => simpa [Piece.spelling] using ih

theorem spelling_pieces (form : List Char) : (pieces form).flatMap Piece.spelling = form := by
  unfold pieces
  split
  · simp [Piece.spelling, spelling_plain]
  · exact spelling_plain form

private theorem upperDigit_ne : ∀ n < 16, upperDigit n ≠ '"' ∧ upperDigit n ≠ '\\' := by decide

/-- The pieces of a listed character may stand between double quotes. -/
private theorem fits_pieces {c : Char} {form : List Char} (h : Shown c form) :
    ∀ p ∈ pieces form, p.Fits '"' := by
  cases h with
  | letter => simp [pieces, Piece.Fits]
  | plain hq hb => simp [pieces, Piece.Fits, hq, hb]
  | byte hh hl | code hh hl => simp [pieces, Piece.Fits, upperDigit_ne _ hh, upperDigit_ne _ hl]

/-- The character is read back as itself: it is no control character, or one that has a letter in the
language. -/
def Legible (c : Char) : Prop := isControl c → 0x07 ≤ c.toNat ∧ c.toNat ≤ 0x0D

private theorem value_letter {c l : Char} (h : (l, c) ∈ letters) :
    (Piece.escaped l).value = c ↔ Legible c := by
  have hall : ∀ p ∈ letters, (Piece.escaped p.1).value = p.2 ↔
      (isControl p.2 → 0x07 ≤ p.2.toNat ∧ p.2.toNat ≤ 0x0D) := by decide
  exact hall _ h

private theorem not_legible {c : Char} (hl : quotedLetter? c = none) (hc : isControl c) : ¬ Legible c := by
  intro h
  obtain ⟨hlow, hhigh⟩ := h hc
  have hn : c.toNat = 7 ∨ c.toNat = 8 ∨ c.toNat = 9 ∨ c.toNat = 10 ∨ c.toNat = 11 ∨ c.toNat = 12 ∨
      c.toNat = 13 := by omega
  rcases hn with hn | hn | hn | hn | hn | hn | hn <;> simp [quotedLetter?, hn] at hl

/-- A character that is shown by number is read back as more than one. -/
private theorem value_pieces (c : Char) :
    (pieces (quotedChar c)).map Piece.value = [c] ↔ Legible c := by
  cases hl : quotedLetter? c with
  | some l => simpa [quotedChar, hl, pieces] using value_letter (quotedLetter?_some hl)
  | none =>
    cases hc : isControl c with
    | false => simp [quotedChar, hl, hc, pieces, Piece.value, Legible]
    | true =>
      refine iff_of_false ?_ (not_legible hl hc)
      intro he
      have hlength := congrArg List.length he
      simp only [quotedChar, hl, hc] at hlength
      by_cases hn : c.toNat < 0x80
      · simp [hn, pieces, upperHexByte_eq (show c.toNat < 256 by omega)] at hlength
      · simp [hn, pieces] at hlength

def body (text : List Char) : List Piece := text.flatMap fun c => pieces (quotedChar c)

private theorem spelling_body (text : List Char) :
    (Item.literal '"' (body text)).spelling = quotedChars text := by
  simp only [Item.spelling, body, List.flatMap_assoc, spelling_pieces, quotedChars, List.cons_append]

private theorem dissects_quoted (text : List Char) :
    Dissects [.literal '"' (body text)] .complete (quotedChars text) := by
  have hs : (Item.literal '"' (body text)).Stands (Ending.complete).spelling := by
    refine .literal rfl fun p hp => ?_
    obtain ⟨c, -, hp⟩ := List.mem_flatMap.mp hp
    exact fits_pieces (quotedChar_shown c) p hp
  have hd := Dissects.item hs (.ending .complete)
  rwa [spelling_body, Ending.spelling, List.append_nil] at hd

private theorem value_ne_nil (c : Char) : (pieces (quotedChar c)).map Piece.value ≠ [] := by
  intro he
  have hspelling := spelling_pieces (quotedChar c)
  rw [List.map_eq_nil_iff.mp he] at hspelling
  have hread := (quotedChar_shown c).read []
  rw [← hspelling] at hread
  cases hread

section
variable {α : Type} {f : α → List α}

private theorem length_le_flatMap (hf : ∀ a, f a ≠ []) (l : List α) :
    l.length ≤ (l.flatMap f).length := by
  induction l with
  | nil => exact Nat.le_refl _
  | cons a l ih =>
    have ha := List.length_pos_iff.mpr (hf a)
    rw [List.flatMap_cons, List.length_append, List.length_cons]
    omega

/-- Where no element disappears, a list stays the same only if each element does. -/
private theorem flatMap_eq_self_iff (hf : ∀ a, f a ≠ []) (l : List α) :
    l.flatMap f = l ↔ ∀ a ∈ l, f a = [a] := by
  induction l with
  | nil => simp
  | cons a l ih =>
    rw [List.flatMap_cons, List.forall_mem_cons, ← ih]
    constructor
    · intro he
      have hone : (f a).length = [a].length := by
        have ha := List.length_pos_iff.mpr (hf a)
        have hl := length_le_flatMap hf l
        have hsum := congrArg List.length he
        rw [List.length_append, List.length_cons] at hsum
        rw [List.length_singleton]
        omega
      exact List.append_inj he hone
    · rintro ⟨ha, hl⟩
      rw [ha, hl, List.singleton_append]

end

end Lexical

namespace Batch
open Lexical

/-- The listed form of a value is read as one literal, from its first character to its last, whatever the
value is. What the literal stands for is the value exactly if the value has no other control characters
than those that the language has letters for. -/
theorem read_quoted (value : String) :
    let read := ({} : Batch).feed (Text.quoted value)
    read.next.pending = false ∧
      ∃ text, read.answer = .ok [⟨.string, text, ⟨0, (Text.quoted value).length⟩⟩] ∧
        (text = value ↔ ∀ c ∈ value.toList, Text.isControl c → 0x07 ≤ c.toNat ∧ c.toNat ≤ 0x0D) := by
  intro read
  have hchars : (Text.quoted value).toList = Text.quotedChars value.toList := String.toList_ofList
  have hd := dissects_quoted value.toList
  rw [← hchars] at hd
  obtain ⟨ha, hn, -⟩ := feed_dissected (b := {}) rfl hd
  refine ⟨held_eq_none_iff.mp hn, String.ofList ((body value.toList).map Piece.value), ?_, ?_⟩
  · have hlength : (Item.literal '"' (body value.toList)).spelling.length = (Text.quoted value).length := by
      rw [spelling_body, ← hchars, String.length_toList]
    rw [ha]
    simp only [Ending.outcome, Lexical.tokens, Item.token?, Option.toList, hlength, Nat.zero_add, List.append_nil]
  · rw [← String.toList_inj, String.toList_ofList, body, List.map_flatMap,
      flatMap_eq_self_iff value_ne_nil]
    simp only [value_pieces, Legible]

end Batch
end StringProcessor
