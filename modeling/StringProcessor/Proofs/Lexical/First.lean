import Mathlib.Data.List.TakeWhile
import StringProcessor.Proofs.Lexical
import StringProcessor.Proofs.Pieces
import StringProcessor.Proofs.Scan.Step

/-! Every text can be dissected, and in one way only: its beginning tells the first item, and what is
left is a shorter text. -/
namespace StringProcessor.Lexical

/-- What stands behind a literal's body: the closing quote and the rest, or nothing any more. -/
inductive Tail
  | closed (rest : List Char)
  | unclosed (escaping : Bool)

def Tail.spelling (quote : Char) : Tail → List Char
  | closed rest => quote :: rest
  | unclosed escaping => if escaping then ['\\'] else []

/-- A literal's body, as far as it goes, and what stands behind it. -/
def literalBody (quote : Char) : List Char → List Piece × Tail
  | [] => ([], .unclosed false)
  | ['\\'] => ([], .unclosed true)
  | '\\' :: c :: rest => (literalBody quote rest).map (.escaped c :: ·) id
  | c :: rest =>
    if c = quote then ([], .closed rest) else (literalBody quote rest).map (.plain c :: ·) id

/-- The first item and the rest of the text, or the ending. -/
def first : List Char → (Item × List Char) ⊕ Ending
  | [] => .inr .complete
  | c :: rest =>
    if Text.isBlank c then .inl (.blank c, rest)
    else if isQuote c then
      match literalBody c rest with
      | (body, .closed rest) => .inl (.literal c body, rest)
      | (body, .unclosed escaping) => .inr (.unclosed c body escaping)
    else if c = ';' then .inl (.terminator, rest)
    else if c = '+' then .inl (.operator, rest)
    else if c.isAlpha then .inl (.word c (rest.takeWhile isNameChar), rest.dropWhile isNameChar)
    else .inr (.illegal c rest)

theorem quote_not_backslash {quote : Char} (h : isQuote quote) : quote ≠ '\\' := by
  rintro rfl
  cases h

private theorem literalBody_spelled {quote : Char} {body : List Piece} (t : Tail) (hq : isQuote quote)
    (hf : ∀ p ∈ body, p.Fits quote) :
    literalBody quote (body.flatMap Piece.spelling ++ t.spelling quote) = (body, t) := by
  have hb := quote_not_backslash hq
  induction body with
  | nil =>
    cases t with
    | closed rest => simp [Tail.spelling, literalBody, hb]
    | unclosed escaping => cases escaping <;> rfl
  | cons p body ih =>
    obtain ⟨hp, hr⟩ := List.forall_mem_cons.mp hf
    cases p with
    | plain c =>
      obtain ⟨hc, hc'⟩ := hp
      simp [Piece.spelling, literalBody, hc, hc', ih hr]
    | escaped c => simp [Piece.spelling, literalBody, ih hr]

private theorem literalBody_spells (quote : Char) (cs : List Char) :
    let (body, t) := literalBody quote cs
    (∀ p ∈ body, p.Fits quote) ∧ cs = body.flatMap Piece.spelling ++ t.spelling quote := by
  fun_induction literalBody quote cs with
  | case1 => simp [Tail.spelling]
  | case2 => simp [Tail.spelling]
  | case3 c rest ih => simpa [Piece.spelling, Piece.Fits] using ih
  | case4 rest => simp [Tail.spelling]
  | case5 c rest hn hl hq ih =>
    have hc : c ≠ '\\' := by
      rintro rfl
      cases rest with
      | nil => exact hn rfl rfl
      | cons c' rest => exact hl c' rest rfl rfl
    simpa [Piece.spelling, Piece.Fits, hq, hc] using ih

private theorem first_item {i : Item} {rest : List Char} (h : i.Stands rest) :
    first (i.spelling ++ rest) = .inl (i, rest) := by
  cases h with
  | blank hc => simp [Item.spelling, first, hc]
  | terminator => rfl
  | operator => rfl
  | @word c others _ hc ho hr =>
    obtain ⟨hb, hq, ht, hp⟩ := Scan.letter_only hc
    obtain ⟨htake, hdrop⟩ := run_exact ho hr
    simp [Item.spelling, first, hb, hq, ht, hp, hc, htake, hdrop]
  | @literal quote body _ hq hf =>
    have hl := literalBody_spelled (.closed rest) hq hf
    rw [Tail.spelling] at hl
    simp [Item.spelling, first, Scan.quote_not_blank hq, hq, hl]

private theorem first_ending {e : Ending} (h : e.Valid) : first e.spelling = .inr e := by
  cases h with
  | complete => rfl
  | @unclosed quote body escaping hq hf =>
    have hl := literalBody_spelled (.unclosed escaping) hq hf
    rw [Tail.spelling] at hl
    simp [Ending.spelling, first, Scan.quote_not_blank hq, hq, hl]
  | illegal hb hq ht ho ha => simp [Ending.spelling, first, hb, hq, ht, ho, ha]

/-- The text stands as its beginning tells. -/
def Begins (cs : List Char) : (Item × List Char) ⊕ Ending → Prop
  | .inl (i, rest) => i.Stands rest ∧ cs = i.spelling ++ rest
  | .inr e => e.Valid ∧ cs = e.spelling

private theorem first_begins (cs : List Char) : Begins cs (first cs) := by
  cases cs with
  | nil => exact ⟨.complete, rfl⟩
  | cons c rest =>
    rw [first]
    by_cases hb : Text.isBlank c
    · rw [if_pos hb]
      exact ⟨.blank hb, rfl⟩
    rw [if_neg hb]
    by_cases hq : isQuote c
    · rw [if_pos hq]
      have hl := literalBody_spells c rest
      revert hl
      rcases literalBody c rest with ⟨body, rest' | escaping⟩
      · rintro ⟨hf, he⟩
        exact ⟨.literal hq hf, by simp [he, Item.spelling, Tail.spelling]⟩
      · rintro ⟨hf, he⟩
        exact ⟨.unclosed hq hf, by rw [he]; rfl⟩
    rw [if_neg hq]
    by_cases ht : c = ';'
    · rw [if_pos ht, ht]
      exact ⟨.terminator, rfl⟩
    rw [if_neg ht]
    by_cases ho : c = '+'
    · rw [if_pos ho, ho]
      exact ⟨.operator, rfl⟩
    rw [if_neg ho]
    by_cases ha : c.isAlpha
    · rw [if_pos ha]
      refine ⟨.word ha ?_ ?_, ?_⟩
      · exact fun l hl => List.mem_takeWhile_imp hl
      · intro l hl
        have hn := List.head?_dropWhile_not isNameChar rest
        rwa [Option.mem_def.mp hl] at hn
      · simp [Item.spelling]
    · rw [if_neg ha]
      exact ⟨.illegal hb hq ht ho ha, rfl⟩

private theorem Item.spelling_pos (i : Item) : 0 < i.spelling.length := by
  cases i <;> simp [spelling]

theorem exists_dissection (cs : List Char) : ∃ items e, Dissects items e cs := by
  induction hn : cs.length using Nat.strongRecOn generalizing cs with
  | _ n ih =>
    have hb := first_begins cs
    revert hb
    rcases first cs with ⟨i, rest⟩ | e
    · rintro ⟨hi, rfl⟩
      have hi' := i.spelling_pos
      obtain ⟨items, e, hd⟩ := ih rest.length (by simp at hn; omega) rest rfl
      exact ⟨i :: items, e, .item hi hd⟩
    · rintro ⟨he, rfl⟩
      exact ⟨[], e, .ending he⟩

/-- A text can be dissected in one way only. -/
theorem Dissects.unique {items items' : List Item} {e e' : Ending} {cs : List Char}
    (h : Dissects items e cs) (h' : Dissects items' e' cs) : items = items' ∧ e = e' := by
  -- Both dissections begin as the text does, which settles how the second one goes on.
  induction h generalizing items' with
  | ending he =>
    have hf := first_ending he
    generalize hcs : Ending.spelling _ = cs at hf h'
    cases h' with
    | ending he' =>
      rw [first_ending he'] at hf
      cases hf
      exact ⟨rfl, rfl⟩
    | item hi' hd' =>
      rw [first_item hi'] at hf
      cases hf
  | item hi hd ih =>
    have hf := first_item hi
    generalize hcs : Item.spelling _ ++ _ = cs at hf h'
    cases h' with
    | ending he' =>
      rw [first_ending he'] at hf
      cases hf
    | item hi' hd' =>
      rw [first_item hi'] at hf
      cases hf
      obtain ⟨rfl, rfl⟩ := ih hd'
      exact ⟨rfl, rfl⟩

end StringProcessor.Lexical
