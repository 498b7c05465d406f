import StringProcessor.Proofs.Grammar
import StringProcessor.Proofs.Lexical.Line
import StringProcessor.Proofs.Scan.Step
import StringProcessor.Proofs.Writing

/-! Written terms as lexemes. Words, spaces and terms are spelled by items each of which stands before
what follows, and the tokens of an expression's items are operands. -/
namespace StringProcessor.Writing
open Lexical Grammar

/-- A text that no word goes on into. -/
def Apart (rest : List Char) : Prop := ∀ c ∈ rest.head?, isNameChar c = false

theorem apart_close (rest : List Char) : Apart (';' :: rest) := by
  rintro _ ⟨⟩
  rfl

theorem apart_space (rest : List Char) : Apart (' ' :: rest) := by
  rintro _ ⟨⟩
  rfl

theorem Apart.spaces {rest : List Char} (h : Apart rest) (n : Nat) : Apart (spaces n ++ rest) := by
  cases n with
  | zero => exact h
  | succ n => exact apart_space _

def gap (n : Nat) : List Item := List.replicate n (.blank ' ')

@[simp] theorem spelling_gap (n : Nat) : (gap n).flatMap Item.spelling = spaces n := by
  induction n with
  | zero => rfl
  | succ n ih => simpa [gap, List.replicate_succ, Item.spelling, spaces] using ih

theorem line_gap (n : Nat) (rest : List Char) : Line (gap n) rest := by
  induction n with
  | zero => trivial
  | succ n ih => exact ⟨.blank (by decide), ih⟩

@[simp] theorem tokens_gap (start n : Nat) : tokens start (gap n) = [] := by
  induction n generalizing start with
  | zero => rfl
  | succ n ih => exact ih _

def word (text : String) : List Item :=
  match text.toList with
  | [] => []
  | first :: others => [.word first others]

@[simp] theorem spelling_word (text : String) :
    (word text).flatMap Item.spelling = text.toList := by
  unfold word
  split <;> simp_all [Item.spelling]

section
variable {name : String} {rest : List Char}

private theorem line_word {first : Char} {others : List Char} (h : name.toList = first :: others)
    (hf : first.isAlpha) (ho : ∀ c ∈ others, isNameChar c) (hr : Apart rest) :
    Line (word name) rest := by
  simp only [word, h]
  exact ⟨.word hf ho hr, trivial⟩

private theorem tokens_word {first : Char} {others : List Char} (h : name.toList = first :: others)
    (start : Nat) : ∃ span, tokens start (word name) =
      [⟨if name ∈ Keyword.all.map Keyword.word then .keyword else .name, name, span⟩] := by
  have hn : String.ofList (first :: others) = name := by rw [← h, String.ofList_toList]
  refine ⟨⟨start, start + (Item.word first others).spelling.length⟩, ?_⟩
  simp [word, h, Lexical.tokens, Item.token?, hn]

theorem IsName.line (h : IsName name) (hr : Apart rest) : Line (word name) rest := by
  obtain ⟨⟨first, others, he, hf, ho⟩, -⟩ := h
  exact line_word he hf ho hr

theorem IsName.tokens (h : IsName name) (start : Nat) :
    ∃ span, tokens start (word name) = [⟨.name, name, span⟩] := by
  obtain ⟨⟨first, others, he, -, -⟩, hk⟩ := h
  simpa [hk] using tokens_word he start

end

/-- Keywords are words. -/
private theorem exists_letters (k : Keyword) : ∃ first others, k.word.toList = first :: others ∧
    first.isAlpha ∧ ∀ c ∈ others, isNameChar c := by
  have h : k.word.toList.head?.any Char.isAlpha ∧ k.word.toList.tail.all isNameChar := by
    cases k with
    | change what => cases what <;> decide
    | print aspect => cases aspect <;> decide
    | list | exit => decide
  cases hw : k.word.toList with
  | nil => simp [hw] at h
  | cons first others => exact ⟨first, others, rfl, by simpa [hw] using h⟩

private theorem mem_keywords (k : Keyword) : k.word ∈ Keyword.all.map Keyword.word := by
  cases k with
  | change what => cases what <;> decide
  | print aspect => cases aspect <;> decide
  | list | exit => decide

theorem line_keyword (k : Keyword) {rest : List Char} (h : Apart rest) :
    Line (word k.word) rest := by
  obtain ⟨first, others, he, hf, ho⟩ := exists_letters k
  exact line_word he hf ho h

theorem tokens_keyword (k : Keyword) (start : Nat) :
    ∃ span, tokens start (word k.word) = [⟨.keyword, k.word, span⟩] := by
  obtain ⟨first, others, he, -, -⟩ := exists_letters k
  simpa [mem_keywords k] using tokens_word he start

def piece (quote : Quote) (c : Char) : Piece :=
  if c = quote.mark ∨ c = '\\' then .escaped c else .plain c

private theorem isQuote_mark (quote : Quote) : isQuote quote.mark := by
  cases quote <;> rfl

private theorem value_piece (quote : Quote) (c : Char) : (piece quote c).value = c := by
  unfold piece
  split
  · rename_i h
    rcases h with rfl | rfl
    · cases quote <;> decide
    · decide
  · rfl

private theorem fits_piece (quote : Quote) (c : Char) : (piece quote c).Fits quote.mark := by
  unfold piece
  split
  · trivial
  · rename_i h
    rwa [not_or] at h

theorem spelling_pieces (quote : Quote) (text : List Char) :
    (text.map (piece quote)).flatMap Piece.spelling = escape quote text := by
  induction text with
  | nil => rfl
  | cons c text ih =>
    rw [List.map_cons, List.flatMap_cons, ih, escape, escape, List.flatMap_cons]
    congr 1
    unfold piece
    split <;> rfl

def operand (quote : Quote) : Term → List Item
  | .literal text _ => [.literal quote.mark (text.toList.map (piece quote))]
  | .symbol name _ => word name

@[simp] theorem spelling_operand (quote : Quote) (t : Term) :
    (operand quote t).flatMap Item.spelling = term quote t := by
  cases t with
  | literal text span => simp [operand, term, Item.spelling, spelling_pieces]
  | symbol name span => simp [operand, term]

private theorem line_operand (quote : Quote) {t : Term} {rest : List Char}
    (h : ∀ name span, t = .symbol name span → IsName name) (hr : Apart rest) :
    Line (operand quote t) rest := by
  cases t with
  | literal text span =>
    refine ⟨.literal (isQuote_mark quote) ?_, trivial⟩
    intro p hp
    obtain ⟨c, -, rfl⟩ := List.mem_map.mp hp
    exact fits_piece quote c
  | symbol name span => exact (h name span rfl).line hr

private theorem tokens_operand (quote : Quote) {t : Term}
    (h : ∀ name span, t = .symbol name span → IsName name) (start : Nat) :
    ∃ token operand', tokens start (operand quote t) = [token] ∧ Operand token operand' ∧
      operand'.unplaced = t.unplaced := by
  cases t with
  | literal text span =>
    have hv : (text.toList.map (piece quote)).map Piece.value = text.toList := by
      rw [List.map_map]
      exact (List.map_congr_left fun c _ => value_piece quote c).trans (List.map_id _)
    simp only [operand, tokens, Item.token?, hv, String.ofList_toList]
    exact ⟨_, _, rfl, .literal text _, rfl⟩
  | symbol name span =>
    obtain ⟨span', hs⟩ := (h name span rfl).tokens start
    exact ⟨_, _, hs, .symbol name span', rfl⟩

def operands (quote : Nat → Quote) (e : Expression) : List Item :=
  [.blank ' ', .operator, .blank ' '].intercalate (e.mapIdx fun i t => operand (quote i) t)

private theorem operands_single (quote : Nat → Quote) (t : Term) :
    operands quote [t] = operand (quote 0) t := by
  simp [operands]

private theorem operands_cons (quote : Nat → Quote) (t u : Term) (e : Expression) :
    operands quote (t :: u :: e) =
      operand (quote 0) t ++ [.blank ' ', .operator, .blank ' '] ++
        operands (fun i => quote (i + 1)) (u :: e) := by
  simp only [operands, List.mapIdx_cons, List.intercalate_cons_cons]

private theorem value_cons (quote : Nat → Quote) (t u : Term) (e : Expression) :
    value quote (t :: u :: e) =
      term (quote 0) t ++ [' ', '+', ' '] ++ value (fun i => quote (i + 1)) (u :: e) := by
  simp only [value, List.mapIdx_cons, List.intercalate_cons_cons]

@[simp] theorem spelling_operands (quote : Nat → Quote) (e : Expression) :
    (operands quote e).flatMap Item.spelling = value quote e := by
  induction e generalizing quote with
  | nil => rfl
  | cons t e ih =>
    cases e with
    | nil => simp [operands_single, value]
    | cons u e => simp [operands_cons, value_cons, ih, Item.spelling]

theorem line_operands (quote : Nat → Quote) {e : Expression} {rest : List Char}
    (h : ∀ name span, Term.symbol name span ∈ e → IsName name) (hr : Apart rest) :
    Line (operands quote e) rest := by
  induction e generalizing quote with
  | nil => trivial
  | cons t e ih =>
    have ht : ∀ name span, t = .symbol name span → IsName name := by
      rintro name span rfl
      exact h name span (.head _)
    cases e with
    | nil =>
      rw [operands_single]
      exact line_operand _ ht hr
    | cons u e =>
      have he := ih (fun i => quote (i + 1)) fun name span hm => h name span (.tail _ hm)
      rw [operands_cons, line_append, line_append]
      refine ⟨⟨line_operand _ ht (apart_space _), ?_⟩, he⟩
      exact ⟨.blank (by decide), .operator, .blank (by decide), trivial⟩

theorem tokens_operands (quote : Nat → Quote) {e : Expression} (hne : e ≠ [])
    (h : ∀ name span, Term.symbol name span ∈ e → IsName name) (start : Nat) :
    ∃ e', Operands (tokens start (operands quote e)) e' ∧
      e'.map Term.unplaced = e.map Term.unplaced := by
  induction e generalizing quote start with
  | nil => exact absurd rfl hne
  | cons t e ih =>
    have ht : ∀ name span, t = .symbol name span → IsName name := by
      rintro name span rfl
      exact h name span (.head _)
    obtain ⟨token, t', hts, ho, hu⟩ := tokens_operand (quote 0) ht start
    cases e with
    | nil =>
      rw [operands_single, hts]
      exact ⟨[t'], .single ho, by simp [hu]⟩
    | cons u e =>
      rw [operands_cons, List.append_assoc, tokens_append, hts, tokens_append]
      generalize start + extent (operand (quote 0) t) = behind
      obtain ⟨e', hos, hus⟩ := ih (fun i => quote (i + 1)) (by simp)
        (fun name span hm => h name span (.tail _ hm))
        (behind + extent [.blank ' ', .operator, .blank ' '])
      exact ⟨t' :: e', .join ho rfl hos, by simp [hu, hus]⟩

end StringProcessor.Writing
