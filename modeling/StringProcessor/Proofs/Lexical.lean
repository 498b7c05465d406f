import StringProcessor.Batch

/-! The lexical grammar: what a text is made of, told without a scan. -/
namespace StringProcessor.Lexical

def controls : List (Char × Char) :=
  [('a', '\x07'), ('b', '\x08'), ('f', '\x0C'), ('n', '\n'), ('r', '\r'), ('t', '\t'), ('v', '\x0B')]

/-- What a literal's body is made of: characters, and characters behind a backslash. -/
inductive Piece
  | plain (c : Char)
  | escaped (c : Char)

namespace Piece

def spelling : Piece → List Char
  | plain c => [c]
  | escaped c => ['\\', c]

def value : Piece → Char
  | plain c => c
  | escaped c => (controls.lookup c).getD c

/-- The piece may stand between these quotes. -/
def Fits (quote : Char) : Piece → Prop
  | plain c => c ≠ quote ∧ c ≠ '\\'
  | escaped _ => True

end Piece

/-- What a text is made of: whitespace, one character at a time, and lexemes. -/
inductive Item
  | blank (c : Char)
  | terminator
  | operator
  | word (first : Char) (others : List Char)
  | literal (quote : Char) (body : List Piece)

namespace Item

def spelling : Item → List Char
  | blank c => [c]
  | terminator => [';']
  | operator => ['+']
  | word first others => first :: others
  | literal quote body => quote :: (body.flatMap Piece.spelling ++ [quote])

def token? (start : Nat) (i : Item) : Option Token :=
  let span := ⟨start, start + i.spelling.length⟩
  match i with
  | blank _ => none
  | terminator => some ⟨.terminator, ";", span⟩
  | operator => some ⟨.operator, "+", span⟩
  | word first others =>
    let text := String.ofList (first :: others)
    some ⟨if text ∈ Keyword.all.map Keyword.word then .keyword else .name, text, span⟩
  | literal _ body => some ⟨.string, String.ofList (body.map Piece.value), span⟩

/-- The item may stand before this text. A word is not followed by what it could go on with. -/
inductive Stands : Item → List Char → Prop
  | blank {c : Char} {rest : List Char} : Text.isBlank c → Stands (blank c) rest
  | terminator {rest : List Char} : Stands terminator rest
  | operator {rest : List Char} : Stands operator rest
  | word {first : Char} {others rest : List Char} : first.isAlpha →
      (∀ c ∈ others, isNameChar c) → (∀ c ∈ rest.head?, isNameChar c = false) →
      Stands (word first others) rest
  | literal {quote : Char} {body : List Piece} {rest : List Char} : isQuote quote →
      (∀ p ∈ body, p.Fits quote) → Stands (literal quote body) rest

end Item

/-- How a text ends behind its items: there is nothing more, or a literal that is not closed, with a
lone backslash at its end or not, or a character that no item starts with. -/
inductive Ending
  | complete
  | unclosed (quote : Char) (body : List Piece) (escaping : Bool)
  | illegal (c : Char) (rest : List Char)

namespace Ending

def spelling : Ending → List Char
  | complete => []
  | unclosed quote body escaping =>
    quote :: (body.flatMap Piece.spelling ++ if escaping then ['\\'] else [])
  | illegal c rest => c :: rest

inductive Valid : Ending → Prop
  | complete : Valid complete
  | unclosed {quote : Char} {body : List Piece} {escaping : Bool} : isQuote quote →
      (∀ p ∈ body, p.Fits quote) → Valid (unclosed quote body escaping)
  | illegal {c : Char} {rest : List Char} : ¬ Text.isBlank c → ¬ isQuote c → c ≠ ';' → c ≠ '+' →
      ¬ c.isAlpha → Valid (illegal c rest)

end Ending

/-- The text is made of these items and ends so. -/
inductive Dissects : List Item → Ending → List Char → Prop
  | ending {e : Ending} : e.Valid → Dissects [] e e.spelling
  | item {i : Item} {items : List Item} {e : Ending} {rest : List Char} : i.Stands rest →
      Dissects items e rest → Dissects (i :: items) e (i.spelling ++ rest)

def tokens (start : Nat) : List Item → List Token
  | [] => []
  | i :: items => (i.token? start).toList ++ tokens (start + i.spelling.length) items

def extent (items : List Item) : Nat := (items.flatMap Item.spelling).length

/-- What a text comes to that ends so at this position, behind these tokens: the answer, and what is
held back. -/
def Ending.outcome (position : Nat) (tokens : List Token) :
    Ending → Except Diagnostic (List Token) × Option Batch.Held
  | .complete => (.ok tokens, none)
  | .unclosed quote body escaping =>
    let gathered := (body.map Piece.value).reverse
    (.ok [], some ⟨tokens.reverse, ⟨quote, position, escaping, gathered⟩⟩)
  | .illegal c _ => (.error (.illegalCharacter position c), none)

end StringProcessor.Lexical
