import StringProcessor.Diagnostic
import StringProcessor.Keyword

/-! Tokens, the pieces that statements are made of. -/
namespace StringProcessor

inductive TokenKind
  | keyword
  | string
  | name
  | operator
  | terminator
  deriving DecidableEq

/-- How the kind is called in messages, and the tag under which tokens of it are asked for. -/
def TokenKind.label : TokenKind → String
  | .keyword => "keyword"
  | .string => "string"
  | .name => "name"
  | .operator => "operator"
  | .terminator => "terminator"

def TokenKind.ofLabel? (label : String) : Option TokenKind :=
  [keyword, string, name, operator, terminator].find? (·.label == label)

/-- A piece of a source text. The text of a string token is the value of the literal, without
quotes and escapes; any other token's text is what stands in the source. -/
structure Token (ι : Type := Nat) where
  kind : TokenKind
  text : String
  span : Span ι
  deriving DecidableEq

namespace Token
variable {ι : Type}

def ofTag (tag text : String) (span : Span ι) : Except (Diagnostic ι) (Token ι) :=
  match TokenKind.ofLabel? tag with
  | some kind => .ok ⟨kind, text, span⟩
  | none => .error (.unknownTokenKind span tag)

/-- The keyword that the token stands for. A token of the keyword kind whose text is no keyword
stands for none. -/
def keyword? (t : Token ι) : Option Keyword :=
  match t.kind with
  | .keyword => Keyword.ofWord? t.text
  | _ => none

theorem keyword?_eq_some_iff {t : Token ι} {k : Keyword} :
    t.keyword? = some k ↔ t.kind = .keyword ∧ t.text = k.word := by
  unfold keyword?
  cases t.kind with
  | keyword => simpa using Keyword.ofWord?_eq_some_iff.trans eq_comm
  | _ => simp

def description (t : Token ι) : String := s!"Token [kind: {t.kind.label}, text: {t.text}]"

def mention (t : Token ι) : String := s!"{t.kind.label} token ({t.text})"

end Token
end StringProcessor
