import StringProcessor.Narration
import StringProcessor.Text.Blank

/-! Scanning: the tokens of a text, found in one pass over its characters. A string literal may
stay open at the end of the text; scanning then goes on with the text that follows. -/
namespace StringProcessor

/-- A string literal whose closing quote has not been read. The value gathered so far is kept
latest character first. -/
structure OpenLiteral where
  delimiter : Char
  start : Nat
  escaping : Bool
  gathered : List Char
  deriving DecidableEq

def OpenLiteral.text (l : OpenLiteral) : String := String.ofList l.gathered.reverse

/-- What a backslash and a letter stand for. Seven letters name control characters; any other
character stands for itself. -/
def unescape : Char → Char
  | 'a' => '\x07'
  | 'b' => '\x08'
  | 'f' => '\x0C'
  | 'n' => '\n'
  | 'r' => '\r'
  | 't' => '\t'
  | 'v' => '\x0B'
  | c => c

def isQuote (c : Char) : Bool := c == '"' || c == '\x27'

/-- Whether a word may go on with the character. Words start with a letter; all of it is ASCII. -/
def isNameChar (c : Char) : Bool := c.isAlphanum || c == '_'

inductive Scan.Activity
  | between
  | word (letters : List Char)
  | literal (l : OpenLiteral)
  | stuck (c : Char)
  deriving DecidableEq

/-- How far the scan of a line has come. The line begins at the position `base` of the source, `current` of
its characters have been passed, and `start` of them stand before the token that was begun last. Tokens
and records are kept latest first. -/
structure Scan where
  level : Level
  base : Nat
  start : Nat
  current : Nat
  activity : Scan.Activity
  tokens : List Token
  log : List Record

namespace Scan

def position (s : Scan) : Nat := s.base + s.current

def tell (s : Scan) (records : List Record) : Scan := { s with log := records.reverse ++ s.log }

def debug (s : Scan) (e : Event) : Scan := s.tell (s.level.debug .scanner e)

def trace (s : Scan) (e : Event) : Scan := s.tell (s.level.trace .scanner e)

def make (s : Scan) (t : Token) : Scan := { s with tokens := t :: s.tokens }.debug (.tokenMade t)

/-- From the start of the token that was begun last to where the scan is. -/
def lexeme (s : Scan) : Span := ⟨s.base + s.start, s.position⟩

def wordToken (text : String) (span : Span) : Token :=
  ⟨if (Keyword.ofWord? text).isSome then .keyword else .name, text, span⟩

def endWord (s : Scan) : Scan :=
  match s.activity with
  | .word letters =>
    { s with activity := .between }.make (wordToken (String.ofList letters.reverse) s.lexeme)
  | _ => s

def pass (s : Scan) (activity : Activity) : Scan := { s with current := s.current + 1, activity }

def beginToken (s : Scan) (c : Char) : Scan :=
  let s := { s with start := s.current }
  if isQuote c then
    (s.debug (.literalOpened c)).pass (.literal ⟨c, s.base + s.start, false, []⟩)
  else if c == ';' then
    let s := s.pass .between
    s.make ⟨.terminator, ";", s.lexeme⟩
  else if c == '+' then
    let s := s.pass .between
    s.make ⟨.operator, "+", s.lexeme⟩
  else if c.isAlpha then s.pass (.word [c])
  else { s with activity := .stuck c }

def startToken (s : Scan) (c : Char) : Scan :=
  if Text.isBlank c then s.pass .between else s.beginToken c

def gather (s : Scan) (l : OpenLiteral) (c : Char) : Scan :=
  let s := s.trace (.literalRead c l.escaping l.gathered)
  if l.escaping then
    s.pass (.literal { l with escaping := false, gathered := unescape c :: l.gathered })
  else if c == '\\' then s.pass (.literal { l with escaping := true })
  else if c == l.delimiter then
    let s := s.pass .between
    s.make ⟨.string, l.text, ⟨l.start, s.position⟩⟩
  else s.pass (.literal { l with gathered := c :: l.gathered })

/-- Reads one character. A scan that is stuck reads no more. -/
def step (s : Scan) (c : Char) : Scan :=
  match s.activity with
  | .between => s.startToken c
  | .word letters =>
    if isNameChar c then s.pass (.word (c :: letters)) else s.endWord.startToken c
  | .literal l => s.gather l c
  | .stuck _ => s

/-- Reads a whole line. A word ends with its line. -/
def line (s : Scan) (cs : List Char) : Scan := (cs.foldl step s).endWord

end Scan
end StringProcessor
