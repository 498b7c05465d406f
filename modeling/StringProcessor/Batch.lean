import StringProcessor.Scan

/-! Batches: the lines that are read together. A batch is one line, unless a string literal is open
at its end; then the next line belongs to it too, and no token is given out before the literal is
closed. -/
namespace StringProcessor

/-- The text of the lines read for a batch, to which all spans refer, with its number of characters; the
line read last and its place in the source; where in that line the last token began, and how much of the
line has been read; the tokens that have not been given out, latest first, and the open literal that
holds them back. Unless a literal is open, all of it is left over from earlier lines. -/
structure Batch where
  level : Level := .off
  source : String := ""
  length : Nat := 0
  line : List Char := []
  base : Nat := 0
  start : Nat := 0
  current : Nat := 0
  tokens : List Token := []
  literal : Option OpenLiteral := none
  deriving DecidableEq

/-- What an open literal holds back: the tokens in front of it, latest first, and the literal. -/
structure Batch.Held where
  tokens : List Token
  literal : OpenLiteral
  deriving DecidableEq

namespace Batch

def pending (b : Batch) : Bool := b.literal.isSome

def held (b : Batch) : Option Held := b.literal.map (⟨b.tokens, ·⟩)

/-- Makes ready for a line. It goes on with the batch if a literal is open, and begins a new one if not. -/
def resume (b : Batch) : Batch :=
  match b.literal with
  | none => { b with source := "", length := 0, tokens := [] }
  | some _ => { b with source := b.source.push '\n', length := b.length + 1 }

def append (b : Batch) (line : String) : Batch :=
  { b with
    source := b.source ++ line
    length := b.length + line.length
    line := line.toList
    base := b.length
    current := 0 }

def scan (b : Batch) : Scan :=
  { level := b.level, base := b.base, start := b.start, current := b.current
    activity := b.literal.elim .between .literal
    tokens := b.tokens, log := [] }

/-- What the scan of a line comes to. The answer is the tokens of the batch if the line completes it, and
no token if a literal is left open. An illegal character, which is passed too, ends the batch without
tokens. -/
def conclude (b : Batch) (scan : Scan) : Turn Batch (Except Diagnostic (List Token)) :=
  let b := { b with start := scan.start, current := scan.current, tokens := scan.tokens }
  match scan.activity with
  | .stuck c =>
    { next := { b with current := b.current + 1, tokens := [], literal := none }
      answer := .error (.illegalCharacter (scan.base + scan.start) c)
      log := scan.log.reverse }
  | .literal l =>
    { next := { b with literal := some l }
      answer := .ok []
      log := (scan.debug (.literalLeftOpen l.delimiter b.tokens.length)).log.reverse }
  | _ =>
    { next := { b with tokens := [], literal := none }
      answer := .ok b.tokens.reverse
      log := scan.log.reverse }

def feed (b : Batch) (line : String) : Turn Batch (Except Diagnostic (List Token)) :=
  let b := b.resume.append line
  b.conclude ((b.scan.debug (.lineBegun line)).line b.line)

/-- Ends the input. What is held back is lost, and a literal that is still open is a fault. -/
def finish (b : Batch) : Turn Batch (Except Diagnostic Unit) :=
  { next := { b with tokens := [], literal := none }
    answer := match b.literal with
      | none => .ok ()
      | some l =>
        .error (.unterminatedString ⟨l.start, max b.length (l.start + 1)⟩ l.delimiter)
    log := [] }

end Batch
end StringProcessor
