/-! Spans of characters in a source text. -/
namespace StringProcessor

/-- The characters from `start` up to, but not including, `stop`, counted from 0. In a text that is
read, positions are natural numbers; a token that is made elsewhere may carry any machine word, and
there the one behind the last is 0 again. Nothing forces `start ≤ stop`. -/
structure Span (ι : Type := Nat) where
  start : ι
  stop : ι
  deriving DecidableEq

def Span.single {ι : Type} [Add ι] [OfNat ι 1] (position : ι) : Span ι := ⟨position, position + 1⟩

end StringProcessor
