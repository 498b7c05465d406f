import StringProcessor.Verdict

/-! Where output goes. Any kind of place will do that takes bytes, or tells why it does not, or gives up
and never answers. -/
namespace StringProcessor

/-- A place for output. Bytes that are written change it, and it answers that it has taken them all, why
it could not take them, or, for one of the reasons in `ε`, not at all. -/
class Output (σ : Type) (ε : outParam Type) where
  write : σ → List UInt8 → σ × Verdict ε String

def Output.writeAll {σ ε : Type} [Output σ ε] : σ → List (List UInt8) → σ × Verdict ε String
  | s, [] => (s, .accepted)
  | s, piece :: pieces =>
    match write s piece with
    | (s, .accepted) => writeAll s pieces
    | stopped => stopped

/-- A sink takes bytes in order until there is no room left: the bytes written so far, latest first,
and how many more are taken; without a number there is room for all. -/
structure Sink where
  latest : List UInt8 := []
  room : Option Nat := none
  deriving DecidableEq

namespace Sink

def endless : Sink := {}

def written (s : Sink) : List UInt8 := s.latest.reverse

/-- Writes bytes. What fits is kept. -/
def write (s : Sink) (bytes : List UInt8) : Sink × Verdict Empty String :=
  match s.room with
  | none => ({ s with latest := bytes.reverse ++ s.latest }, .accepted)
  | some room =>
    ({ latest := (bytes.take room).reverse ++ s.latest, room := some (room - bytes.length) },
      if bytes.length ≤ room then .accepted else .refused "sink full")

instance : Output Sink Empty := ⟨write⟩

def drain (s : Sink) : List UInt8 × Sink := (s.written, { s with latest := [] })

end Sink
end StringProcessor
