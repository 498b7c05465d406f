import StringProcessor.Diagnostic

/-! Verdicts: the ways in which a call on a component can end. -/
namespace StringProcessor

/-- Everything is done, or there is a complaint, or the call was abandoned for a reason and never came
back to its caller. No call is abandoned where there are no reasons. -/
inductive Verdict (ε : Type) (δ : Type := Diagnostic)
  | accepted
  | refused (complaint : δ)
  | abandoned (reason : ε)
  deriving DecidableEq

namespace Verdict
variable {ε δ δ' : Type}

def map (f : δ → δ') : Verdict ε δ → Verdict ε δ'
  | .accepted => .accepted
  | .refused complaint => .refused (f complaint)
  | .abandoned reason => .abandoned reason

section
variable {f : δ → δ'} {verdict : Verdict ε δ}

theorem map_accepted : verdict.map f = .accepted ↔ verdict = .accepted := by
  cases verdict <;> simp [map]

theorem map_refused {complaint' : δ'} :
    verdict.map f = .refused complaint' ↔
      ∃ complaint, verdict = .refused complaint ∧ f complaint = complaint' := by
  cases verdict <;> simp [map]

theorem map_abandoned {reason : ε} :
    verdict.map f = .abandoned reason ↔ verdict = .abandoned reason := by
  cases verdict <;> simp [map]

end

theorem map_map {δ'' : Type} (g : δ' → δ'') (f : δ → δ') (verdict : Verdict ε δ) :
    (verdict.map f).map g = verdict.map fun complaint => g (f complaint) := by
  cases verdict <;> rfl

end Verdict
end StringProcessor
