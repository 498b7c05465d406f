import StringProcessor.Machine
import StringProcessor.Proofs.Command

/-! Values of expressions. The values of the terms are joined, the first term without one is the fault,
and all that counts of the symbols is what the terms stand for. -/
namespace StringProcessor

def Term.unknown (symbols : SymbolTable) : Term → Bool
  | .symbol name _ => !symbols.contains name
  | .literal .. => false

namespace Machine
variable {symbols : SymbolTable}

/-- The value of an expression behind a text. -/
private def evaluateBehind (symbols : SymbolTable) (front : String) (e : Expression) :
    Except Unresolved String :=
  e.foldlM (fun value operand => (valueOf symbols operand).map (value ++ ·)) front

private theorem evaluateBehind_cons (front : String) (t : Term) (e : Expression) :
    evaluateBehind symbols front (t :: e) =
      (valueOf symbols t).bind fun text => evaluateBehind symbols (front ++ text) e := by
  rw [evaluateBehind, List.foldlM_cons]
  cases valueOf symbols t <;> rfl

/-- The text in front takes no part in the evaluation. -/
private theorem evaluateBehind_eq (front : String) (e : Expression) :
    evaluateBehind symbols front e = (evaluateBehind symbols "" e).map (front ++ ·) := by
  induction e generalizing front with
  | nil => simp [evaluateBehind, pure, Except.pure, Except.map]
  | cons t e ih =>
    rw [evaluateBehind_cons, evaluateBehind_cons]
    cases valueOf symbols t with
    | error u => rfl
    | ok text =>
      simp only [Except.bind, String.empty_append]
      rw [ih (front ++ text), ih text]
      cases evaluateBehind symbols "" e <;> simp [Except.map, String.append_assoc]

theorem evaluate_cons (t : Term) (e : Expression) : evaluate symbols (t :: e) =
    (valueOf symbols t).bind fun text => (evaluate symbols e).map (text ++ ·) := by
  refine (evaluateBehind_cons "" t e).trans ?_
  cases valueOf symbols t with
  | error u => rfl
  | ok text =>
    calc evaluateBehind symbols ("" ++ text) e
        = evaluateBehind symbols text e := by rw [String.empty_append]
      _ = (evaluate symbols e).map (text ++ ·) := evaluateBehind_eq text e

theorem evaluate_single (t : Term) : evaluate symbols [t] = valueOf symbols t := by
  rw [evaluate_cons]
  cases valueOf symbols t with
  | error u => rfl
  | ok text => exact congrArg Except.ok String.append_empty

/-- Expressions are evaluated one behind the other. -/
theorem evaluate_append (e f : Expression) : evaluate symbols (e ++ f) =
    (evaluate symbols e).bind fun value => (evaluate symbols f).map (value ++ ·) := by
  induction e with
  | nil =>
    rw [List.nil_append]
    change _ = (evaluate symbols f).map ("" ++ ·)
    cases evaluate symbols f <;> simp [Except.map]
  | cons t e ih =>
    rw [List.cons_append, evaluate_cons, evaluate_cons, ih]
    cases valueOf symbols t with
    | error u => rfl
    | ok text =>
      cases evaluate symbols e with
      | error u => rfl
      | ok value =>
        cases evaluate symbols f <;> simp [Except.bind, Except.map, String.append_assoc]

/-- Only the symbols that the terms stand for count. -/
private theorem valueOf_congr {symbols' : SymbolTable} {t : Term}
    (h : ∀ name, t.name? = some name → symbols'.find? name = symbols.find? name) :
    valueOf symbols' t = valueOf symbols t := by
  cases t with
  | literal text span => rfl
  | symbol name span => rw [valueOf, valueOf, h name rfl]

theorem evaluate_congr {symbols' : SymbolTable} {e : Expression}
    (h : ∀ name ∈ e.names, symbols'.find? name = symbols.find? name) :
    evaluate symbols' e = evaluate symbols e := by
  induction e with
  | nil => rfl
  | cons t e ih =>
    have ht : valueOf symbols' t = valueOf symbols t := valueOf_congr fun name hn =>
      h name (Expression.mem_names.mpr ⟨t, .head _, hn⟩)
    have he : evaluate symbols' e = evaluate symbols e := ih fun name hn => by
      obtain ⟨t', hm, hn⟩ := Expression.mem_names.mp hn
      exact h name (Expression.mem_names.mpr ⟨t', .tail _ hm, hn⟩)
    rw [evaluate_cons, evaluate_cons, ht, he]

private theorem valueOf_known {t : Term} (h : t.unknown symbols = false) :
    ∃ text, valueOf symbols t = .ok text := by
  cases t with
  | literal text span => exact ⟨text, rfl⟩
  | symbol name span =>
    cases hf : symbols.find? name with
    | none => simp [Term.unknown, SymbolTable.contains, hf] at h
    | some s => exact ⟨s.value, by rw [valueOf, hf]⟩

private theorem valueOf_unknown {t : Term} (h : t.unknown symbols) :
    ∃ name span, t = .symbol name span ∧ symbols.find? name = none ∧
      valueOf symbols t = .error ⟨name, span⟩ := by
  cases t with
  | literal text span => cases h
  | symbol name span =>
    have hf : symbols.find? name = none := by simpa [Term.unknown, SymbolTable.contains] using h
    exact ⟨name, span, rfl, hf, by rw [valueOf, hf]⟩

/-- An expression has a value if all its terms are known, and else its fault is the first term that is
not. -/
theorem evaluate_cases (symbols : SymbolTable) (e : Expression) :
    (∃ value, evaluate symbols e = .ok value) ∧ (∀ t ∈ e, t.unknown symbols = false) ∨
      ∃ name span, evaluate symbols e = .error ⟨name, span⟩ ∧
        e.find? (·.unknown symbols) = some (.symbol name span) ∧ symbols.find? name = none := by
  induction e with
  | nil => exact .inl ⟨⟨"", rfl⟩, by simp⟩
  | cons t e ih =>
    rw [List.find?_cons, evaluate_cons]
    cases ht : t.unknown symbols with
    | true =>
      obtain ⟨name, span, rfl, hn, hv⟩ := valueOf_unknown ht
      exact .inr ⟨name, span, by rw [hv]; rfl, rfl, hn⟩
    | false =>
      obtain ⟨text, hv⟩ := valueOf_known ht
      rw [hv]
      rcases ih with ⟨⟨value, he⟩, hk⟩ | ⟨name, span, he, hf, hn⟩
      · rw [he]
        exact .inl ⟨⟨text ++ value, rfl⟩, List.forall_mem_cons.mpr ⟨ht, hk⟩⟩
      · rw [he]
        exact .inr ⟨name, span, rfl, hf, hn⟩

end Machine
end StringProcessor
