import Mathlib.Data.List.TakeWhile

/-! Pieces of lists. A list is cut at the first of its elements of some kind in one way only, and so is one
that is made of pieces which such an element ends; a run of elements of a kind is cut off whole. -/
namespace StringProcessor

variable {α : Type}

theorem first_unique {p : α → Prop} {front front' rest rest' : List α} {x x' : α}
    (he : front ++ x :: rest = front' ++ x' :: rest') (hf : ∀ t ∈ front, ¬ p t)
    (hf' : ∀ t ∈ front', ¬ p t) (hx : p x) (hx' : p x') :
    front = front' ∧ x = x' ∧ rest = rest' := by
  induction front generalizing front' with
  | nil =>
    cases front' with
    | nil => simpa using he
    | cons t ts =>
      have ht : x = t := (List.cons.inj he).1
      exact absurd (ht ▸ hx) (hf' t (by simp))
  | cons t ts ih =>
    cases front' with
    | nil =>
      have ht : t = x' := (List.cons.inj he).1
      exact absurd (ht ▸ hx') (hf t (by simp))
    | cons u us =>
      obtain ⟨ht, he⟩ := List.cons.inj he
      obtain ⟨hts, h⟩ := ih he (fun t hm => hf t (.tail _ hm)) (fun t hm => hf' t (.tail _ hm))
      exact ⟨by rw [ht, hts], h⟩

/-- A run of elements of a kind ends before an element that is not of it. -/
theorem run_ends {p : α → Bool} {rest : List α} (h : ∀ x ∈ rest.head?, p x = false) (run : List α) :
    (run ++ rest).takeWhile p = run.takeWhile p ∧
      (run ++ rest).dropWhile p = run.dropWhile p ++ rest := by
  induction run with
  | nil =>
    cases rest with
    | nil => exact ⟨rfl, rfl⟩
    | cons x rest => simp [h x rfl]
  | cons x run ih => cases hx : p x <;> simp [hx, ih]

theorem run_exact {p : α → Bool} {run rest : List α} (hrun : ∀ x ∈ run, p x)
    (h : ∀ x ∈ rest.head?, p x = false) :
    (run ++ rest).takeWhile p = run ∧ (run ++ rest).dropWhile p = rest := by
  obtain ⟨htake, hdrop⟩ := run_ends h run
  rw [List.takeWhile_eq_self_iff.mpr hrun] at htake
  rw [List.dropWhile_eq_nil_iff.mpr hrun] at hdrop
  exact ⟨htake, hdrop⟩

/-- Pieces without an element can be told from each other when they are joined with it behind each. -/
theorem pieces_unique {x : α} {pieces pieces' : List (List α)} (h : ∀ piece ∈ pieces, x ∉ piece)
    (h' : ∀ piece ∈ pieces', x ∉ piece)
    (he : pieces.flatMap (· ++ [x]) = pieces'.flatMap (· ++ [x])) : pieces = pieces' := by
  induction pieces generalizing pieces' with
  | nil =>
    cases pieces' with
    | nil => rfl
    | cons piece' pieces' => simp at he
  | cons piece pieces ih =>
    cases pieces' with
    | nil => simp at he
    | cons piece' pieces' =>
      simp only [List.flatMap_cons, List.append_assoc, List.singleton_append] at he
      obtain ⟨hp, hs⟩ := List.forall_mem_cons.mp h
      obtain ⟨hp', hs'⟩ := List.forall_mem_cons.mp h'
      obtain ⟨rfl, -, hrest⟩ := first_unique (p := (· = x)) he (fun t ht hx => hp (hx ▸ ht))
        (fun t ht hx => hp' (hx ▸ ht)) rfl rfl
      rw [ih hs hs' hrest]

end StringProcessor
