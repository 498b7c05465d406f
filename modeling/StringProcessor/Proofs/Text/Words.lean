import Mathlib.Data.List.Chain
import Mathlib.Data.List.TakeWhile
import StringProcessor.Proofs.Pieces
import StringProcessor.Text.Words

/-! Texts cut at their words. The words are runs of word characters that gaps keep apart, and a text can be
cut into such runs and gaps in one way only. -/
namespace StringProcessor.Text

def Segment.text (s : Segment) : List Char := s.word ++ s.gap

def Segmentation.text (s : Segmentation) : List Char := s.lead ++ s.segments.flatMap Segment.text

/-- The word is not empty, and all of it and nothing of the gap is of word characters. -/
structure Segment.Proper (k : WordClass) (s : Segment) : Prop where
  word_ne_nil : s.word ≠ []
  word : ∀ c ∈ s.word, k.word c
  gap : ∀ c ∈ s.gap, k.word c = false

/-- There is no word character in front of the first word, and a gap between any two words. -/
structure Segmentation.Proper (k : WordClass) (s : Segmentation) : Prop where
  lead : ∀ c ∈ s.lead, k.word c = false
  segments : ∀ t ∈ s.segments, t.Proper k
  apart : s.segments.IsChain fun t _ => t.gap ≠ []

variable {k : WordClass}

namespace Segmentation
variable {s : Segmentation} {c : Char}

private theorem push_gap (h : k.word c = false) : s.push k c = ⟨c :: s.lead, s.segments⟩ := by
  simp [push, h]

/-- A word character that a gap, or the end of the text, keeps apart is a word of its own. -/
private theorem push_apart (h : k.word c) (hs : s.lead ≠ [] ∨ s.segments = []) :
    s.push k c = ⟨[], ⟨[c], s.lead⟩ :: s.segments⟩ := by
  obtain ⟨lead, segments⟩ := s
  cases lead with
  | cons d lead => simp [push, h]
  | nil =>
    obtain rfl : segments = [] := by simpa using hs
    simp [push, h]

private theorem push_joined (h : k.word c) (first : Segment) (others : List Segment) :
    push k c ⟨[], first :: others⟩ = ⟨[], ⟨c :: first.word, first.gap⟩ :: others⟩ := by
  simp [push, h]

/-- What a character in front does. -/
private theorem push_cases (k : WordClass) (c : Char) (s : Segmentation) :
    k.word c = false ∨ k.word c ∧
      ((s.lead ≠ [] ∨ s.segments = []) ∨ ∃ first others, s = ⟨[], first :: others⟩) := by
  obtain ⟨lead, segments⟩ := s
  cases hc : k.word c with
  | false => exact .inl rfl
  | true =>
    cases lead with
    | cons d lead => exact .inr ⟨rfl, .inl (.inl (by simp))⟩
    | nil =>
      cases segments with
      | nil => exact .inr ⟨rfl, .inl (.inr rfl)⟩
      | cons first others => exact .inr ⟨rfl, .inr ⟨first, others, rfl⟩⟩

theorem text_push (k : WordClass) (c : Char) (s : Segmentation) : (s.push k c).text = c :: s.text := by
  obtain hc | ⟨hc, hs | ⟨first, others, rfl⟩⟩ := push_cases k c s
  · rw [push_gap hc]
    rfl
  · rw [push_apart hc hs]
    simp [text, Segment.text]
  · rw [push_joined hc]
    simp [text, Segment.text]

/-- One more character in front is cut properly too. -/
theorem Proper.push (h : s.Proper k) (c : Char) : (s.push k c).Proper k := by
  obtain hc | ⟨hc, hs | ⟨first, others, rfl⟩⟩ := push_cases k c s
  · rw [push_gap hc]
    exact ⟨List.forall_mem_cons.mpr ⟨hc, h.lead⟩, h.segments, h.apart⟩
  · rw [push_apart hc hs]
    have hword : Segment.Proper k ⟨[c], s.lead⟩ := ⟨by simp, by simpa using hc, h.lead⟩
    refine ⟨by simp, List.forall_mem_cons.mpr ⟨hword, h.segments⟩, ?_⟩
    cases hsegments : s.segments with
    | nil => exact .singleton _
    | cons first others =>
      refine .cons_cons ?_ (hsegments ▸ h.apart)
      simpa [hsegments] using hs
  · rw [push_joined hc]
    obtain ⟨hfirst, hothers⟩ := List.forall_mem_cons.mp h.segments
    have hword : Segment.Proper k ⟨c :: first.word, first.gap⟩ :=
      ⟨by simp, List.forall_mem_cons.mpr ⟨hc, hfirst.word⟩, hfirst.gap⟩
    refine ⟨by simp, List.forall_mem_cons.mpr ⟨hword, hothers⟩, ?_⟩
    cases others with
    | nil => exact .singleton _
    | cons next others =>
      obtain ⟨hgap, hrest⟩ := List.isChain_cons_cons.mp h.apart
      exact .cons_cons hgap hrest

end Segmentation

/-- A text is cut properly. -/
theorem segmentation_proper (k : WordClass) (text : List Char) : (segmentation k text).Proper k := by
  induction text with
  | nil => exact ⟨by simp [segmentation], by simp [segmentation], .nil⟩
  | cons c text ih => exact ih.push c

/-- Nothing of a text is lost when it is cut. -/
theorem text_segmentation (k : WordClass) (text : List Char) : (segmentation k text).text = text := by
  induction text with
  | nil => rfl
  | cons c text ih => exact (Segmentation.text_push k c _).trans (congrArg (c :: ·) ih)

theorem segmentation_append (k : WordClass) (front rest : List Char) :
    segmentation k (front ++ rest) = front.foldr (Segmentation.push k) (segmentation k rest) :=
  List.foldr_append

private theorem foldr_push_gap {gap : List Char} (h : ∀ c ∈ gap, k.word c = false) (s : Segmentation) :
    gap.foldr (Segmentation.push k) s = ⟨gap ++ s.lead, s.segments⟩ := by
  induction gap with
  | nil => rfl
  | cons c gap ih =>
    obtain ⟨hc, hgap⟩ := List.forall_mem_cons.mp h
    rw [List.foldr_cons, ih hgap, Segmentation.push_gap hc]
    rfl

private theorem foldr_push_word {word : List Char} (hne : word ≠ []) (h : ∀ c ∈ word, k.word c)
    {s : Segmentation} (hs : s.lead ≠ [] ∨ s.segments = []) :
    word.foldr (Segmentation.push k) s = ⟨[], ⟨word, s.lead⟩ :: s.segments⟩ := by
  induction word with
  | nil => exact absurd rfl hne
  | cons c word ih =>
    obtain ⟨hc, hword⟩ := List.forall_mem_cons.mp h
    cases word with
    | nil => exact Segmentation.push_apart hc hs
    | cons d word => rw [List.foldr_cons, ih (by simp) hword, Segmentation.push_joined hc]

private theorem segmentation_segments {segments : List Segment} (h : ∀ s ∈ segments, s.Proper k)
    (hapart : segments.IsChain fun s _ => s.gap ≠ []) :
    segmentation k (segments.flatMap Segment.text) = ⟨[], segments⟩ := by
  induction segments with
  | nil => rfl
  | cons s segments ih =>
    obtain ⟨hs, hsegments⟩ := List.forall_mem_cons.mp h
    have hrest := ih hsegments hapart.tail
    have hgap : s.gap ≠ [] ∨ segments = [] := by
      cases segments with
      | nil => exact .inr rfl
      | cons next others => exact .inl (List.isChain_cons_cons.mp hapart).1
    rw [List.flatMap_cons, Segment.text, List.append_assoc, segmentation_append, segmentation_append,
      hrest, foldr_push_gap hs.gap, List.append_nil, foldr_push_word hs.word_ne_nil hs.word hgap]

/-- A text can be cut properly in one way only. -/
theorem Segmentation.Proper.unique {s : Segmentation} (h : s.Proper k) : segmentation k s.text = s := by
  rw [Segmentation.text, segmentation_append, segmentation_segments h.segments h.apart,
    foldr_push_gap h.lead, List.append_nil]

/-- What a scan from left to right finds: the next word, as long as it goes on, with the characters of a
kind behind it, as many as there are, and then all that is found in the rest of the text. -/
def findWords (k : WordClass) (kind : Char → Bool) : List Char → List (List Char × List Char)
  | [] => []
  | c :: text =>
    if k.word c then
      let behind := text.dropWhile k.word
      (c :: text.takeWhile k.word, behind.takeWhile kind) :: findWords k kind (behind.dropWhile kind)
    else findWords k kind text
termination_by text => text.length
decreasing_by
  · have hword := List.length_dropWhile_le k.word text
    have hkind := List.length_dropWhile_le kind (text.dropWhile k.word)
    simp only [List.length_cons]
    omega
  · simp

section
variable {kind : Char → Bool}

private theorem findWords_gap {gap : List Char} (h : ∀ c ∈ gap, k.word c = false) (rest : List Char) :
    findWords k kind (gap ++ rest) = findWords k kind rest := by
  induction gap with
  | nil => rfl
  | cons c gap ih =>
    obtain ⟨hc, hgap⟩ := List.forall_mem_cons.mp h
    rw [List.cons_append, findWords, if_neg (by simp [hc]), ih hgap]

private theorem findWords_word {word rest : List Char} (hne : word ≠ []) (h : ∀ c ∈ word, k.word c)
    (hrest : ∀ c ∈ rest.head?, k.word c = false) :
    findWords k kind (word ++ rest) =
      (word, rest.takeWhile kind) :: findWords k kind (rest.dropWhile kind) := by
  obtain ⟨c, others, rfl⟩ := List.exists_cons_of_ne_nil hne
  obtain ⟨hc, hothers⟩ := List.forall_mem_cons.mp h
  obtain ⟨htake, hdrop⟩ := run_exact hothers hrest
  simp only [List.cons_append, findWords, hc, ↓reduceIte, htake, hdrop]

/-- What is made of words and the gaps behind them begins with a word. -/
theorem head?_segments {segments : List Segment} (h : ∀ s ∈ segments, s.Proper k) :
    ∀ c ∈ (segments.flatMap Segment.text).head?, k.word c := by
  cases segments with
  | nil => simp
  | cons s segments =>
    have hs := h s (.head _)
    obtain ⟨c, word, hword⟩ := List.exists_cons_of_ne_nil hs.word_ne_nil
    have hc := hs.word c (by simp [hword])
    simpa [Segment.text, hword] using hc

/-- A word ends where the gap behind it begins, or where the text ends. -/
theorem head?_gap {s : Segment} {segments : List Segment} (h : s.Proper k)
    (hapart : (s :: segments).IsChain fun s _ => s.gap ≠ []) :
    ∀ c ∈ (s.gap ++ segments.flatMap Segment.text).head?, k.word c = false := by
  cases hg : s.gap with
  | cons c gap => simpa [hg] using h.gap c
  | nil =>
    cases segments with
    | nil => simp
    | cons next others => exact absurd hg (List.isChain_cons_cons.mp hapart).1

private theorem findWords_segments (hkind : ∀ c, kind c → k.word c = false) {segments : List Segment}
    (h : ∀ s ∈ segments, s.Proper k) (hapart : segments.IsChain fun s _ => s.gap ≠ []) :
    findWords k kind (segments.flatMap Segment.text) =
      segments.map fun s => (s.word, s.gap.takeWhile kind) := by
  induction segments with
  | nil => simp [findWords]
  | cons s segments ih =>
    obtain ⟨hs, hsegments⟩ := List.forall_mem_cons.mp h
    have hhead := head?_segments hsegments
    have hgap := head?_gap hs hapart
    generalize hrest : segments.flatMap Segment.text = rest at ih hhead hgap
    have hother : ∀ c ∈ rest.head?, kind c = false := by
      intro c hc
      have hw := hhead c hc
      cases hk : kind c with
      | false => rfl
      | true => simp [hkind c hk] at hw
    obtain ⟨htake, hdrop⟩ := run_ends hother s.gap
    have hleft : ∀ c ∈ s.gap.dropWhile kind, k.word c = false := fun c hc =>
      hs.gap c ((List.dropWhile_sublist kind).subset hc)
    rw [List.flatMap_cons, hrest, Segment.text, List.append_assoc,
      findWords_word hs.word_ne_nil hs.word hgap, htake, hdrop, findWords_gap hleft,
      ih hsegments hapart.tail, List.map_cons]

/-- The words of a text are found one after the other, whatever is taken along of the gaps. -/
theorem findWords_eq (hkind : ∀ c, kind c → k.word c = false) (text : List Char) :
    findWords k kind text = (segmentation k text).segments.map fun s => (s.word, s.gap.takeWhile kind) := by
  have h := segmentation_proper k text
  conv_lhs => rw [← text_segmentation k text]
  rw [Segmentation.text, findWords_gap h.lead, findWords_segments hkind h.segments h.apart]

end

end StringProcessor.Text
