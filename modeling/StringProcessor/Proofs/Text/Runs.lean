import Mathlib.Data.List.Forall2
import StringProcessor.Proofs.Text.Reversal

/-! The words of a text as its maximal runs of word characters. A text is cut at every such run and nowhere
else, and a reversed text is put together of these runs and the white space behind them. -/
namespace StringProcessor.Text
variable {k : WordClass}

/-- A word that neither the text before it nor the text after it prolongs. -/
structure MaximalRun (k : WordClass) (before word after : List Char) : Prop where
  ne_nil : word ≠ []
  inside : ∀ c ∈ word, k.word c
  before : ∀ c ∈ before.getLast?, k.word c = false
  after : ∀ c ∈ after.head?, k.word c = false

/-- One of the words that the text was cut at stands between these two parts of it. -/
def Segmentation.Holds (s : Segmentation) (before word after : List Char) : Prop :=
  ∃ front gap behind, s.segments = front ++ ⟨word, gap⟩ :: behind ∧
    before = s.lead ++ front.flatMap Segment.text ∧ after = gap ++ behind.flatMap Segment.text

namespace Segmentation
variable {s : Segmentation} {before word after : List Char}

private theorem exists_proper (k : WordClass) (text : List Char) :
    ∃ s : Segmentation, s.Proper k ∧ s.text = text :=
  ⟨segmentation k text, segmentation_proper k text, text_segmentation k text⟩

theorem Holds.text (h : s.Holds before word after) : before ++ word ++ after = s.text := by
  obtain ⟨front, gap, behind, hs, rfl, rfl⟩ := h
  simp [Segmentation.text, hs, Segment.text]

/-- What is in front of a word ends with the gap that keeps the word apart. -/
private theorem Proper.getLast?_front (h : s.Proper k) {front behind : List Segment} {t : Segment}
    (hs : s.segments = front ++ t :: behind) :
    ∀ c ∈ (s.lead ++ front.flatMap Segment.text).getLast?, k.word c = false := by
  rcases List.eq_nil_or_concat front with rfl | ⟨others, u, rfl⟩
  · intro c hc
    rw [List.flatMap_nil, List.append_nil] at hc
    exact h.lead c (List.mem_of_getLast? hc)
  · have hapart := h.apart
    rw [hs, List.concat_eq_append, List.append_assoc] at hapart
    have hgap : u.gap ≠ [] := (List.isChain_cons_cons.mp hapart.right_of_append).1
    have hu : u.Proper k := h.segments u (by simp [hs])
    intro c hc
    rw [List.concat_eq_append, List.flatMap_append, List.flatMap_singleton, Segment.text, ← List.append_assoc,
      ← List.append_assoc, List.getLast?_append_of_ne_nil _ hgap] at hc
    exact hu.gap c (List.mem_of_getLast? hc)

private theorem Proper.holds_maximal (h : s.Proper k) (hw : s.Holds before word after) :
    MaximalRun k before word after := by
  obtain ⟨front, gap, behind, hs, rfl, rfl⟩ := hw
  have hword : Segment.Proper k ⟨word, gap⟩ := h.segments _ (by simp [hs])
  have hapart := h.apart
  rw [hs] at hapart
  exact ⟨hword.word_ne_nil, hword.word, h.getLast?_front hs, head?_gap hword hapart.right_of_append⟩

/-- A text that does not begin with a word character has a gap in front of its first word. -/
private theorem Proper.lead_ne_nil (h : s.Proper k) (hhead : ∀ c ∈ s.text.head?, k.word c = false)
    (hs : s.segments ≠ []) : s.lead ≠ [] := by
  intro hlead
  obtain ⟨t, others, hsegments⟩ := List.exists_cons_of_ne_nil hs
  have ht : t.Proper k := h.segments t (by simp [hsegments])
  obtain ⟨c, word, hword⟩ := List.exists_cons_of_ne_nil ht.word_ne_nil
  have hc : k.word c := ht.word c (by simp [hword])
  rw [hhead c (by simp [Segmentation.text, hlead, hsegments, Segment.text, hword])] at hc
  cases hc

/-- A maximal run joins what is cut before it to what is cut after it. -/
theorem Proper.join {front back : Segmentation} (hf : front.Proper k) (hb : back.Proper k)
    (h : MaximalRun k front.text word back.text) :
    Segmentation.Proper k ⟨front.lead, front.segments ++ ⟨word, back.lead⟩ :: back.segments⟩ := by
  have hword : Segment.Proper k ⟨word, back.lead⟩ := ⟨h.ne_nil, h.inside, hb.lead⟩
  refine ⟨hf.lead, ?_, ?_⟩
  · exact List.forall_mem_append.mpr ⟨hf.segments, List.forall_mem_cons.mpr ⟨hword, hb.segments⟩⟩
  · apply hf.apart.append
    · apply hb.apart.cons
      intro t ht
      exact hb.lead_ne_nil h.after (List.ne_nil_of_mem (List.mem_of_mem_head? ht))
    · intro t ht _ _
      exact hf.gap_ne_nil h.before (List.mem_of_getLast? ht)

/-- A text is cut at each maximal run in it. -/
private theorem Proper.holds_iff (h : s.Proper k) :
    s.Holds before word after ↔ before ++ word ++ after = s.text ∧ MaximalRun k before word after := by
  constructor
  · intro hw
    exact ⟨hw.text, h.holds_maximal hw⟩
  · rintro ⟨htext, hrun⟩
    obtain ⟨front, hfront, rfl⟩ := exists_proper k before
    obtain ⟨back, hback, rfl⟩ := exists_proper k after
    have hjoin := hfront.join hback hrun
    -- The text can be cut in one way only, so this is how it is cut.
    obtain rfl : s = ⟨front.lead, front.segments ++ ⟨word, back.lead⟩ :: back.segments⟩ := by
      rw [← h.unique, ← hjoin.unique, ← htext]
      simp [Segmentation.text, Segment.text]
    exact ⟨front.segments, back.lead, back.segments, rfl, rfl, rfl⟩

end Segmentation

/-- The longest white space that a gap begins with. -/
structure LeadingBlanks (k : WordClass) (gap blanks : List Char) : Prop where
  start : blanks <+: gap
  blank : ∀ c ∈ blanks, k.blank c
  longest : ∀ other, other <+: gap → (∀ c ∈ other, k.blank c) → other.length ≤ blanks.length

private theorem leadingBlanks_takeWhile (k : WordClass) (gap : List Char) :
    LeadingBlanks k gap (gap.takeWhile k.blank) := by
  refine ⟨List.takeWhile_prefix _, fun c hc => List.mem_takeWhile_imp hc, ?_⟩
  rintro other ⟨rest, rfl⟩ hblank
  have htake : (other ++ rest).takeWhile k.blank = other ++ rest.takeWhile k.blank :=
    List.takeWhile_append_of_pos hblank
  rw [htake, List.length_append]
  exact Nat.le_add_right _ _

/-- What is written of a word: the word with the white space directly behind it, or with one space if there
is none. -/
inductive Segment.Written (k : WordClass) (s : Segment) : List Char → Prop
  | kept {blanks : List Char} : LeadingBlanks k s.gap blanks → blanks ≠ [] → s.Written k (s.word ++ blanks)
  | spaced : LeadingBlanks k s.gap [] → s.Written k (s.word ++ [' '])

private theorem Segment.spaced_written (k : WordClass) (s : Segment) : s.Written k (s.spaced k) := by
  have h := leadingBlanks_takeWhile k s.gap
  rw [Segment.spaced, Segment.spacing_eq]
  split
  · rename_i hnone
    rw [hnone] at h
    exact .spaced h
  · exact .kept h ‹_›

/-- The words of a value are its maximal runs of word characters. A value can be cut in exactly one way into
gaps and words that take turns, where no word is empty, words are of word characters and gaps have none of
them, and only the first and the last gap may be empty. The words are those of this cut, and they are the
maximal runs of the value, each in its place. A value with its words reversed is made of what is written of
each of them, the last one first. -/
theorem words_are_maximal_runs (k : WordClass) (value : String) :
    ∃ s : Segmentation, (∀ t : Segmentation, t.Proper k ∧ t.text = value.toList ↔ t = s) ∧
      words value k = s.segments.map (fun t => String.ofList t.word) ∧
      (∀ before word after, s.Holds before word after ↔
        before ++ word ++ after = value.toList ∧ MaximalRun k before word after) ∧
      ∃ parts, List.Forall₂ (Segment.Written k) s.segments parts ∧
        reverseWords value k = String.ofList parts.reverse.flatten := by
  have hproper := segmentation_proper k value.toList
  have htext := text_segmentation k value.toList
  refine ⟨segmentation k value.toList, ?_, ?_, ?_, ?_⟩
  · intro t
    constructor
    · rintro ⟨ht, he⟩
      rw [← he, ht.unique]
    · rintro rfl
      exact ⟨hproper, htext⟩
  · rw [words, wordsOf, List.map_map]
    rfl
  · intro before word after
    rw [hproper.holds_iff, htext]
  · refine ⟨(segmentation k value.toList).segments.map (Segment.spaced k), ?_, ?_⟩
    · apply List.forall₂_map_right_iff.mpr
      exact List.forall₂_same.mpr fun t _ => t.spaced_written k
    · rw [reverseWords, reversedWords, ← List.map_reverse, List.flatMap_def]

end StringProcessor.Text
