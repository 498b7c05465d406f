import StringProcessor.Proofs.Text.Words

/-! Texts with their words in reverse order. Reversing drops all but the words and the white space behind
each, and puts a space where there is none; what is left then has the same words, and reversing it once more
only restores their order. -/
namespace StringProcessor.Text
variable {k : WordClass}

namespace Segment

def Spaced (k : WordClass) (s : Segment) : Prop := s.gap ≠ [] ∧ ∀ c ∈ s.gap, k.blank c

def respaced (k : WordClass) (s : Segment) : Segment := ⟨s.word, s.spacing k⟩

theorem spacing_eq (k : WordClass) (s : Segment) :
    s.spacing k = if s.gap.takeWhile k.blank = [] then [' '] else s.gap.takeWhile k.blank := by
  rw [spacing]
  cases s.gap.takeWhile k.blank <;> rfl

private theorem respaced_spaced (k : WordClass) (s : Segment) : (s.respaced k).Spaced k := by
  rw [Spaced, respaced, spacing_eq]
  split
  · exact ⟨by simp, by simpa using k.space⟩
  · exact ⟨‹_›, fun c hc => List.mem_takeWhile_imp hc⟩

private theorem respaced_eq_self_iff {s : Segment} : s.respaced k = s ↔ s.Spaced k := by
  constructor
  · intro h
    exact h ▸ s.respaced_spaced k
  · rintro ⟨hne, hblank⟩
    obtain ⟨word, gap⟩ := s
    have hall : gap.takeWhile k.blank = gap := List.takeWhile_eq_self_iff.mpr hblank
    obtain ⟨c, rest, rfl⟩ := List.exists_cons_of_ne_nil hne
    simp [respaced, spacing, hall]

private theorem respaced_respaced (k : WordClass) (s : Segment) :
    (s.respaced k).respaced k = s.respaced k :=
  respaced_eq_self_iff.mpr (s.respaced_spaced k)

private theorem Proper.respaced {s : Segment} (h : s.Proper k) : (s.respaced k).Proper k :=
  ⟨h.word_ne_nil, h.word, fun c hc => k.apart c ((s.respaced_spaced k).2 c hc)⟩

end Segment

namespace Segmentation
variable {s : Segmentation}

def reversed (k : WordClass) (s : Segmentation) : Segmentation :=
  ⟨[], s.segments.reverse.map (Segment.respaced k)⟩

private theorem Proper.reversed (h : s.Proper k) : (s.reversed k).Proper k := by
  refine ⟨by simp [Segmentation.reversed], ?_, ?_⟩
  · intro t ht
    obtain ⟨u, hu, rfl⟩ := List.mem_map.mp ht
    exact (h.segments u (List.mem_reverse.mp hu)).respaced
  · apply List.Pairwise.isChain
    apply List.pairwise_map.mpr
    exact List.pairwise_of_forall fun t _ => (t.respaced_spaced k).1

theorem reversed_reversed (k : WordClass) (s : Segmentation) :
    (s.reversed k).reversed k = ⟨[], s.segments.map (Segment.respaced k)⟩ := by
  simp [reversed, Segment.respaced_respaced]

private theorem reversed_reversed_reversed (k : WordClass) (s : Segmentation) :
    ((s.reversed k).reversed k).reversed k = s.reversed k := by
  rw [reversed_reversed]
  simp [reversed, Segment.respaced_respaced]

private theorem reversed_reversed_eq_self_iff :
    (s.reversed k).reversed k = s ↔ s.lead = [] ∧ ∀ t ∈ s.segments, t.Spaced k := by
  have hmap : s.segments.map (Segment.respaced k) = s.segments ↔ ∀ t ∈ s.segments, t.Spaced k := by
    conv_lhs => rhs; rw [← List.map_id s.segments]
    rw [List.map_inj_left]
    exact forall₂_congr fun _ _ => Segment.respaced_eq_self_iff
  rw [reversed_reversed, ← hmap]
  obtain ⟨lead, segments⟩ := s
  simp [eq_comm]

end Segmentation

theorem reversedWords_eq (k : WordClass) (text : List Char) :
    reversedWords k text = ((segmentation k text).reversed k).text := by
  rw [reversedWords, Segmentation.reversed, Segmentation.text, List.nil_append, List.flatMap_map]
  rfl

/-- Words that were apart stay apart when they are reversed, so a reversed text is cut where it was put
together. -/
theorem segmentation_reversedWords (k : WordClass) (text : List Char) :
    segmentation k (reversedWords k text) = (segmentation k text).reversed k := by
  rw [reversedWords_eq]
  exact (segmentation_proper k text).reversed.unique

theorem wordsOf_reversedWords (k : WordClass) (text : List Char) :
    wordsOf k (reversedWords k text) = (wordsOf k text).reverse := by
  rw [wordsOf, segmentation_reversedWords, wordsOf, Segmentation.reversed, List.map_map, List.map_reverse]
  rfl

/-- Reversing the words of a text reverses the list of its words and changes none of them. The words are
those that a scan for words finds, and the reversed text is made of what a scan for words and the white
space behind them finds. -/
theorem words_reverseWords (k : WordClass) (value : String) :
    words value k =
      (findWords k (fun _ => false) value.toList).map (fun found => String.ofList found.1) ∧
    reverseWords value k = String.ofList ((findWords k k.blank value.toList).reverse.flatMap
      fun found => found.1 ++ if found.2 = [] then [' '] else found.2) ∧
    words (reverseWords value k) k = (words value k).reverse := by
  refine ⟨?_, ?_, ?_⟩
  · rw [findWords_eq (by simp), List.map_map, words, wordsOf, List.map_map]
    rfl
  · rw [findWords_eq k.apart, ← List.map_reverse, List.flatMap_map, reverseWords,
      reversedWords]
    congr 2
    funext s
    rw [Segment.spaced, Segment.spacing_eq]
  · rw [words, reverseWords, String.toList_ofList, wordsOf_reversedWords, List.map_reverse, words]

example : reverseWords " one,two.\t(three)" = "three two.\tone " := by decide +kernel

/-- The text is empty, or it is of words and white space, begins with a word and ends with white space. -/
def Normalised (k : WordClass) (text : List Char) : Prop :=
  text = [] ∨ (∀ c ∈ text, k.word c ∨ k.blank c) ∧
    (∃ c ∈ text.head?, k.word c) ∧ ∃ c ∈ text.getLast?, k.blank c

section
variable {s : Segmentation}

private theorem Segmentation.Proper.lead_of_head (h : s.Proper k) {c : Char} (hc : c ∈ s.text.head?)
    (hw : k.word c) : s.lead = [] := by
  cases hlead : s.lead with
  | nil => rfl
  | cons d lead =>
    obtain rfl : d = c := by simpa [Segmentation.text, hlead] using hc
    have hd := h.lead d (by simp [hlead])
    simp [hd] at hw

/-- A text that does not end with a word character has a gap behind each of its words. -/
theorem Segmentation.Proper.gap_ne_nil (h : s.Proper k) (hlast : ∀ c ∈ s.text.getLast?, k.word c = false)
    {t : Segment} (ht : t ∈ s.segments) : t.gap ≠ [] := by
  have hproper := h.segments t ht
  obtain ⟨before, after, hsplit⟩ := List.append_of_mem ht
  cases after with
  | cons next others =>
    have hapart := h.apart
    rw [hsplit] at hapart
    exact (List.isChain_cons_cons.mp hapart.right_of_append).1
  | nil =>
    -- If there were none behind the last word, the text would end with a word character.
    intro hgap
    obtain ⟨c, hc⟩ : ∃ c, c ∈ t.word.getLast? := ⟨_, List.getLast?_eq_some_getLast hproper.word_ne_nil⟩
    have htext : s.text.getLast? = t.word.getLast? := by
      simp [Segmentation.text, hsplit, Segment.text, hgap, ← List.append_assoc,
        List.getLast?_append_of_ne_nil _ hproper.word_ne_nil]
    have hw := hproper.word c (List.mem_of_getLast? hc)
    rw [hlast c (htext ▸ hc)] at hw
    cases hw

private theorem Segmentation.Proper.normalised_iff (h : s.Proper k) :
    Normalised k s.text ↔ s.lead = [] ∧ ∀ t ∈ s.segments, t.Spaced k := by
  constructor
  · rintro (hnil | ⟨hall, ⟨first, hfirst, hw⟩, last, hlast, hb⟩)
    · obtain ⟨hlead, hsegments⟩ := List.append_eq_nil_iff.mp hnil
      refine ⟨hlead, fun t ht => ?_⟩
      have htext := List.flatMap_eq_nil_iff.mp hsegments t ht
      exact absurd (List.append_eq_nil_iff.mp htext).1 (h.segments t ht).word_ne_nil
    · have hgap : ∀ c ∈ s.text.getLast?, k.word c = false := fun c hc =>
        Option.mem_unique hlast hc ▸ k.apart last hb
      refine ⟨h.lead_of_head hfirst hw, fun t ht => ⟨h.gap_ne_nil hgap ht, fun c hc => ?_⟩⟩
      have hmem : c ∈ s.text :=
        List.mem_append_right _ (List.mem_flatMap.mpr ⟨t, ht, List.mem_append_right _ hc⟩)
      have hgap := (h.segments t ht).gap c hc
      simpa [hgap] using hall c hmem
  · rintro ⟨hlead, hspaced⟩
    have htext : s.text = s.segments.flatMap Segment.text := by rw [Segmentation.text, hlead]; rfl
    rcases List.eq_nil_or_concat s.segments with hnil | ⟨front, t, hconcat⟩
    · exact .inl (by rw [htext, hnil]; rfl)
    · rw [List.concat_eq_append] at hconcat
      have ht : t ∈ s.segments := by simp [hconcat]
      refine .inr ⟨fun c hc => ?_, ?_, ?_⟩
      · rw [htext] at hc
        obtain ⟨u, hu, hcu⟩ := List.mem_flatMap.mp hc
        rcases List.mem_append.mp hcu with hword | hgap
        · exact .inl ((h.segments u hu).word c hword)
        · exact .inr ((hspaced u hu).2 c hgap)
      · have hne : s.text ≠ [] := by simp [htext, hconcat, Segment.text, (hspaced t ht).1]
        obtain ⟨c, rest, hcons⟩ := List.exists_cons_of_ne_nil hne
        have hhead := head?_segments h.segments
        rw [← htext, hcons] at hhead
        exact ⟨c, by simp [hcons], hhead c rfl⟩
      · obtain ⟨gap, c, hgap⟩ := (List.eq_nil_or_concat t.gap).resolve_left (hspaced t ht).1
        rw [List.concat_eq_append] at hgap
        refine ⟨c, ?_, (hspaced t ht).2 c (by simp [hgap])⟩
        simp [htext, hconcat, Segment.text, hgap, ← List.append_assoc]

end

/-- Reversing twice restores exactly the normalised texts. -/
private theorem reversedWords_reversedWords_iff (k : WordClass) (text : List Char) :
    reversedWords k (reversedWords k text) = text ↔ Normalised k text := by
  have h := segmentation_proper k text
  have hnormalised := h.normalised_iff
  rw [text_segmentation] at hnormalised
  rw [hnormalised, ← Segmentation.reversed_reversed_eq_self_iff, ← segmentation_reversedWords,
    ← segmentation_reversedWords]
  constructor
  · intro he
    rw [he]
  · intro he
    rw [← text_segmentation k (reversedWords k _), he, text_segmentation]

/-- To reverse the words of a value three times is to reverse them once. To reverse them twice is to do
nothing exactly if the value is normalised. -/
theorem reverseWords_involution_iff (k : WordClass) (value : String) :
    reverseWords (reverseWords (reverseWords value k) k) k = reverseWords value k ∧
      (reverseWords (reverseWords value k) k = value ↔ Normalised k value.toList) := by
  constructor
  · simp only [reverseWords, String.toList_ofList]
    rw [reversedWords_eq, segmentation_reversedWords, segmentation_reversedWords,
      Segmentation.reversed_reversed_reversed, ← reversedWords_eq]
  · rw [← reversedWords_reversedWords_iff, ← String.toList_inj]
    simp only [reverseWords, String.toList_ofList]

end StringProcessor.Text
