import StringProcessor.Proofs.Text.Reversal

/-! The size of reversed texts. A space is put behind a word only where no white space follows. Behind every
word but the last a character of the gap is dropped for it, so all words together gain one byte at most. -/
namespace StringProcessor.Text

/-- How many bytes there are in the UTF-8 form of a text. -/
def utf8Size : List Char → Nat
  | [] => 0
  | c :: text => c.utf8Size + utf8Size text

@[simp] theorem utf8Size_nil : utf8Size [] = 0 := rfl

@[simp] theorem utf8Size_cons (c : Char) (text : List Char) :
    utf8Size (c :: text) = c.utf8Size + utf8Size text := rfl

@[simp] theorem utf8Size_append (front rest : List Char) :
    utf8Size (front ++ rest) = utf8Size front + utf8Size rest := by
  induction front with
  | nil => simp
  | cons c front ih => rw [List.cons_append, utf8Size_cons, utf8Size_cons, ih, Nat.add_assoc]

/-- The order of the characters does not matter. -/
theorem utf8Size_perm {text text' : List Char} (h : text.Perm text') : utf8Size text = utf8Size text' := by
  induction h with
  | nil => rfl
  | cons c _ ih => rw [utf8Size_cons, utf8Size_cons, ih]
  | swap c d text =>
    rw [utf8Size_cons, utf8Size_cons, utf8Size_cons, utf8Size_cons]
    omega
  | trans _ _ ih ih' => exact ih.trans ih'

theorem utf8Size_toList (value : String) : utf8Size value.toList = value.utf8ByteSize := by
  have hsize (text : List Char) : utf8Size text = (String.ofList text).utf8ByteSize := by
    induction text with
    | nil => rfl
    | cons c text ih =>
      rw [String.ofList_cons, String.utf8ByteSize_append, String.utf8ByteSize_singleton, utf8Size_cons, ih]
  rw [hsize, String.ofList_toList]

namespace Segment

/-- Only a word without a gap grows, by the one space. -/
private theorem utf8Size_spaced (k : WordClass) (s : Segment) :
    utf8Size (s.spaced k) ≤ utf8Size s.text + if s.gap = [] then 1 else 0 := by
  have hspace : utf8Size [' '] = 1 := by decide
  rw [spaced, text, utf8Size_append, utf8Size_append, spacing_eq]
  split
  · rw [hspace]
    cases hg : s.gap with
    | nil => simp
    | cons c gap =>
      -- The space takes the place of the first character of the gap, which is not white space.
      have hc := c.utf8Size_pos
      rw [utf8Size_cons]
      omega
  · have hcut := congrArg utf8Size (List.takeWhile_append_dropWhile (p := k.blank) (l := s.gap))
    rw [utf8Size_append] at hcut
    omega

end Segment

/-- Words that gaps keep apart grow by one byte at most, all of them together. -/
private theorem utf8Size_flatMap_spaced (k : WordClass) {segments : List Segment}
    (hapart : segments.IsChain fun s _ => s.gap ≠ []) :
    utf8Size (segments.flatMap (Segment.spaced k)) ≤ utf8Size (segments.flatMap Segment.text) + 1 := by
  induction segments with
  | nil => simp
  | cons s segments ih =>
    have hs := s.utf8Size_spaced k
    rw [List.flatMap_cons, List.flatMap_cons, utf8Size_append, utf8Size_append]
    cases segments with
    | nil =>
      rw [List.flatMap_nil, List.flatMap_nil, utf8Size_nil]
      split at hs <;> omega
    | cons next others =>
      have hrest := ih hapart.tail
      rw [if_neg (List.isChain_cons_cons.mp hapart).1] at hs
      omega

private theorem utf8Size_reversedWords (k : WordClass) (text : List Char) :
    utf8Size (reversedWords k text) ≤ utf8Size text + 1 := by
  have hgrowth := utf8Size_flatMap_spaced k (segmentation_proper k text).apart
  have horder : (reversedWords k text).Perm ((segmentation k text).segments.flatMap (Segment.spaced k)) :=
    (List.reverse_perm _).flatMap_right _
  have htext := congrArg utf8Size (text_segmentation k text)
  rw [Segmentation.text, utf8Size_append] at htext
  rw [utf8Size_perm horder]
  omega

/-- To reverse a reversed text is only to put its characters in another order. -/
private theorem reversedWords_perm (k : WordClass) (text : List Char) :
    (reversedWords k (reversedWords k text)).Perm (reversedWords k text) := by
  rw [reversedWords_eq k (reversedWords k text), segmentation_reversedWords, Segmentation.reversed_reversed,
    reversedWords_eq k text]
  exact ((List.reverse_perm _).symm.map _).flatMap_right _

private theorem reverseWords_perm (k : WordClass) (value : String) :
    (reverseWords (reverseWords value k) k).toList.Perm (reverseWords value k).toList := by
  simpa only [reverseWords, String.toList_ofList] using reversedWords_perm k value.toList

private theorem iterate_reverseWords_perm (k : WordClass) (value : String) (n : Nat) :
    ((reverseWords · k)^[n + 1] value).toList.Perm (reverseWords value k).toList := by
  induction n with
  | zero => exact .refl _
  | succ n ih =>
    rw [Function.iterate_succ_apply'] at ih
    rw [Function.iterate_succ_apply', Function.iterate_succ_apply']
    exact (reverseWords_perm k _).trans ih

/-- A value with its words reversed has at most one byte more than the value, which is the room that is made
for it. However often its words are reversed again, it keeps its number of bytes. -/
theorem reverseWords_fits (k : WordClass) (value : String) :
    (reverseWords value k).utf8ByteSize ≤ value.utf8ByteSize + 1 ∧
      ∀ n, ((reverseWords · k)^[n + 1] value).utf8ByteSize = (reverseWords value k).utf8ByteSize := by
  constructor
  · rw [← utf8Size_toList, ← utf8Size_toList, reverseWords, String.toList_ofList]
    exact utf8Size_reversedWords k value.toList
  · intro n
    rw [← utf8Size_toList, ← utf8Size_toList, utf8Size_perm (iterate_reverseWords_perm k value n)]

/-- All of the room is needed where a value ends with a word and nothing is dropped. -/
example : (reverseWords "\u00e9t\u00e9 four").utf8ByteSize = "\u00e9t\u00e9 four".utf8ByteSize + 1 := by
  decide +kernel

end StringProcessor.Text
