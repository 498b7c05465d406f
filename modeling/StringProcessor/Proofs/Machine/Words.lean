import StringProcessor.Proofs.Machine.Assignment
import StringProcessor.Proofs.Machine.Limit
import StringProcessor.Proofs.Machine.Refusal
import StringProcessor.Proofs.Text.Words

/-! Printed words. The words of a value can be read off what is written for them, because no word has a line
feed in it, and there are as many of them as are counted. -/
namespace StringProcessor

namespace Text

/-- The parts of a text between its line feeds that are not empty. -/
def filledLines (text : String) : List String :=
  ((text.toList.splitOn '\n').filter (· ≠ [])).map String.ofList

private theorem mem_wordsOf {k : WordClass} {text word : List Char} (h : word ∈ wordsOf k text) :
    word ≠ [] ∧ ∀ c ∈ word, k.word c := by
  obtain ⟨s, hs, rfl⟩ := List.mem_map.mp h
  have hproper := (segmentation_proper k text).segments s hs
  exact ⟨hproper.word_ne_nil, hproper.word⟩

private theorem lineFeed_not_mem_word {text word : List Char} (h : word ∈ wordsOf .unicode text) :
    '\n' ∉ word := by
  intro hfeed
  have hw := (mem_wordsOf h).2 '\n' hfeed
  have hblank : WordClass.unicode.blank '\n' := by decide
  rw [WordClass.unicode.apart _ hblank] at hw
  cases hw

/-- Lines are found again between the line feeds that end them, and nothing behind the last. -/
private theorem splitOn_lines {lines : List (List Char)} (h : ∀ line ∈ lines, '\n' ∉ line) :
    (lines.flatMap (· ++ ['\n'])).splitOn '\n' = lines ++ [[]] := by
  induction lines with
  | nil => rfl
  | cons line lines ih =>
    obtain ⟨hline, hlines⟩ := List.forall_mem_cons.mp h
    have hfeed : ∀ c ∈ line, (c == '\n') = false := by
      intro c hc
      simpa using fun he : c = '\n' => hline (he ▸ hc)
    rw [List.splitOn_eq_splitOnP] at ih ⊢
    rw [List.flatMap_cons, List.append_assoc, List.singleton_append,
      List.splitOnP_append_cons_of_forall_mem hfeed _ (by simp), ih hlines]
    rfl

/-- The lines in which words are listed: one for each, and an empty one if there are none. -/
def wordList (words : List String) : String :=
  if words = [] then "\n" else String.join (words.map (· ++ "\n"))

private theorem intercalate_lineFeed (words : List String) :
    "\n".intercalate words ++ "\n" = wordList words := by
  induction words with
  | nil => rfl
  | cons word words ih =>
    cases words with
    | nil => simp [wordList]
    | cons next words =>
      have hlist : wordList (word :: next :: words) = word ++ "\n" ++ wordList (next :: words) := by
        simp [wordList]
      rw [hlist, ← ih, String.intercalate_cons_cons, String.append_assoc]

private theorem filledLines_wordList (value : String) :
    filledLines (wordList (words value)) = words value := by
  rw [wordList]
  split
  · rename_i hnone
    rw [hnone]
    rfl
  · have hchars : (String.join ((words value).map (· ++ "\n"))).toList =
        (wordsOf .unicode value.toList).flatMap (· ++ ['\n']) := by
      simp [words, List.flatMap_map, List.map_map]
    have hfilled : (wordsOf .unicode value.toList).filter (· ≠ []) = wordsOf .unicode value.toList :=
      List.filter_eq_self.mpr fun word hw => by simpa using (mem_wordsOf hw).1
    rw [filledLines, hchars, splitOn_lines fun word => lineFeed_not_mem_word, List.filter_append, hfilled]
    simp [words]

end Text

namespace Machine
variable {σ ε : Type} [Output σ ε]

/-- A place that takes everything takes what is printed of a value, line by line. -/
private theorem execute_print_takes {m : Machine σ} (h : Output.Willing m.sink) {e : Expression}
    {value : String}
    (he : evaluate m.symbols e = .ok value) (aspect : Aspect) (span : Span)
    (hlines : ∀ line ∈ rendering value aspect, line.toList.getLast? ≠ some '\n') :
    let turn := m.execute ⟨.print aspect e, span⟩
    turn.answer = .accepted ∧ Output.Takes m.sink
      (Text.bytesOf (String.join ((rendering value aspect).map (· ++ "\n")))) turn.next.sink := by
  intro turn
  obtain ⟨hnext, hanswer⟩ := execute_emit (c := ⟨.print aspect e, span⟩) (effect_print he)
  refine ⟨by rw [hanswer, emit_willing h]; rfl, ?_⟩
  rw [hnext, ← bytesOfLines_ended hlines]
  exact ⟨_, rfl, Prod.ext rfl (h _)⟩

/-- No word ends in a line feed, and so no list of words does. -/
private theorem words_not_ended (value : String) :
    ∀ line ∈ rendering value .words, line.toList.getLast? ≠ some '\n' := by
  rw [rendering, List.forall_mem_cons, List.forall_mem_singleton]
  refine ⟨by decide, ?_⟩
  rcases List.eq_nil_or_concat (Text.words value) with hnone | ⟨front, word, hconcat⟩
  · simp [hnone]
  · rw [List.concat_eq_append] at hconcat
    have hmem : word ∈ Text.words value := by simp [hconcat]
    obtain ⟨chars, hchars, rfl⟩ := List.mem_map.mp hmem
    have hlast : ("\n".intercalate (Text.words value)).toList.getLast? = chars.getLast? := by
      rw [hconcat]
      cases front with
      | nil => simp
      | cons first front =>
        rw [String.intercalate_append_of_ne_nil (by simp) (by simp), String.intercalate_singleton,
          String.toList_append, String.toList_ofList,
          List.getLast?_append_of_ne_nil _ (Text.mem_wordsOf hchars).1]
    rw [hlast]
    exact fun he => Text.lineFeed_not_mem_word hchars (List.mem_of_getLast? he)

private theorem wordCount_not_ended (value : String) :
    ∀ line ∈ rendering value .wordCount, line.toList.getLast? ≠ some '\n' := by
  rw [rendering, List.forall_mem_singleton, String.toList_append, List.getLast?_append_of_ne_nil _ (by decide)]
  decide

/-- Printing the words of a value writes a header and the words, each on a line of its own, or an empty line
if there are none. They are the parts of the list that are not empty, and how many there are is written when
they are counted. -/
theorem printed_words_are_counted {m : Machine σ} {e : Expression} {value : String}
    (h : Output.Willing m.sink) (he : evaluate m.symbols e = .ok value) (span span' : Span) :
    let printed := m.execute ⟨.print .words e, span⟩
    let counted := m.execute ⟨.print .wordCount e, span'⟩
    let words := Text.words value
    let list := Text.wordList words
    let count := (Text.filledLines list).length
    printed.answer = .accepted ∧
    Output.Takes m.sink (Text.bytesOf ("Expression provided following words:\n" ++ list))
      printed.next.sink ∧
    Text.filledLines list = words ∧
    counted.answer = .accepted ∧
    Output.Takes m.sink
      (Text.bytesOf ("Expression provided n=" ++ String.ofList (Nat.toDigits 10 count) ++ " words:\n"))
      counted.next.sink := by
  intro printed counted words list count
  have hfilled : Text.filledLines list = words := Text.filledLines_wordList value
  have hcount : count = words.length := congrArg List.length hfilled
  have hlist : "\n".intercalate words ++ "\n" = list := Text.intercalate_lineFeed words
  have hprint : String.join ((rendering value .words).map (· ++ "\n")) =
      "Expression provided following words:\n" ++ list := by
    rw [← hlist, rendering, List.map_cons, List.map_singleton, String.join_cons, String.join_cons,
      String.join_nil, String.append_empty]
    rfl
  have hnumber : String.join ((rendering value .wordCount).map (· ++ "\n")) =
      "Expression provided n=" ++ String.ofList (Nat.toDigits 10 count) ++ " words:\n" := by
    rw [hcount, rendering, List.map_singleton, String.join_cons, String.join_nil, String.append_empty,
      String.append_assoc]
    rfl
  obtain ⟨hprinted, htaken⟩ := execute_print_takes h he .words span (words_not_ended value)
  obtain ⟨hcounted, htaken'⟩ := execute_print_takes h he .wordCount span' (wordCount_not_ended value)
  rw [hprint] at htaken
  rw [hnumber] at htaken'
  exact ⟨hprinted, htaken, hfilled, hcounted, htaken'⟩

/-- Breaks of every kind stand between words and a word holds none, and a value of breaks only makes an empty
line. -/
theorem printed_words_are_counted_between_breaks :
    let m : Machine := .start .off {}
    let value := "\n\none,\r\ntwo.5\u2028\u00e9t\u00e9\n"
    let e : Expression := [.literal value ⟨11, 30⟩]
    let breaks : Expression := [.symbol "NEWLINE" ⟨11, 18⟩]
    Output.Willing m.sink ∧ evaluate m.symbols e = .ok value ∧ evaluate m.symbols breaks = .ok "\n" ∧
    Text.words value = ["one", "two.5", "\u00e9t\u00e9"] ∧ Text.words "\n" = [] ∧
    (m.execute ⟨.print .words e, ⟨0, 31⟩⟩).next.sink.written =
      Text.bytesOf "Expression provided following words:\none\ntwo.5\n\u00e9t\u00e9\n" ∧
    (m.execute ⟨.print .wordCount e, ⟨0, 31⟩⟩).next.sink.written =
      Text.bytesOf "Expression provided n=3 words:\n" ∧
    (m.execute ⟨.print .words breaks, ⟨0, 19⟩⟩).next.sink.written =
      Text.bytesOf "Expression provided following words:\n\n" := by
  intro m value e breaks
  have hw : Output.Willing m.sink := Sink.willing rfl
  have he : evaluate m.symbols e = .ok value := by decide
  have hbreaks : evaluate m.symbols breaks = .ok "\n" := by decide
  have hwords : Text.words value = ["one", "two.5", "\u00e9t\u00e9"] := by decide +kernel
  have hnone : Text.words "\n" = [] := by decide +kernel
  obtain ⟨-, hprinted, hfilled, -, hcounted⟩ := printed_words_are_counted hw he ⟨0, 31⟩ ⟨0, 31⟩
  obtain ⟨-, hbroken, -⟩ := printed_words_are_counted hw hbreaks ⟨0, 19⟩ ⟨0, 19⟩
  rw [hfilled] at hcounted
  rw [hwords] at hprinted hcounted
  rw [hnone] at hbroken
  exact ⟨hw, he, hbreaks, hwords, hnone, Sink.written_of_takes hprinted, Sink.written_of_takes hcounted,
    Sink.written_of_takes hbroken⟩

end Machine
end StringProcessor
