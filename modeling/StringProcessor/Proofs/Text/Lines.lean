import StringProcessor.Text.Bytes
import StringProcessor.Text.Lines

/-! Lines of texts. The console finds the lines of a script in its bytes, unless a line ends in more carriage
returns than a script drops. -/
namespace StringProcessor.Text

/-- A text is empty, or one line without a line feed, or a line with its line feed and a text. -/
private theorem line_induction {p : List Char → Prop} (nil : p [])
    (last : ∀ line, line ≠ [] → '\n' ∉ line → p line)
    (line : ∀ line rest, '\n' ∉ line → p rest → p (line ++ '\n' :: rest)) (text : List Char) :
    p text := by
  by_cases hfeed : '\n' ∈ text
  · obtain ⟨front, rest, rfl, hfront⟩ := List.eq_append_cons_of_mem hfeed
    exact line front rest hfront (line_induction nil last line rest)
  · by_cases hne : text = []
    · exact hne ▸ nil
    · exact last text hne hfeed
termination_by text.length
decreasing_by subst_vars; simp; omega

section
variable {line rest : List Char}

private theorem foldr_pushToLines (h : '\n' ∉ line) (part : List Char) (parts : List (List Char)) :
    line.foldr pushToLines (part :: parts) = (line ++ part) :: parts := by
  induction line with
  | nil => rfl
  | cons c line ih =>
    obtain ⟨hc, hline⟩ : '\n' ≠ c ∧ '\n' ∉ line := by simpa using h
    rw [List.foldr_cons, ih hline, pushToLines, if_neg (by simpa using Ne.symm hc)]
    rfl

theorem betweenLineFeeds_ne_nil (text : List Char) : betweenLineFeeds text ≠ [] := by
  cases text with
  | nil => exact List.cons_ne_nil _ _
  | cons c text =>
    rw [betweenLineFeeds, List.foldr_cons]
    unfold pushToLines
    split
    · exact List.cons_ne_nil _ _
    · split <;> exact List.cons_ne_nil _ _

private theorem betweenLineFeeds_last (h : '\n' ∉ line) : betweenLineFeeds line = [line] := by
  rw [betweenLineFeeds, foldr_pushToLines h, List.append_nil]

private theorem betweenLineFeeds_line (h : '\n' ∉ line) :
    betweenLineFeeds (line ++ '\n' :: rest) = line :: betweenLineFeeds rest := by
  have hpush : pushToLines '\n' (betweenLineFeeds rest) = [] :: betweenLineFeeds rest := rfl
  rw [betweenLineFeeds, List.foldr_append, List.foldr_cons, ← betweenLineFeeds, hpush,
    foldr_pushToLines h, List.append_nil]

private theorem scriptLines_last (hne : line ≠ []) (h : '\n' ∉ line) : scriptLines line = [line] := by
  simp [scriptLines, betweenLineFeeds_last h, hne]

private theorem scriptLines_line (h : '\n' ∉ line) :
    scriptLines (line ++ '\n' :: rest) = dropReturn line :: scriptLines rest := by
  obtain ⟨part, parts, hparts⟩ := List.exists_cons_of_ne_nil (betweenLineFeeds_ne_nil rest)
  simp [scriptLines, betweenLineFeeds_line h, hparts]

end

/-- Nothing is left of a line when the next begins: the text is empty or ends in a line feed. -/
def LineEnded (text : List Char) : Prop := text = [] ∨ text.getLast? = some '\n'

/-- The lines of a text that is continued at the start of a line go on with those behind. -/
theorem scriptLines_append {text : List Char} (h : LineEnded text) (rest : List Char) :
    scriptLines (text ++ rest) = scriptLines text ++ scriptLines rest := by
  induction text using line_induction with
  | nil => rfl
  | last line hne hfeed =>
    have hlast := List.mem_of_getLast? (h.resolve_left hne)
    exact absurd hlast hfeed
  | line line text hline ih =>
    have htext : LineEnded text := by
      cases text with
      | nil => exact .inl rfl
      | cons c text => exact .inr (by simpa [LineEnded] using h)
    rw [List.append_assoc, List.cons_append, scriptLines_line hline, scriptLines_line hline, ih htext]
    rfl

/-- Before a line feed there is one carriage return at most, and at the end of the text, where no line
feed follows, there is none. -/
def SingleReturns (text : List Char) : Prop :=
  ¬ ['\r', '\r', '\n'] <:+: text ∧ text.getLast? ≠ some '\r'

instance (text : List Char) : Decidable (SingleReturns text) :=
  inferInstanceAs (Decidable (_ ∧ _))

section
variable {line rest : List Char}

private theorem trimLineEnd_concat {c : Char} (h : c = '\n' ∨ c = '\r') :
    trimLineEnd (line ++ [c]) = trimLineEnd line := by
  have hc : (c == '\n' || c == '\r') = true := by simpa using h
  rw [trimLineEnd, List.reverse_concat, List.dropWhile_cons, if_pos hc, trimLineEnd]

private theorem trimLineEnd_self (hfeed : '\n' ∉ line) (hreturn : line.getLast? ≠ some '\r') :
    trimLineEnd line = line := by
  rcases List.eq_nil_or_concat line with rfl | ⟨front, c, hconcat⟩
  · rfl
  · rw [List.concat_eq_append] at hconcat
    subst hconcat
    have hc : ¬ (c == '\n' || c == '\r') = true := by
      have hn : '\n' ≠ c := by simp_all
      have hr : c ≠ '\r' := by simp_all
      simp [hn.symm, hr]
    rw [trimLineEnd, List.reverse_concat, List.dropWhile_cons, if_neg hc, List.reverse_cons,
      List.reverse_reverse]

private theorem trimLineEnd_line (hfeed : '\n' ∉ line) (h : SingleReturns (line ++ '\n' :: rest)) :
    trimLineEnd (line ++ ['\n']) = dropReturn line := by
  rw [trimLineEnd_concat (.inl rfl), dropReturn]
  split
  · rename_i hr
    obtain ⟨front, rfl⟩ := List.getLast?_eq_some_iff.mp (by simpa using hr)
    rw [trimLineEnd_concat (.inr rfl), List.dropLast_concat]
    refine trimLineEnd_self (by simp_all) fun hlast => h.1 ?_
    obtain ⟨front, rfl⟩ := List.getLast?_eq_some_iff.mp hlast
    exact ⟨front, rest, by simp⟩
  · rename_i hr
    exact trimLineEnd_self hfeed (by simpa using hr)

theorem SingleReturns.behind (h : SingleReturns (line ++ '\n' :: rest)) : SingleReturns rest := by
  refine ⟨fun hi => h.1 (hi.trans ⟨line ++ ['\n'], [], by simp⟩), ?_⟩
  cases rest with
  | nil => simp
  | cons c rest => simpa using h.2

end

/-- The text of a line of console input, without its end. There is none if the bytes are not UTF-8. -/
def heard (line : List UInt8) : Option String :=
  (ofBytes? line).map fun text => String.ofList (trimLineEnd text.toList)

private theorem bytesOf_ofList (text : List Char) :
    bytesOf (String.ofList text) = text.flatMap String.utf8EncodeChar := by
  simp [bytesOf, List.utf8Encode]

private theorem ofBytes?_bytesOf (s : String) : ofBytes? (bytesOf s) = some s := by
  have hs : (⟨(bytesOf s).toArray⟩ : ByteArray) = s.toByteArray := by simp [bytesOf]
  rw [ofBytes?, hs, String.fromUTF8?, dif_pos s.isValidUTF8]
  rfl

private theorem heard_bytesOf (text : List Char) :
    heard (bytesOf (String.ofList text)) = some (String.ofList (trimLineEnd text)) := by
  rw [heard, ofBytes?_bytesOf, Option.map_some, String.toList_ofList]

/-- The byte of the line feed is no part of any other character. -/
private theorem lineFeed_not_mem_encode {c : Char} (h : c ≠ '\n') :
    (10 : UInt8) ∉ String.utf8EncodeChar c := by
  have hc : c.val.toNat ≠ 10 := fun hn => h (Char.ext (UInt32.toNat_inj.mp hn))
  have hb {n : Nat} (hn : n < 256) (hn' : n ≠ 10) : (10 : UInt8) ≠ UInt8.ofNat n := fun he => by
    have hv := congrArg UInt8.toNat he
    rw [UInt8.toNat_ofNat_of_lt' hn] at hv
    exact hn' hv.symm
  simp only [String.utf8EncodeChar]
  repeat' split
  all_goals simp only [List.mem_cons, List.not_mem_nil, or_false, not_or]
  · exact hb (by omega) hc
  · exact ⟨hb (by omega) (by omega), hb (by omega) (by omega)⟩
  · exact ⟨hb (by omega) (by omega), hb (by omega) (by omega), hb (by omega) (by omega)⟩
  · exact ⟨hb (by omega) (by omega), hb (by omega) (by omega), hb (by omega) (by omega),
      hb (by omega) (by omega)⟩

section
variable {bytes rest : List UInt8}

private theorem foldr_pushToConsoleLines (h : 10 ∉ bytes) (line : List UInt8)
    (lines : List (List UInt8)) :
    bytes.foldr pushToConsoleLines (line :: lines) = (bytes ++ line) :: lines := by
  induction bytes with
  | nil => rfl
  | cons b bytes ih =>
    obtain ⟨hb, hbytes⟩ : 10 ≠ b ∧ 10 ∉ bytes := by simpa using h
    rw [List.foldr_cons, ih hbytes, pushToConsoleLines, if_neg (by simpa using Ne.symm hb)]
    rfl

private theorem consoleLines_last (hne : bytes ≠ []) (h : 10 ∉ bytes) : consoleLines bytes = [bytes] := by
  obtain ⟨front, b, hconcat⟩ := (List.eq_nil_or_concat bytes).resolve_left hne
  rw [List.concat_eq_append] at hconcat
  subst hconcat
  have hfront : 10 ∉ front := by simp_all
  rw [consoleLines, List.foldr_append, List.foldr_cons, List.foldr_nil, pushToConsoleLines,
    foldr_pushToConsoleLines hfront]

private theorem consoleLines_line (h : 10 ∉ bytes) :
    consoleLines (bytes ++ 10 :: rest) = (bytes ++ [10]) :: consoleLines rest := by
  have hpush : pushToConsoleLines 10 (consoleLines rest) = [10] :: consoleLines rest := by
    cases consoleLines rest <;> rfl
  rw [consoleLines, List.foldr_append, List.foldr_cons, ← consoleLines, hpush,
    foldr_pushToConsoleLines h]

end

/-- The console hears the lines of a script. -/
theorem heard_consoleLines {text : List Char} (h : SingleReturns text) :
    (consoleLines (bytesOf (String.ofList text))).map heard =
      (scriptLines text).map fun line => some (String.ofList line) := by
  have hbytes {line : List Char} (hfeed : '\n' ∉ line) :
      10 ∉ line.flatMap String.utf8EncodeChar := by
    rw [List.mem_flatMap]
    rintro ⟨c, hc, hm⟩
    exact lineFeed_not_mem_encode (fun he => hfeed (he ▸ hc)) hm
  have hend : String.utf8EncodeChar '\n' = [10] := by decide
  induction text using line_induction with
  | nil => rfl
  | last line hne hfeed =>
    have hne' : line.flatMap String.utf8EncodeChar ≠ [] := by
      obtain ⟨c, line, rfl⟩ := List.exists_cons_of_ne_nil hne
      simp [String.utf8EncodeChar_ne_nil]
    rw [bytesOf_ofList, consoleLines_last hne' (hbytes hfeed), scriptLines_last hne hfeed,
      ← bytesOf_ofList, List.map_singleton, heard_bytesOf, trimLineEnd_self hfeed h.2]
    rfl
  | line line rest hfeed ih =>
    have hline : line.flatMap String.utf8EncodeChar ++ [10] =
        bytesOf (String.ofList (line ++ ['\n'])) := by
      rw [bytesOf_ofList, List.flatMap_append, List.flatMap_singleton, hend]
    rw [bytesOf_ofList, List.flatMap_append, List.flatMap_cons, hend, List.singleton_append,
      consoleLines_line (hbytes hfeed), hline, ← bytesOf_ofList, List.map_cons, heard_bytesOf,
      trimLineEnd_line hfeed h, ih h.behind, scriptLines_line hfeed]
    rfl

end StringProcessor.Text
