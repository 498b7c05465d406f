import StringProcessor.Text.Blank
import StringProcessor.Text.WordChar

/-! Words: the maximal runs of word characters of a text, and a text with their order reversed. -/
namespace StringProcessor.Text

/-- What words are made of and what is white space, as the patterns for words have it. No character is both,
and a space is white space. -/
structure WordClass where
  word : Char → Bool
  blank : Char → Bool
  apart : ∀ c, blank c → word c = false
  space : blank ' '

private theorem blank_not_wordChar {c : Char} (h : isBlank c) : isWordChar c = false := by
  have hblank : ∀ range ∈ blankRanges, ∀ n ∈ List.range' range.1 (range.2 + 1 - range.1),
      n ≠ '.'.toNat ∧ inRanges letterRanges n = false := by decide +kernel
  obtain ⟨range, hm, hfirst, hlast⟩ := inRanges_mem h
  obtain ⟨hdot, hletter⟩ := hblank range hm c.toNat (by simp; omega)
  have hc : c ≠ '.' := fun hc => hdot (congrArg Char.toNat hc)
  simp [isWordChar, hc, hletter]

def WordClass.unicode : WordClass := ⟨isWordChar, isBlank, fun _ => blank_not_wordChar, by decide⟩

/-- A word together with the characters between it and the next word, or the end of the text. -/
structure Segment where
  word : List Char
  gap : List Char
  deriving DecidableEq

/-- The characters before the first word, which belong to no segment, and the segments. -/
structure Segmentation where
  lead : List Char
  segments : List Segment
  deriving DecidableEq

section
variable (k : WordClass)

/-- Puts one character in front. A word character prolongs the first word when no gap separates
the two, and is a word of its own otherwise. -/
def Segmentation.push (c : Char) (s : Segmentation) : Segmentation :=
  if k.word c then
    match s.lead, s.segments with
    | [], first :: others => ⟨[], ⟨c :: first.word, first.gap⟩ :: others⟩
    | lead, segments => ⟨[], ⟨[c], lead⟩ :: segments⟩
  else ⟨c :: s.lead, s.segments⟩

def segmentation (text : List Char) : Segmentation :=
  text.foldr (Segmentation.push k) ⟨[], []⟩

def wordsOf (text : List Char) : List (List Char) :=
  (segmentation k text).segments.map (·.word)

/-- The white space directly behind the word, or one space if there is none. -/
def Segment.spacing (s : Segment) : List Char :=
  match s.gap.takeWhile k.blank with
  | [] => [' ']
  | blanks => blanks

def Segment.spaced (s : Segment) : List Char := s.word ++ s.spacing k

/-- The words in reverse order, each with its spacing. All other characters are dropped. -/
def reversedWords (text : List Char) : List Char :=
  (segmentation k text).segments.reverse.flatMap (Segment.spaced k)

end

def words (value : String) (k : WordClass := .unicode) : List String :=
  (wordsOf k value.toList).map String.ofList

def reverseWords (value : String) (k : WordClass := .unicode) : String :=
  String.ofList (reversedWords k value.toList)

end StringProcessor.Text
