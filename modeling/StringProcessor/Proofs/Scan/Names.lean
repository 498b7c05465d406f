import StringProcessor.Proofs.Scan.Dissected
import StringProcessor.Proofs.Writing

/-! Names in scans. A token of the name kind is a word that is no keyword, whatever lines it comes from. -/
namespace StringProcessor
open Writing

namespace Scan

def NamesIn (ts : List Token) : Prop := ∀ t ∈ ts, t.kind = .name → IsName t.text

/-- A letter, and name characters behind it. -/
def Word (cs : List Char) : Prop :=
  ∃ first others, cs = first :: others ∧ first.isAlpha ∧ ∀ c ∈ others, isNameChar c

/-- What is being read is a word if it is read as one. -/
def Begun : Mode → Prop
  | .word _ letters => Word letters.reverse
  | _ => True

private theorem Word.isName {cs : List Char} (h : Word cs) {span : Span}
    (hk : (wordToken (String.ofList cs) span).kind = .name) : IsName (String.ofList cs) := by
  obtain ⟨first, others, rfl, hf, ho⟩ := h
  refine ⟨⟨first, others, String.toList_ofList, hf, ho⟩, fun hm => ?_⟩
  rw [wordToken, if_pos ((ofWord?_isSome_iff _).mpr hm)] at hk
  cases hk

theorem Word.more {letters : List Char} {c : Char} (h : Word letters.reverse) (hc : isNameChar c) :
    Word (c :: letters).reverse := by
  obtain ⟨first, others, he, hf, ho⟩ := h
  refine ⟨first, others ++ [c], by simp [he], hf, fun d hd => ?_⟩
  rcases List.mem_append.mp hd with hd | hd
  · exact ho d hd
  · rwa [List.mem_singleton.mp hd]

section
variable {c : Char} {p p' : Nat} {m m' : Mode} {ts ts' : List Token}

theorem NamesIn.cons {t : Token} (h : NamesIn ts) (ht : t.kind = .name → IsName t.text) :
    NamesIn (t :: ts) :=
  List.forall_mem_cons.mpr ⟨ht, h⟩

theorem NamesIn.word {letters : List Char} {span : Span} (h : NamesIn ts)
    (hw : Word letters.reverse) :
    NamesIn (wordToken (String.ofList letters.reverse) span :: ts) :=
  h.cons hw.isName

theorem NamesIn.starts (h : NamesIn ts) (hs : Starts c p ts p' m ts') : Begun m ∧ NamesIn ts' := by
  cases hs with
  | terminator | operator => exact ⟨trivial, h.cons fun hk => (nomatch hk)⟩
  | letter hc => exact ⟨⟨c, [], rfl, hc, by simp⟩, h⟩
  | blank | quote | illegal => exact ⟨trivial, h⟩

/-- With one more character tokens of the name kind are still names. -/
theorem NamesIn.reads (h : NamesIn ts) (hm : Begun m) (hr : Reads c p m ts p' m' ts') :
    Begun m' ∧ NamesIn ts' := by
  cases hr with
  | starts hs => exact h.starts hs
  | goesOn hc => exact ⟨Word.more hm hc, h⟩
  | ends _ hs => exact (h.word hm).starts hs
  | closes => exact ⟨trivial, h.cons fun hk => (nomatch hk)⟩
  | escaped | backslash | plain | stuck => exact ⟨trivial, h⟩

theorem NamesIn.line {s : Scan} (h : NamesIn s.tokens) (hm : Begun s.mode) (cs : List Char) :
    NamesIn (s.line cs).tokens := by
  have hrun : Begun (cs.foldl step s).mode ∧ NamesIn (cs.foldl step s).tokens := by
    induction cs generalizing s with
    | nil => exact ⟨hm, h⟩
    | cons c cs ih =>
      obtain ⟨hm', h'⟩ := h.reads hm (step_reads s c)
      exact ih h' hm'
  rw [Scan.line]
  generalize cs.foldl step s = t at hrun
  obtain ⟨hm, h⟩ := hrun
  cases ha : t.activity with
  | word letters =>
    have hmode := mode_eq_word_iff.mpr ⟨ha, rfl⟩
    rw [hmode] at hm
    rw [(endWord_of_word hmode).tokens]
    exact h.word hm
  | _ => simpa only [endWord, ha] using h

end
end Scan

/-- Names are all that a batch holds back under the name kind. -/
def Batch.Named (b : Batch) : Prop := ∀ held ∈ b.held, Scan.NamesIn held.tokens

/-- The names that a line gives out are names, and so are those that are held back behind it. -/
theorem Batch.Named.feed {b : Batch} (h : b.Named) (line : String) :
    (∀ tokens, (b.feed line).answer = .ok tokens → Scan.NamesIn tokens) ∧
      (b.feed line).next.Named := by
  have hentry : Scan.NamesIn b.entry.tokens ∧ Scan.Begun b.entry.mode := by
    cases hh : b.held with
    | none =>
      have he := entry_of_not_pending (held_eq_none_iff.mp hh)
      rw [he.tokens, he.mode]
      exact ⟨by simp [Scan.NamesIn], trivial⟩
    | some held =>
      obtain ⟨-, -, hm, ht⟩ := entry_of_pending hh
      rw [hm, ht]
      exact ⟨h held hh, trivial⟩
  have hline := hentry.1.line hentry.2 line.toList
  obtain ⟨ha, hn⟩ := feed_eq_outcome b line
  rw [Named, ha, hn, Scan.outcome]
  generalize b.entry.line line.toList = s at hline
  cases s.mode with
  | stuck c => constructor <;> rintro _ ⟨⟩
  | literal l =>
    constructor
    · rintro _ ⟨⟩
      simp [Scan.NamesIn]
    · rintro _ ⟨⟩
      exact hline
  | between | word start letters =>
    constructor
    · rintro _ ⟨⟩ t ht
      exact hline t (List.mem_reverse.mp ht)
    · rintro _ ⟨⟩

end StringProcessor
