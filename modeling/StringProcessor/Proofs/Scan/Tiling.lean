import StringProcessor.Proofs.Scan.Position

/-! What tokens stand for. The tokens that a scan has made tile the text that it has read: each of them
spans the characters that it stands for, and between them there are only blanks. -/
namespace StringProcessor

def Span.Holds (span : Span) (i : Nat) : Prop := span.start ≤ i ∧ i < span.stop

def Span.cut (span : Span) (text : List Char) : List Char :=
  (text.drop span.start).take (span.stop - span.start)

namespace Scan

/-- The token stands for these characters: they are its own text or, of a string, begin and end with
a quote. -/
inductive Spells (span : Span) : List Char → Token → Prop
  | terminator : Spells span [';'] ⟨.terminator, ";", span⟩
  | operator : Spells span ['+'] ⟨.operator, "+", span⟩
  | word {letters : List Char} : letters ≠ [] →
      Spells span letters (wordToken (String.ofList letters) span)
  | literal {quote : Char} {body : List Char} {value : String} : isQuote quote →
      Spells span (quote :: (body ++ [quote])) ⟨.string, value, span⟩

/-- The text is made of blanks and of these tokens, latest first. -/
inductive Tiled : List Char → List Token → Prop
  | nil : Tiled [] []
  | blank {text : List Char} {c : Char} {ts : List Token} : Text.isBlank c → Tiled text ts →
      Tiled (text ++ [c]) ts
  | token {text piece : List Char} {t : Token} {ts : List Token} :
      Spells ⟨text.length, (text ++ piece).length⟩ piece t → Tiled text ts →
      Tiled (text ++ piece) (t :: ts)

/-- The text is tiled up to what is being read. -/
inductive Reading : List Char → Mode → List Token → Prop
  | between {text : List Char} {ts : List Token} : Tiled text ts → Reading text .between ts
  | word {text letters : List Char} {ts : List Token} : letters ≠ [] → Tiled text ts →
      Reading (text ++ letters.reverse) (.word text.length letters) ts
  | literal {text body : List Char} {l : OpenLiteral} {ts : List Token} : isQuote l.delimiter →
      l.start = text.length → Tiled text ts → Reading (text ++ l.delimiter :: body) (.literal l) ts

/-- No token starts with the character, and no blank is it. -/
structure Illegal (c : Char) : Prop where
  not_blank : ¬ Text.isBlank c
  not_quote : ¬ isQuote c
  not_terminator : c ≠ ';'
  not_operator : c ≠ '+'
  not_letter : ¬ c.isAlpha

/-- What has become of the characters behind a text: they have been read, or one of them is illegal
and the scan has stopped in front of it. -/
inductive Passed (text cs : List Char) (p : Nat) (m : Mode) (ts : List Token) : Prop
  | whole : Reading (text ++ cs) m ts → p = (text ++ cs).length → Passed text cs p m ts
  | stopped {before after : List Char} {c : Char} : cs = before ++ c :: after → Illegal c →
      m = .stuck c → p = (text ++ before).length → Passed text cs p m ts

theorem Spells.ne_nil {span : Span} {piece : List Char} {t : Token} (h : Spells span piece t) :
    piece ≠ [] := by
  cases h with
  | word hl => exact hl
  | _ => simp

theorem Spells.span_eq {span : Span} {piece : List Char} {t : Token} (h : Spells span piece t) :
    t.span = span := by
  cases h <;> rfl

/-- A string apart, a token's text is what it stands for. -/
theorem Spells.text {span : Span} {piece : List Char} {t : Token} (h : Spells span piece t)
    (hk : t.kind ≠ .string) : t.text.toList = piece := by
  cases h with
  | terminator => exact String.toList_ofList
  | operator => exact String.toList_ofList
  | word => exact String.toList_ofList
  | literal => exact absurd rfl hk

theorem Spells.terminator_text {span : Span} {piece : List Char} {t : Token}
    (h : Spells span piece t) (hk : t.kind = .terminator) : t.text = ";" := by
  cases h with
  | terminator => rfl
  | operator | literal => cases hk
  | word => rcases wordToken_kind (String.ofList piece) span with h | h <;> simp [h] at hk

/-- A string stands for a text in quotes of one kind. -/
theorem Spells.quoted {span : Span} {piece : List Char} {t : Token} (h : Spells span piece t)
    (hk : t.kind = .string) : ∃ quote body, isQuote quote ∧ piece = quote :: (body ++ [quote]) := by
  cases h with
  | terminator | operator => cases hk
  | word => rcases wordToken_kind (String.ofList piece) span with h | h <;> simp [h] at hk
  | literal hq => exact ⟨_, _, hq, rfl⟩

section
variable {text : List Char} {c : Char} {p' : Nat} {m m' : Mode} {ts ts' : List Token}

theorem Tiled.starts (h : Tiled text ts) (hs : Starts c text.length ts p' m ts') :
    Passed text [c] p' m ts' := by
  have hl : (text ++ [c]).length = text.length + 1 := by simp
  cases hs with
  | blank hb => exact .whole (.between (h.blank hb)) hl.symm
  | quote hq => exact .whole (.literal (l := ⟨c, text.length, false, []⟩) hq rfl h) hl.symm
  | terminator hc =>
    subst hc
    refine .whole (.between (.token ?_ h)) hl.symm
    rw [hl]
    exact .terminator
  | operator hc =>
    subst hc
    refine .whole (.between (.token ?_ h)) hl.symm
    rw [hl]
    exact .operator
  | letter =>
    have hw : Reading (text ++ [c].reverse) (.word text.length [c]) ts := .word (by simp) h
    exact .whole hw hl.symm
  | illegal hb hq ht ho ha =>
    exact .stopped (List.nil_append _).symm ⟨hb, hq, ht, ho, ha⟩ rfl (by simp)

theorem Tiled.word {letters : List Char} (h : Tiled text ts) (hl : letters ≠ []) :
    Tiled (text ++ letters.reverse)
      (wordToken (String.ofList letters.reverse) ⟨text.length, (text ++ letters.reverse).length⟩ ::
        ts) :=
  .token (.word (by simpa using hl)) h

theorem Tiled.literal {body : List Char} {l : OpenLiteral} (h : Tiled text ts)
    (hq : isQuote l.delimiter) (hl : l.start = text.length) :
    Tiled (text ++ l.delimiter :: body ++ [l.delimiter])
      (⟨.string, l.text, ⟨l.start, (text ++ l.delimiter :: body).length + 1⟩⟩ :: ts) := by
  have hs : text ++ l.delimiter :: body ++ [l.delimiter] =
      text ++ l.delimiter :: (body ++ [l.delimiter]) := by simp
  have hp : (text ++ l.delimiter :: body).length + 1 =
      (text ++ l.delimiter :: (body ++ [l.delimiter])).length := by
    simp only [List.length_append, List.length_cons, List.length_nil]
    omega
  rw [hs, hp, hl]
  exact .token (.literal hq) h

/-- An open literal goes on with any character, whatever becomes of its value. -/
theorem Reading.more {l l' : OpenLiteral} (h : Reading text (.literal l) ts) (c : Char)
    (hd : l'.delimiter = l.delimiter) (hs : l'.start = l.start) :
    Reading (text ++ [c]) (.literal l') ts := by
  obtain _ | _ | ⟨hq, hl, ht⟩ := h
  rw [List.append_assoc, List.cons_append, ← hd]
  exact .literal (hd ▸ hq) (hs.trans hl) ht

/-- An open literal stands behind the tokens, from its opening quote on. -/
theorem Reading.opened {l : OpenLiteral} (h : Reading text (.literal l) ts) :
    isQuote l.delimiter ∧ text[l.start]? = some l.delimiter ∧ Tiled (text.take l.start) ts := by
  obtain _ | _ | ⟨hq, hl, ht⟩ := h
  rw [hl, List.take_left]
  exact ⟨hq, by simp, ht⟩

/-- What is tiled stays so with one more character. -/
theorem Reading.reads (h : Reading text m ts) (hr : Reads c text.length m ts p' m' ts') :
    Passed text [c] p' m' ts' := by
  have hp : text.length + 1 = (text ++ [c]).length := by simp
  cases hr with
  | starts hs =>
    obtain ⟨ht⟩ := h
    exact ht.starts hs
  | goesOn =>
    obtain _ | ⟨hl, ht⟩ := h
    refine .whole ?_ hp
    rw [List.append_assoc, ← List.reverse_cons]
    exact .word (by simp) ht
  | ends _ hs =>
    obtain _ | ⟨hl, ht⟩ := h
    exact (ht.word hl).starts hs
  | escaped => exact .whole (h.more c rfl rfl) hp
  | backslash => exact .whole (h.more c rfl rfl) hp
  | plain => exact .whole (h.more c rfl rfl) hp
  | closes _ hc =>
    subst hc
    obtain _ | _ | ⟨hq, hl, ht⟩ := h
    exact .whole (.between (ht.literal hq hl)) hp
  | stuck => cases h

theorem Reading.run {s : Scan} (h : Reading text s.mode s.tokens) (hp : s.position = text.length)
    (cs : List Char) :
    let s' := cs.foldl step s
    Passed text cs s'.position s'.mode s'.tokens := by
  induction cs generalizing s text with
  | nil => exact .whole (by simpa using h) (by simpa using hp)
  | cons c cs ih =>
    have hr := step_reads s c
    rw [hp] at hr
    cases h.reads hr with
    | whole hc hpc =>
      cases ih hc hpc with
      | whole hcs hpcs => exact .whole (by simpa using hcs) (by simpa using hpcs)
      | stopped he hi hm hps =>
        exact .stopped (by rw [he, List.cons_append]) hi hm (by simpa using hps)
    | @stopped before after c' he hi hm hps =>
      have hs : c :: cs = before ++ c' :: (after ++ cs) := by
        rw [← List.singleton_append, he, List.append_assoc, List.cons_append]
      rw [List.foldl_cons, run_stuck hm]
      exact .stopped hs hi hm hps

end

theorem cut_append {span : Span} {text : List Char} (h : span.stop ≤ text.length)
    (more : List Char) : span.cut (text ++ more) = span.cut text := by
  unfold Span.cut
  rcases Nat.le_total span.start text.length with hs | hs
  · rw [List.drop_append_of_le_length hs, List.take_append_of_le_length]
    rw [List.length_drop]
    omega
  · have hn : span.stop - span.start = 0 := by omega
    rw [hn, List.take_zero, List.take_zero]

theorem cut_behind (text piece : List Char) :
    (⟨text.length, (text ++ piece).length⟩ : Span).cut (text ++ piece) = piece := by
  simp [Span.cut]

/-- Two spans side by side are one. -/
theorem cut_join (text : List Char) {a b c : Nat} (hab : a ≤ b) (hbc : b ≤ c) :
    (⟨a, c⟩ : Span).cut text = (⟨a, b⟩ : Span).cut text ++ (⟨b, c⟩ : Span).cut text := by
  have hc : c - a = b - a + (c - b) := by omega
  have hb : a + (b - a) = b := by omega
  simp only [Span.cut]
  rw [hc, List.take_add, List.drop_drop, hb]

namespace Tiled
variable {text : List Char} {ts : List Token}

/-- A token spans what it stands for. -/
theorem spells (h : Tiled text ts) {t : Token} (ht : t ∈ ts) :
    Spells t.span (t.span.cut text) t ∧ t.span.start < t.span.stop ∧ t.span.stop ≤ text.length := by
  induction h with
  | nil => cases ht
  | @blank text c ts _ _ ih =>
    obtain ⟨hs, hlt, hle⟩ := ih ht
    rw [cut_append hle, List.length_append]
    exact ⟨hs, hlt, by omega⟩
  | @token text piece u ts hu _ ih =>
    rcases List.mem_cons.mp ht with rfl | ht
    · have hp := List.length_pos_iff.mpr hu.ne_nil
      rw [hu.span_eq, cut_behind]
      refine ⟨hu, ?_, Nat.le_refl _⟩
      simp only [List.length_append]
      omega
    · obtain ⟨hs, hlt, hle⟩ := ih ht
      rw [cut_append hle, List.length_append]
      exact ⟨hs, hlt, by omega⟩

theorem cut_eq_text (h : Tiled text ts) {t : Token} (ht : t ∈ ts) (hk : t.kind ≠ .string) :
    t.span.cut text = t.text.toList :=
  ((h.spells ht).1.text hk).symm

/-- Tokens stand one behind the other. -/
theorem ordered (h : Tiled text ts) :
    ts.Pairwise fun later earlier => earlier.span.stop ≤ later.span.start := by
  induction h with
  | nil => exact .nil
  | blank _ _ ih => exact ih
  | token hu ht ih =>
    refine .cons (fun t hm => ?_) ih
    rw [hu.span_eq]
    exact (ht.spells hm).2.2

/-- What no token spans is blank. -/
theorem blank_outside (h : Tiled text ts) {i : Nat} {c : Char} (hc : text[i]? = some c)
    (ho : ∀ t ∈ ts, ¬ t.span.Holds i) : Text.isBlank c := by
  induction h with
  | nil => cases hc
  | @blank text b ts hb _ ih =>
    rcases Nat.lt_or_ge i text.length with hi | hi
    · rw [List.getElem?_append_left hi] at hc
      exact ih hc ho
    · rw [List.getElem?_append_right hi] at hc
      obtain rfl := List.mem_singleton.mp (List.mem_of_getElem? hc)
      exact hb
  | @token text piece t ts hu _ ih =>
    obtain ⟨ht, hts⟩ := List.forall_mem_cons.mp ho
    rcases Nat.lt_or_ge i text.length with hi | hi
    · rw [List.getElem?_append_left hi] at hc
      exact ih hc hts
    · obtain ⟨hlt, -⟩ := List.getElem?_eq_some_iff.mp hc
      rw [hu.span_eq] at ht
      exact absurd ⟨hi, hlt⟩ ht

end Tiled

end Scan
end StringProcessor
