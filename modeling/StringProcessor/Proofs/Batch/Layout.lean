import StringProcessor.Proofs.Batch.LineBreak
import StringProcessor.Proofs.Batch.Tiling

/-! Sources of several lines. A batch is the lines that were read for it, joined by line feeds; all of it
but blanks is spanned by its tokens and the literal that may be open at its end, and every line feed that
joins two lines stands inside a literal. -/
namespace StringProcessor.Batch
open Scan

/-- Up to a position, the source consists of these tokens, one behind the other, and blanks. -/
structure Laid (source : List Char) (reach : Nat) (tokens : List Token) : Prop where
  placed : ∀ t ∈ tokens, t.span.start < t.span.stop ∧ t.span.stop ≤ reach
  ordered : tokens.Pairwise fun t u => t.span.stop ≤ u.span.start
  blank : ∀ i c, i < reach → source[i]? = some c → (∀ t ∈ tokens, ¬ t.span.Holds i) → Text.isBlank c
  text : ∀ t ∈ tokens, t.kind ≠ .string → t.span.cut source = t.text.toList
  quoted : ∀ t ∈ tokens, t.kind = .string →
    ∃ quote body, isQuote quote ∧ t.span.cut source = quote :: (body ++ [quote])

/-- Where lines are joined: behind some of them, if others follow. -/
def Joint (lines : List String) (q : Nat) : Prop :=
  ∃ front rest, lines = front ++ rest ∧ front ≠ [] ∧ rest ≠ [] ∧
    q = ("\n".intercalate front).length

/-- The position is one of a string token, between its quotes. -/
def InString (tokens : List Token) (q : Nat) : Prop :=
  ∃ t ∈ tokens, t.kind = .string ∧ t.span.start < q ∧ q + 1 < t.span.stop

theorem Laid.of_tiled {source : List Char} {reach : Nat} {tokens : List Token}
    (h : Tiled (source.take reach) tokens.reverse) (hr : reach ≤ source.length) :
    Laid source reach tokens := by
  obtain ⟨front, rest, rfl, rfl⟩ : ∃ front rest, source = front ++ rest ∧ reach = front.length :=
    ⟨_, _, (List.take_append_drop reach source).symm, (List.length_take_of_le hr).symm⟩
  rw [List.take_left] at h
  have hspells {t : Token} (ht : t ∈ tokens) := h.spells (List.mem_reverse.mpr ht)
  have hcut {t : Token} (ht : t ∈ tokens) : t.span.cut (front ++ rest) = t.span.cut front :=
    cut_append (hspells ht).2.2 rest
  refine ⟨fun t ht => (hspells ht).2, List.pairwise_reverse.mp h.ordered, ?_, ?_, ?_⟩
  · intro i c hi hc ho
    rw [List.getElem?_append_left hi] at hc
    exact h.blank_outside hc fun t ht => ho t (List.mem_reverse.mp ht)
  · intro t ht hk
    rw [hcut ht]
    exact h.cut_eq_text (List.mem_reverse.mpr ht) hk
  · intro t ht hk
    rw [hcut ht]
    exact (hspells ht).1.quoted hk

private theorem joint_feed {lines : List String} {q : Nat} (h : Joint lines q) :
    ("\n".intercalate lines).toList[q]? = some '\n' := by
  obtain ⟨front, rest, rfl, hf, hr, rfl⟩ := h
  rw [String.intercalate_append_of_ne_nil hf hr, String.toList_append, String.toList_append,
    ← String.length_toList, List.append_assoc, List.getElem?_append_right (Nat.le_refl _), Nat.sub_self]
  rfl

section
variable {b : Batch} {lines : List String} {line : String}

/-- A line that leaves a literal open is answered without a fault. -/
private theorem keepsOpen_of_pending
    (h : ∀ front, front <+: lines → front ≠ [] → (b.feedAll front).pending = true) :
    b.KeepsOpen lines := by
  rintro front line rest rfl
  have hp : ((b.feedAll front).feed line).next.pending = true := by
    rw [← feedAll_concat]
    exact h _ ⟨rest, by simp⟩ (by simp)
  obtain ⟨-, -, ha, -⟩ := feed_pending hp
  exact ⟨⟨_, ha⟩, hp⟩

private theorem faithful_feedAll (hb : b.pending = false) (lines : List String) :
    (b.feedAll lines).Faithful := by
  induction lines using List.reverseRecOn with
  | nil => exact faithful_of_not_pending hb
  | append_singleton lines line ih =>
    rw [feedAll_concat]
    exact ih.feed line

private theorem source_resume (h : b.pending = true) : b.resume.source = b.source ++ "\n" := by
  obtain ⟨held, hh⟩ := held_of_pending h
  rw [(entry_of_pending hh).1]
  exact String.push_eq_append '\n'

/-- The lines that are read for a batch are joined by line feeds. -/
private theorem source_feedAll (hb : b.pending = false) (h : b.KeepsOpen lines) :
    ((b.feedAll lines).feed line).next.source = "\n".intercalate (lines ++ [line]) := by
  induction lines using List.reverseRecOn generalizing line with
  | nil => simp [source_feed, feedAll, resume_of_not_pending hb]
  | append_singleton lines last ih =>
    have hs := @ih last h.front
    rw [String.intercalate_append_of_ne_nil (by simp) (by simp), String.intercalate_singleton, ← hs,
      source_feed, feedAll_concat, source_resume h.last]

/-- The position behind a line that leaves a literal open lies in the literal. -/
private theorem enclosed_break (hf : b.Faithful) (hp : b.pending = true) :
    Enclosed b.source.length b.entry.position b.entry.mode b.entry.tokens := by
  obtain ⟨held, hh⟩ := held_of_pending hp
  obtain ⟨-, hopened, -⟩ := (hf.reading held hh).opened
  obtain ⟨hstart, -⟩ := List.getElem?_eq_some_iff.mp hopened
  rw [String.length_toList] at hstart
  obtain ⟨-, hl, hm, -⟩ := entry_of_pending hh
  rw [position_entry, hl, hf.counted hp, hm]
  exact .unclosed hstart (Nat.lt_succ_self _)

/-- What is enclosed stays so while further lines leave a literal open. -/
private theorem enclosed_feedAll {q : Nat}
    (hq : Enclosed q b.entry.position b.entry.mode b.entry.tokens) (h : b.KeepsOpen lines) :
    let s := (b.feedAll lines).entry
    Enclosed q s.position s.mode s.tokens := by
  induction lines using List.reverseRecOn with
  | nil => exact hq
  | append_singleton lines line ih =>
    obtain ⟨l, hm, -, hr⟩ := feed_pending h.last
    have he := (ih h.front).run line.toList
    simp only [hm] at he
    simp only [feedAll_concat, hr.position, hr.mode, hr.tokens]
    exact he.later (Nat.le_succ _)

theorem KeepsOpen.append {front rest : List String} (h : b.KeepsOpen (front ++ rest)) :
    b.KeepsOpen front ∧ (b.feedAll front).KeepsOpen rest := by
  refine ⟨fun f l r he => h f l (r ++ rest) (by simp [he]), fun f l r he => ?_⟩
  have hf : (b.feedAll front).feedAll f = b.feedAll (front ++ f) := by simp [feedAll]
  rw [hf]
  exact h (front ++ f) l r (by simp [he])

/-- The literal that was open where two lines are joined is still open, or it is a token now. -/
private theorem joint_enclosed (hb : b.pending = false) (h : b.KeepsOpen lines) {q : Nat}
    (hq : Joint (lines ++ [line]) q) :
    let s := (b.feedAll lines).entry.line line.toList
    Enclosed q s.position s.mode s.tokens := by
  obtain ⟨front, rest, he, hfront, hrest, rfl⟩ := hq
  obtain ⟨rest, line', rfl⟩ := (List.eq_nil_or_concat rest).resolve_left hrest
  obtain ⟨front, last, rfl⟩ := (List.eq_nil_or_concat front).resolve_left hfront
  simp only [List.concat_eq_append] at he ⊢
  rw [← List.append_assoc] at he
  obtain ⟨rfl, -⟩ := List.append_inj' he rfl
  obtain ⟨hf, hr⟩ := h.append
  have hsource : (b.feedAll (front ++ [last])).source = "\n".intercalate (front ++ [last]) := by
    rw [feedAll_concat]
    exact source_feedAll hb hf.front
  have hpending : (b.feedAll (front ++ [last])).pending = true := by
    rw [feedAll_concat]
    exact hf.last
  have hbreak := enclosed_break (faithful_feedAll hb _) hpending
  rw [hsource] at hbreak
  have hall := enclosed_feedAll hbreak hr
  rw [feedAll, feedAll, ← List.foldl_append] at hall
  exact (hall.run line.toList).endWord

/-- What is enclosed is found in a string token of the answer, unless the literal is held back. -/
private theorem enclosed_outcome {s : Scan} {q : Nat} (h : Enclosed q s.position s.mode s.tokens) :
    (∀ tokens, s.outcome.1 = .ok tokens → s.outcome.2 = none → InString tokens q) ∧
      ∀ held, s.outcome.2 = some held → held.literal.start < q ∨ InString held.tokens q := by
  rw [outcome]
  generalize s.mode = m at h
  cases h with
  | unclosed hs hq =>
    constructor
    · intro tokens _ hn
      cases hn
    · rintro _ ⟨⟩
      exact .inl hs
  | closed ht hk hs hq =>
    cases m with
    | between | word start letters =>
      constructor
      · rintro _ ⟨⟩ -
        exact ⟨_, List.mem_reverse.mpr ht, hk, hs, hq⟩
      · intro held hh
        cases hh
    | literal l =>
      constructor
      · intro tokens _ hn
        cases hn
      · rintro _ ⟨⟩
        exact .inr ⟨_, ht, hk, hs, hq⟩
    | stuck c =>
      constructor
      · intro tokens ha
        cases ha
      · intro held hh
        cases hh

end

/-- Of lines that are read for one batch, each but the last leaving a literal open, the source is made by
joining them with line feeds. If the last completes the batch, its tokens span all of the source but
blanks, and every such line feed is inside a string. If it leaves a literal open too, the same is true of
what is in front of the literal, and a line feed may also be inside the literal. -/
theorem feed_lays_out (b : Batch) (hb : b.pending = false) (earlier : List String) (last : String)
    (h : ∀ front, front <+: earlier → front ≠ [] → (b.feedAll front).pending = true) :
    let lines := earlier ++ [last]
    let turn := (b.feedAll earlier).feed last
    let source := turn.next.source.toList
    turn.next.source = "\n".intercalate lines ∧
    (∀ q, Joint lines q → source[q]? = some '\n') ∧
    (∀ tokens, turn.answer = .ok tokens → turn.next.pending = false →
      Laid source source.length tokens ∧ ∀ q, Joint lines q → InString tokens q) ∧
    ∀ held, turn.next.held = some held →
      Laid source held.literal.start held.tokens.reverse ∧
      isQuote held.literal.delimiter ∧
      source[held.literal.start]? = some held.literal.delimiter ∧
      ∀ q, Joint lines q → held.literal.start < q ∨ InString held.tokens q := by
  intro lines turn source
  have hk : b.KeepsOpen earlier := keepsOpen_of_pending h
  have hsource : turn.next.source = "\n".intercalate lines := source_feedAll hb hk
  have hshows : Shows source turn.answer turn.next.held :=
    feed_shows (faithful_feedAll hb earlier) last
  have henclosed (q : Nat) (hq : Joint lines q) := enclosed_outcome (joint_enclosed hb hk hq)
  obtain ⟨ha, hn⟩ := feed_eq_outcome (b.feedAll earlier) last
  refine ⟨hsource, fun q hq => ?_, fun tokens hok hp => ⟨?_, fun q hq => ?_⟩, fun held hh => ?_⟩
  · exact (congrArg (·.toList[q]?) hsource).trans (joint_feed hq)
  · have hnone : turn.next.held = none := held_eq_none_iff.mpr hp
    rw [hok, hnone] at hshows
    generalize source = text at hshows
    obtain ⟨ht⟩ := hshows
    exact Laid.of_tiled (by simpa using ht) (Nat.le_refl _)
  · have hnone : turn.next.held = none := held_eq_none_iff.mpr hp
    exact (henclosed q hq).1 tokens (ha.symm.trans hok) (hn.symm.trans hnone)
  · rw [hh] at hshows
    generalize hanswer : turn.answer = answer at hshows
    cases hshows with
    | pending hr =>
      obtain ⟨hq, hopened, ht⟩ := hr.opened
      obtain ⟨hstart, -⟩ := List.getElem?_eq_some_iff.mp hopened
      have hlaid : Laid source held.literal.start held.tokens.reverse :=
        Laid.of_tiled (by simpa using ht) (Nat.le_of_lt hstart)
      exact ⟨hlaid, hq, hopened, fun q hj => (henclosed q hj).2 held (hn.symm.trans hh)⟩

/-- A literal over three lines, with a backslash at the end of the first and nothing on the second. -/
theorem feed_lays_out_over_breaks :
    let b : Batch := { source := "list;" }
    let turn := (b.feedAll ["set x 'a\\", ""]).feed "n' + y;"
    ∃ tokens, turn.answer = .ok tokens ∧ turn.next.source = "set x 'a\\\n\nn' + y;" ∧
      Laid turn.next.source.toList turn.next.source.toList.length tokens ∧
      InString tokens 9 ∧ InString tokens 10 := by
  intro b turn
  have hopen (front : List String) (hf : front <+: ["set x 'a\\", ""]) (hn : front ≠ []) :
      (b.feedAll front).pending = true := by
    obtain rfl | ⟨later, rfl, hl⟩ := List.prefix_cons_iff.mp hf
    · exact absurd rfl hn
    · obtain rfl | ⟨last, rfl, hr⟩ := List.prefix_cons_iff.mp hl
      · rfl
      · obtain rfl := List.prefix_nil.mp hr
        rfl
  obtain ⟨hs, -, hc, -⟩ := feed_lays_out b rfl ["set x 'a\\", ""] "n' + y;" hopen
  obtain ⟨hl, hj⟩ := hc _ rfl rfl
  exact ⟨_, rfl, hs, hl, hj 9 ⟨[_], [_, _], rfl, by simp, by simp, rfl⟩,
    hj 10 ⟨[_, _], [_], rfl, by simp, by simp, rfl⟩⟩

end StringProcessor.Batch
