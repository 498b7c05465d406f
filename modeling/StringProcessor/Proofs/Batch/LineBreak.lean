import Mathlib.Data.List.Induction
import StringProcessor.Proofs.Batch.Outcome

/-! Line breaks in literals. Lines that are fed one after the other while a literal stays open read
like one line; only the positions behind the breaks are further on. -/
namespace StringProcessor.Batch
open Scan

def feedAll (b : Batch) (lines : List String) : Batch := lines.foldl (fun b l => (b.feed l).next) b

/-- Every one of the lines is answered without a fault and leaves a literal open. -/
def KeepsOpen (b : Batch) (lines : List String) : Prop :=
  ∀ front line rest, lines = front ++ line :: rest →
    (∃ tokens, ((b.feedAll front).feed line).answer = .ok tokens) ∧
      ((b.feedAll front).feed line).next.pending = true

/-- The positions of the joined lines at which a line was broken off, counted on from a position. -/
def breaks (position : Nat) : List String → List Nat
  | [] => []
  | line :: lines => (position + line.length) :: breaks (position + line.length) lines

/-- A position of the joined text, further on by the breaks up to it. -/
def acrossBreaks (breaks : List Nat) (position : Nat) : Nat :=
  position + breaks.countP (· ≤ position)

theorem breaks_concat (position : Nat) (lines : List String) (line : String) :
    breaks position (lines ++ [line]) =
      breaks position lines ++ [position + (String.join (lines ++ [line])).length] := by
  induction lines generalizing position with
  | nil => simp [breaks]
  | cons first lines ih => simp [breaks, ih, Nat.add_assoc]

theorem feedAll_concat (b : Batch) (lines : List String) (line : String) :
    b.feedAll (lines ++ [line]) = ((b.feedAll lines).feed line).next := by
  simp [feedAll]

private theorem keepsOpen_nil (b : Batch) : b.KeepsOpen [] := fun front line rest h => by simp at h

theorem KeepsOpen.cons {b : Batch} {line : String} {lines : List String} {tokens : List Token}
    (ha : (b.feed line).answer = .ok tokens) (hp : (b.feed line).next.pending = true)
    (h : (b.feed line).next.KeepsOpen lines) : b.KeepsOpen (line :: lines) := by
  intro front l rest he
  cases front with
  | nil =>
    obtain ⟨rfl, rfl⟩ := List.cons.inj he
    exact ⟨⟨tokens, ha⟩, hp⟩
  | cons first front =>
    obtain ⟨rfl, ht⟩ := List.cons.inj he
    exact h front l rest ht

theorem KeepsOpen.front {b : Batch} {lines : List String} {line : String}
    (h : b.KeepsOpen (lines ++ [line])) : b.KeepsOpen lines :=
  fun front l rest he => h front l (rest ++ [line]) (by simp [he])

theorem KeepsOpen.last {b : Batch} {lines : List String} {line : String}
    (h : b.KeepsOpen (lines ++ [line])) : ((b.feedAll lines).feed line).next.pending = true :=
  (h lines line [] rfl).2

private theorem line_literal {s : Scan} {cs : List Char} {l : OpenLiteral}
    (h : (s.line cs).mode = .literal l) : s.line cs = cs.foldl step s := by
  rcases endWord_activity (cs.foldl step s) with ha | hs
  · have hl := mode_eq_literal_iff.mp h
    rw [Scan.line, ha] at hl
    cases hl
  · exact hs

private theorem outcome_pending {s : Scan} (h : s.outcome.2.isSome) :
    ∃ l, s.mode = .literal l ∧ s.outcome = (.ok [], some ⟨s.tokens, l⟩) := by
  unfold outcome at h ⊢
  cases hm : s.mode <;> simp [hm] at h ⊢

/-- A line that leaves a literal open gives no tokens. The next line is scanned on behind it, one
position further. -/
theorem feed_pending {b : Batch} {line : String} (h : (b.feed line).next.pending = true) :
    let scan := line.toList.foldl step b.entry
    ∃ l, scan.mode = .literal l ∧ (b.feed line).answer = .ok [] ∧
      (b.feed line).next.entry.At (scan.position + 1) (.literal l) scan.tokens := by
  intro scan
  obtain ⟨ha, hn⟩ := feed_eq_outcome b line
  have hsome : (b.entry.line line.toList).outcome.2.isSome := by
    rw [← hn, held, Option.isSome_map]
    exact h
  obtain ⟨l, hm, ho⟩ := outcome_pending hsome
  have hl := line_literal hm
  rw [ho] at ha hn
  rw [hl] at hm hn
  refine ⟨l, hm, ha, ?_⟩
  have hp : scan.position = b.entry.position + line.toList.length := by
    rcases position_run b.entry line.toList with hp | ⟨c, hc⟩
    · exact hp
    · rw [hm] at hc
      cases hc
  obtain ⟨-, hlength, hmode, htokens⟩ := entry_of_pending hn
  refine ⟨?_, hmode, htokens⟩
  rw [position_entry, hlength, length_feed, hp, position_entry, String.length_toList]

/-- Across a break the positions of what has been read stay as they are, and that of the break is
one further. -/
private theorem moved_break {f f' : Nat → Nat} {s t t' : Scan} {l : OpenLiteral} (h : Moved f s t)
    (hs : Settled s.position s.mode s.tokens) (hm : s.mode = .literal l)
    (hlt : ∀ p < s.position, f' p = f p) (heq : f' s.position = f s.position + 1)
    (ht : t'.At (t.position + 1) t.mode t.tokens) : Moved f' s t' := by
  have hl : l.start < s.position := by simpa [hm, front] using hs.started
  refine ⟨?_, ?_, ?_⟩
  · simp [ht.position, h.position, heq]
  · simp [ht.mode, h.mode, hm, Mode.move, OpenLiteral.move, hlt _ hl]
  · simp only [ht.tokens, h.tokens]
    refine List.map_congr_left fun t ht => ?_
    obtain ⟨hlen, hstop⟩ := hs.tokens t ht
    rw [hm, front] at hstop
    simp only [Token.move, Span.move]
    rw [hlt _ (by omega), hlt _ (by omega)]

def joinedScan (lines : List String) : Scan :=
  (String.join lines).toList.foldl step ({} : Batch).entry

private theorem joinedScan_concat (lines : List String) (line : String) :
    joinedScan (lines ++ [line]) = line.toList.foldl step (joinedScan lines) := by
  simp [joinedScan]

private theorem acrossBreaks_concat (offsets : List Nat) (offset position : Nat) :
    acrossBreaks (offsets ++ [offset]) position =
      acrossBreaks offsets position + if offset ≤ position then 1 else 0 := by
  simp [acrossBreaks, Nat.add_assoc]

private theorem breaks_le (position : Nat) (lines : List String) :
    ∀ n ∈ breaks position lines, n ≤ position + (String.join lines).length := by
  induction lines generalizing position with
  | nil => simp [breaks]
  | cons line lines ih =>
    intro n hn
    rw [String.join_cons, String.length_append]
    rcases List.mem_cons.mp hn with rfl | hn
    · omega
    · have := ih _ n hn
      omega

/-- Behind the last break positions stay next to each other. -/
private theorem acrossBreaks_succ {lines : List String} {position : Nat}
    (h : (String.join lines).length ≤ position) :
    acrossBreaks (breaks 0 lines) (position + 1) = acrossBreaks (breaks 0 lines) position + 1 := by
  have hb : ∀ n ∈ breaks 0 lines, n ≤ position := by
    intro n hn
    have := breaks_le 0 lines n hn
    omega
  have h₁ : (breaks 0 lines).countP (· ≤ position) = (breaks 0 lines).length := by simpa using hb
  have h₂ : (breaks 0 lines).countP (· ≤ position + 1) = (breaks 0 lines).length := by
    simpa using fun n hn => Nat.le_succ_of_le (hb n hn)
  rw [acrossBreaks, acrossBreaks, h₁, h₂]
  omega

private theorem settled_joinedScan (lines : List String) :
    let s := joinedScan lines
    Settled s.position s.mode s.tokens :=
  Settled.run ⟨.inl rfl, List.forall_mem_nil _⟩ _

private theorem literal_of_moved {f : Nat → Nat} {s t : Scan} {l : OpenLiteral} (h : Moved f s t)
    (ht : t.mode = .literal l) : ∃ l', s.mode = .literal l' := by
  have hm := h.mode
  cases hs : s.mode with
  | literal l' => exact ⟨l', rfl⟩
  | _ => rw [hs, ht] at hm; cases hm

/-- While a literal stays open, the lines have been read like the joined lines. -/
private theorem feedAll_moved {b : Batch} (hb : b.pending = false) (lines : List String)
    (h : b.KeepsOpen lines) :
    let s := joinedScan lines
    Moved (acrossBreaks (breaks 0 lines)) s (b.feedAll lines).entry ∧
      s.position = (String.join lines).length := by
  -- From the end: a further line adds one break, behind everything that has been read.
  induction lines using List.reverseRecOn with
  | nil =>
    have he := entry_of_not_pending hb
    exact ⟨⟨he.position, he.mode, he.tokens⟩, rfl⟩
  | append_singleton lines line ih =>
    obtain ⟨hm, hp⟩ := ih h.front
    obtain ⟨l, hl, -, hr⟩ := feed_pending h.last
    have hrun := hm.run (fun p h => acrossBreaks_succ (hp ▸ h)) line.toList
    rw [← joinedScan_concat] at hrun
    obtain ⟨l', hl'⟩ := literal_of_moved hrun hl
    have hp' : (joinedScan (lines ++ [line])).position = (String.join (lines ++ [line])).length := by
      rcases position_run ({} : Batch).entry (String.join (lines ++ [line])).toList with hp' | ⟨c, hc⟩
      · exact hp'.trans ((Nat.zero_add _).trans String.length_toList)
      · rw [← joinedScan, hl'] at hc
        cases hc
    refine ⟨?_, hp'⟩
    rw [feedAll_concat]
    refine moved_break hrun (settled_joinedScan _) hl' ?_ ?_ (hl ▸ hr)
    · intro p hlt
      rw [breaks_concat, acrossBreaks_concat, if_neg (by omega), Nat.add_zero]
    · rw [breaks_concat, acrossBreaks_concat, if_pos (by omega)]

/-- Breaking a line inside a literal changes nothing but positions. The lines that leave the literal
open give no tokens. The line behind them gives what the joined lines give, tokens, open literal or
fault, each position further on by the breaks up to it. -/
theorem feed_broken_line (b : Batch) (hb : b.pending = false) (earlier : List String)
    (last : String) (h : b.KeepsOpen earlier) :
    let broken := (b.feedAll earlier).feed last
    let joined := ({} : Batch).feed (String.join (earlier ++ [last]))
    let across := acrossBreaks (breaks 0 earlier)
    (∀ front line rest, earlier = front ++ line :: rest →
      ((b.feedAll front).feed line).answer = .ok []) ∧
    broken.answer = moveAnswer across joined.answer ∧
    broken.next.held = joined.next.held.map (Held.move across) := by
  intro broken joined across
  refine ⟨fun front line rest he => ?_, ?_⟩
  · obtain ⟨l, -, ha, -⟩ := feed_pending (h front line rest he).2
    exact ha
  obtain ⟨hm, hp⟩ := feedAll_moved hb earlier h
  have hrun := (hm.run (fun p h => acrossBreaks_succ (hp ▸ h)) last.toList).endWord
  have hle : (String.join earlier).length ≤
      (last.toList.foldl step (joinedScan earlier)).endWord.position := by
    rw [position_endWord, ← hp]
    exact position_le_run _ _
  have ho := hrun.outcome (acrossBreaks_succ hle)
  obtain ⟨ha, hn⟩ := feed_eq_outcome (b.feedAll earlier) last
  obtain ⟨ha', hn'⟩ := feed_eq_outcome {} (String.join (earlier ++ [last]))
  have hj : ({} : Batch).entry.line (String.join (earlier ++ [last])).toList =
      (last.toList.foldl step (joinedScan earlier)).endWord := by
    rw [← joinedScan_concat]
    rfl
  rw [hj] at ha' hn'
  rw [ha, ha', hn, hn']
  exact ⟨congrArg Prod.fst ho, congrArg Prod.snd ho⟩

theorem feed_broken_escape :
    let b : Batch := { source := "list;" }
    let broken := (b.feedAll ["set x 'a\\", ""]).feed "n';"
    broken.answer = .ok [⟨.keyword, "set", ⟨0, 3⟩⟩, ⟨.name, "x", ⟨4, 5⟩⟩, ⟨.string, "a\n", ⟨6, 13⟩⟩,
      ⟨.terminator, ";", ⟨13, 14⟩⟩] := by
  intro b broken
  have h : b.KeepsOpen ["set x 'a\\", ""] := .cons rfl rfl (.cons rfl rfl (keepsOpen_nil _))
  rw [(feed_broken_line b rfl _ "n';" h).2.1]
  rfl

end StringProcessor.Batch
