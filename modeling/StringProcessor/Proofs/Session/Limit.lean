import Mathlib.Data.List.Induction
import StringProcessor.Proofs.Machine.Limit
import StringProcessor.Proofs.Session.Step

/-! Sessions whose output is limited. They do the same as sessions without a limit, up to the first
command whose output does not fit; behind it nothing is written any more. -/
namespace StringProcessor.Session
open StringProcessor.Parser

/-- Among the commands that a machine is handed, the first whose output ends beyond so many bytes, those
in front of it, and the machine that they leave. -/
structure Crosses (k : Nat) (m : Machine) (handed before : List Command) (c : Command) (m' : Machine) :
    Prop where
  accepted : executor.Accepts m before m'
  given : ∃ after, handed = before ++ c :: after
  fits : m'.written.length ≤ k
  crosses : k < (m'.execute c).next.written.length

section
variable {m : Machine}

private theorem perform_unlimited (h : m.sink.room = none) (cs : List Command) :
    (executor.perform m cs).1.sink.room = none ∧
      m.written <+: (executor.perform m cs).1.written :=
  Executor.perform_induction (p := fun m' : Machine => m'.sink.room = none ∧ m.written <+: m'.written)
    (fun _ c _ hm => Machine.execute_grows hm c) ⟨h, List.prefix_refl _⟩

/-- Commands whose output fits are carried out as without a limit. -/
private theorem perform_within {k : Nat} (h : m.sink.room = none) (cs : List Command)
    (hk : (executor.perform m cs).1.written.length ≤ k) :
    executor.perform (m.limited k) cs =
      ((executor.perform m cs).1.limited k, (executor.perform m cs).2) := by
  induction cs generalizing m with
  | nil => rfl
  | cons c cs ih =>
    obtain ⟨hroom, -⟩ := Machine.execute_unlimited h c
    obtain ⟨hnext, hanswer⟩ := Machine.execute_limited h k c
    have hle : (m.execute c).next.written.length ≤ k := by
      refine Nat.le_trans ?_ hk
      rw [Executor.perform]
      split
      · exact (perform_unlimited hroom cs).2.length_le
      · exact Nat.le_refl _
    rw [if_pos (Nat.le_trans hle (Nat.le_max_left ..))] at hanswer
    have hn : (executor (m.limited k) c).next = (executor m c).next.limited k := hnext
    have hsame : (executor (m.limited k) c).answer = (executor m c).answer := hanswer
    rw [Executor.perform, hsame, hn]
    rw [Executor.perform] at hk ⊢
    cases ha : (executor m c).answer with
    | accepted =>
      rw [ha] at hk
      exact ih hroom hk
    | refused d => rfl
    | abandoned reason => exact reason.elim

/-- Commands whose output does not fit are carried out up to the first of which that is so. -/
private theorem perform_beyond {k : Nat} (h : m.sink.room = none) (hm : m.written.length ≤ k)
    (cs : List Command) (hk : k < (executor.perform m cs).1.written.length) :
    ∃ before c m', Crosses k m (executor.handed m cs) before c m' ∧
      executor.handed (m.limited k) cs = before ++ [c] ∧
      executor.perform (m.limited k) cs =
        ((m'.execute c).next.limited k, .refused (.outputFailure c.span "sink full")) ∧
      (m'.execute c).next.written <+: (executor.perform m cs).1.written := by
  induction cs generalizing m with
  | nil => exact absurd hk (Nat.not_lt_of_le hm)
  | cons c cs ih =>
    obtain ⟨hroom, -⟩ := Machine.execute_unlimited h c
    obtain ⟨hnext, hanswer⟩ := Machine.execute_limited h k c
    have hn : (executor (m.limited k) c).next = (executor m c).next.limited k := hnext
    by_cases hc : (m.execute c).next.written.length ≤ k
    · -- The command fits; it is one of those behind it that does not.
      rw [if_pos (Nat.le_trans hc (Nat.le_max_left ..))] at hanswer
      have hsame : (executor (m.limited k) c).answer = (executor m c).answer := hanswer
      rw [Executor.handed, Executor.handed, Executor.perform, hsame, hn]
      rw [Executor.perform] at hk ⊢
      cases ha : (executor m c).answer with
      | accepted =>
        rw [ha] at hk
        obtain ⟨before, c', m', ⟨hacc, ⟨after, hgiven⟩, hfits, hcross⟩, hhanded, hp, hpre⟩ :=
          ih hroom hc hk
        have hgiven' : c :: executor.handed (executor m c).next cs = c :: before ++ c' :: after :=
          congrArg (c :: ·) hgiven
        exact ⟨c :: before, c', m', ⟨.cons ha hacc, ⟨after, hgiven'⟩, hfits, hcross⟩,
          congrArg (c :: ·) hhanded, hp, hpre⟩
      | refused d =>
        rw [ha] at hk
        exact absurd hk (Nat.not_lt_of_le hc)
      | abandoned reason => exact reason.elim
    · rw [Nat.max_eq_left hm, if_neg hc] at hanswer
      have hrefused : (executor (m.limited k) c).answer = .refused _ := hanswer
      have hpre : (m.execute c).next.written <+: (executor.perform m (c :: cs)).1.written := by
        rw [Executor.perform]
        split
        · exact (perform_unlimited hroom cs).2
        · exact List.prefix_refl _
      refine ⟨[], c, m, ⟨.nil, ⟨_, rfl⟩, hm, Nat.lt_of_not_le hc⟩, ?_, ?_, hpre⟩
      · rw [Executor.handed, hrefused]
        rfl
      · rw [Executor.perform, hrefused, hn]
        rfl

end

def limited (k : Nat) (s : Session) : Session := { s with machine := s.machine.limited k }

/-- Nothing tells the steps apart but the room that is left. -/
structure Agree (bounded free : Step) : Prop where
  answer : bounded.answer = free.answer
  written : bounded.next.machine.written = free.next.machine.written
  symbols : bounded.next.machine.symbols = free.next.machine.symbols
  running : bounded.next.running = free.next.running
  pending : bounded.next.pending = free.next.pending

/-- The two sessions part at this command of the line, the first whose output ends beyond so many bytes.
The one without a limit has the machine carry it out; in the other one the line ends with it, and what is
written is the beginning of what is written without a limit. -/
structure Part (k : Nat) (bounded free : Session) (line : String) (before : List Command)
    (c : Command) (m : Machine) : Prop where
  first : Crosses k free.machine (free.handed line) before c m
  handed : bounded.handed line = before ++ [c]
  answer : (bounded.runLine line).answer = .refused (.outputFailure c.span "sink full")
  written : (bounded.runLine line).next.machine.written =
    (free.runLine line).next.machine.written.take k
  symbols : (bounded.runLine line).next.machine.symbols = m.symbols
  running : (bounded.runLine line).next.running = m.running

section
variable {s : Session} {k : Nat}

/-- A line whose output fits. -/
private theorem handle_within (hp : s.parser.state = .ready) (h : s.machine.sink.room = none) (r : Request)
    (hk : (s.handle r).next.machine.written.length ≤ k) :
    ((s.limited k).handle r).next = (s.handle r).next.limited k ∧
      ((s.limited k).handle r).answer = (s.handle r).answer := by
  cases r with
  | finish => exact ⟨rfl, rfl⟩
  | line text =>
    have hf : (s.limited k).batch.feed text = s.batch.feed text := rfl
    cases ha : (s.batch.feed text).answer with
    | error d =>
      obtain ⟨hn, he⟩ := runLine_error ha
      obtain ⟨hn', he'⟩ := runLine_error (s := s.limited k) ha
      rw [handle, handle, hn, hn', he, he']
      exact ⟨rfl, rfl⟩
    | ok tokens =>
      have hn := runLine_next hp ha
      have hn' := runLine_next (s := s.limited k) hp ha
      obtain ⟨-, he, -⟩ := runLine_ok hp ha
      obtain ⟨-, he', -⟩ := runLine_ok (s := s.limited k) hp ha
      rw [handle, hn] at hk
      have hw := perform_within h _ hk
      have hm : (s.limited k).machine = s.machine.limited k := rfl
      rw [handle, handle, hn, hn', he, he', hm, hw]
      exact ⟨rfl, rfl⟩

/-- A line whose output does not fit. -/
private theorem handle_beyond (hp : s.parser.state = .ready) (h : s.machine.sink.room = none)
    (hs : s.machine.written.length ≤ k) (r : Request)
    (hk : k < (s.handle r).next.machine.written.length) :
    ∃ line before c m, r = .line line ∧ Part k (s.limited k) s line before c m ∧
      ((s.limited k).handle r).next.machine.sink.room = some 0 := by
  cases r with
  | finish => exact absurd hk (Nat.not_lt_of_le hs)
  | line text =>
    cases ha : (s.batch.feed text).answer with
    | error d =>
      rw [handle, (runLine_error ha).1] at hk
      exact absurd hk (Nat.not_lt_of_le hs)
    | ok tokens =>
      have hn := runLine_next hp ha
      have hn' := runLine_next (s := s.limited k) hp ha
      obtain ⟨-, he', -⟩ := runLine_ok (s := s.limited k) hp ha
      have hm : (s.limited k).machine = s.machine.limited k := rfl
      rw [handle, hn] at hk
      obtain ⟨before, c, m, hcross, hhanded, hperform, hpre⟩ := perform_beyond h hs _ hk
      rw [hm, hperform] at hn' he'
      have hfull : k ≤ (m.execute c).next.written.length := Nat.le_of_lt hcross.crosses
      -- The machine that refuses the command keeps its symbols, and they are those of the other one.
      have hroom : m.sink.room = none :=
        hcross.accepted.induction (p := fun m : Machine => m.sink.room = none)
          (fun _ c hm => (Machine.execute_unlimited hm c).1) h
      obtain ⟨hnext, hanswer⟩ := Machine.execute_limited hroom k c
      rw [Nat.max_eq_left hcross.fits, if_neg (Nat.not_le_of_lt hcross.crosses)] at hanswer
      obtain ⟨hsym, hrun⟩ := Machine.execute_refused hanswer
      rw [hnext] at hsym hrun
      refine ⟨text, before, c, m, rfl, ⟨?_, ?_, he', ?_, ?_, ?_⟩, ?_⟩
      · rw [handed_ok hp ha]
        exact hcross
      · rw [handed_ok (s := s.limited k) hp ha]
        exact hhanded
      · rw [hn', hn]
        obtain ⟨rest, hrest⟩ := hpre
        rw [← hrest, List.take_append_of_le_length hfull]
        exact Sink.written_limited k _
      · rw [hn']
        exact hsym
      · rw [running, hn']
        exact hrun
      · rw [handle, hn']
        exact congrArg some (Nat.sub_eq_zero_of_le hfull)

end

/-- There is no room for output any more: it stays as it is, and every command that comes as far as
writing is refused, which ends its line. -/
structure Exhausted (s : Session) : Prop where
  kept : ∀ later, (s.after later).machine.sink = s.machine.sink
  refused : ∀ later line before c rest m, (s.after later).handed line = before ++ c :: rest →
    executor.Accepts (s.after later).machine before m → Machine.Writes m.symbols c.action →
    rest = [] ∧ ((s.after later).runLine line).answer = .refused (.outputFailure c.span "sink full")

private theorem handed_refused {σ : Type} [Output σ Empty] {s : Session σ} {line : String}
    {before rest : List Command}
    {c : Command} {m : Machine σ} {d : Diagnostic} (hp : s.parser.state = .ready)
    (hh : s.handed line = before ++ c :: rest) (ha : executor.Accepts s.machine before m)
    (hd : (m.execute c).answer = .refused d) : rest = [] ∧ (s.runLine line).answer = .refused d := by
  cases hf : (s.batch.feed line).answer with
  | error d' =>
    simp only [handed, hf] at hh
    simp at hh
  | ok tokens =>
    have hrefused : (executor m c).answer = .refused d := hd
    rw [handed_ok hp hf] at hh
    obtain ⟨cs, hcs, hlast⟩ := ha.handed_split hh
    rw [Executor.handed, hrefused] at hlast
    obtain ⟨-, rfl⟩ := List.cons.inj hlast
    refine ⟨rfl, ?_⟩
    rw [(runLine_ok hp hf).2.1, hcs, ha.perform, Executor.perform, hrefused]
    rfl

private theorem exhausted_of_full {s : Session} (hp : s.parser.state = .ready)
    (h : s.machine.sink.room = some 0) :
    Exhausted s := by
  let p (m : Machine) : Prop := m.sink = s.machine.sink
  have hstep (m : Machine) (c : Command) (hm : p m) : p (m.execute c).next :=
    (Machine.execute_full (hm ▸ h) c).1.trans hm
  have hkept (later : List Request) : p (s.after later).machine := after_machine hstep rfl later
  refine ⟨hkept, fun later line before c rest m hh ha hw => ?_⟩
  have hready : (s.after later).parser.state = .ready :=
    after_induction (p := fun s => s.parser.state = .ready) hp (fun _ r h => handle_ready h r) later
  have hfull : m.sink.room = some 0 := by
    have hm : p m := Executor.Accepts.induction ha hstep (hkept later)
    exact hm ▸ h
  exact handed_refused hready hh ha ((Machine.execute_full hfull c).2 hw)

private theorem handle_unlimited {s : Session} (h : s.machine.sink.room = none) (r : Request) :
    (s.handle r).next.machine.sink.room = none ∧
      s.machine.written <+: (s.handle r).next.machine.written :=
  handle_machine (p := fun m : Machine => m.sink.room = none ∧ s.machine.written <+: m.written)
    (fun _ c hm => Machine.execute_grows hm c) ⟨h, List.prefix_refl _⟩ r

theorem after_concat {σ : Type} [Output σ Empty] (s : Session σ) (requests : List Request) (r : Request) :
    s.after (requests ++ [r]) = ((s.after requests).handle r).next := by
  simp [after]

private theorem after_unlimited (level : Level) (requests : List Request) :
    ((start level ({} : Sink)).after requests).machine.sink.room = none :=
  after_machine (p := fun m : Machine => m.sink.room = none)
    (fun _ c hm => (Machine.execute_unlimited hm c).1) rfl requests

/-- What has been asked so far has had the same effect on both sessions, or else the one with a limit has
run out of room. -/
private theorem after_limited (level : Level) (k : Nat) (requests : List Request) :
    let free := (start level ({} : Sink)).after requests
    let bounded := (start level ({ room := some k } : Sink)).after requests
    free.machine.written.length ≤ k ∧ bounded = free.limited k ∨
      k < free.machine.written.length ∧ bounded.machine.sink.room = some 0 := by
  intro free bounded
  induction requests using List.reverseRecOn with
  | nil =>
    have hstart : start level ({ room := some k } : Sink) = (start level ({} : Sink)).limited k := by
      simp [start, limited, Machine.start, Machine.limited, Sink.limited, Sink.written]
    exact .inl ⟨Nat.zero_le k, hstart⟩
  | append_singleton requests r ih =>
    have hp := after_ready level ({} : Sink) requests
    have h := after_unlimited level requests
    simp only [free, bounded, after_concat]
    rcases ih with ⟨hle, he⟩ | ⟨hlt, hfull⟩
    · rw [he]
      by_cases hk : ((((start level ({} : Sink)).after requests).handle r).next.machine.written.length ≤ k)
      · exact .inl ⟨hk, (handle_within hp h r hk).1⟩
      · have hlt := Nat.lt_of_not_le hk
        obtain ⟨-, -, -, -, -, -, hroom⟩ := handle_beyond hp h hle r hlt
        exact .inr ⟨hlt, hroom⟩
    · refine .inr ⟨Nat.lt_of_lt_of_le hlt (handle_unlimited h r).2.length_le, ?_⟩
      have hp' := after_ready level ({ room := some k } : Sink) requests
      have hkept := (exhausted_of_full hp' hfull).kept [r]
      exact hkept ▸ hfull

/-- A limit of the sink cuts the output and nothing else. As long as all output fits, the sessions with
and without the limit agree step by step. In the first step in which it does not fit, they part at the
first command whose output goes beyond the limit. From then on there is no room for output. -/
theorem limit_cuts_output (level : Level) (k : Nat) (earlier : List Request) (r : Request) :
    let free := (start level ({} : Sink)).after earlier
    let bounded := (start level ({ room := some k } : Sink)).after earlier
    let total := (free.handle r).next.machine.written
    (total.length ≤ k → Agree (bounded.handle r) (free.handle r)) ∧
    (free.machine.written.length ≤ k → k < total.length →
      ∃ line before c m, r = .line line ∧ Part k bounded free line before c m) ∧
    (k < total.length → Exhausted (bounded.handle r).next) := by
  intro free bounded total
  have hp : free.parser.state = .ready := after_ready level ({} : Sink) earlier
  have h : free.machine.sink.room = none := after_unlimited level earlier
  have hgrows : free.machine.written.length ≤ total.length := (handle_unlimited h r).2.length_le
  have hbounded (hle : free.machine.written.length ≤ k) : bounded = free.limited k :=
    ((after_limited level k earlier).resolve_right fun hbeyond =>
      Nat.not_lt_of_le hle hbeyond.1).2
  refine ⟨fun hk => ?_, fun hle hlt => ?_, fun hlt => ?_⟩
  · obtain ⟨hn, ha⟩ := handle_within hp h r hk
    rw [hbounded (Nat.le_trans hgrows hk)]
    refine ⟨ha, ?_, ?_, ?_, ?_⟩
    · rw [hn]
      exact (Sink.written_limited k _).trans (List.take_of_length_le hk)
    · exact congrArg (·.machine.symbols) hn
    · exact congrArg (·.machine.running) hn
    · exact congrArg (·.batch.pending) hn
  · obtain ⟨line, before, c, m, hr, hpart, -⟩ := handle_beyond hp h hle r hlt
    rw [hbounded hle]
    exact ⟨line, before, c, m, hr, hpart⟩
  · have hready := after_ready level ({ room := some k } : Sink) (earlier ++ [r])
    have hfull := (after_limited level k (earlier ++ [r])).resolve_left fun hwithin => by
      rw [after_concat] at hwithin
      exact Nat.not_lt_of_le hwithin.1 hlt
    simp only [after_concat] at hready hfull
    exact exhausted_of_full hready hfull.2

/-- The output breaks off inside a character of two bytes: the last command is not carried out, and what is
to be listed later is refused. -/
theorem limit_cuts_inside_character :
    let free := (start .off ({} : Sink)).after [.line "set x 'é';"]
    let bounded := (start .off ({ room := some 3 } : Sink)).after [.line "set x 'é';"]
    let line := "print 'a'; print x; set x 'b';"
    let next := (bounded.runLine line).next
    (∃ before c m, Part 3 bounded free line before c m) ∧ next.machine.written = [97, 10, 195] ∧
      (next.runLine "list;").answer = .refused (.outputFailure ⟨0, 5⟩ "sink full") := by
  intro free bounded line next
  have hcut := limit_cuts_output .off 3 [.line "set x 'é';"] (.line line)
  have hlt : 3 < ((start .off ({} : Sink)).after [.line "set x 'é';", .line line]).machine.written.length := by
    decide
  obtain ⟨_, before, c, m, ⟨⟩, hpart⟩ := hcut.2.1 (by decide) hlt
  refine ⟨⟨before, c, m, hpart⟩, by decide, ?_⟩
  exact ((hcut.2.2 hlt).refused [] "list;" [] ⟨.list, ⟨0, 5⟩⟩ [] _ (by decide) .nil .list).2

end StringProcessor.Session
