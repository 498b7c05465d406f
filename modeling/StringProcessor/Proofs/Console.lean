import StringProcessor.Console
import StringProcessor.Proofs.Script

/-! The console and scripts. A text that is typed runs as it does as a script, and the console shows the same
beside what it says itself. -/
namespace StringProcessor

namespace Console

/-- Asks for the next line, or takes leave when the session has ended. -/
def resume (d : Display) : Console where
  display := d.reveal (if d.session.running then .prompt d.session.pending else .farewell)
  ended := !d.session.running

def carry (c : Console) (step : Session.Step) : Console := resume (c.display.perform none step)

def hear (c : Console) (line : String) : Console :=
  if c.ended then c else c.carry (c.display.session.runLine line)

private theorem resume_running {d : Display} (h : d.session.running) : resume d = ask d := by
  rw [resume, if_pos h, h]
  rfl

private theorem resume_stopped {d : Display} (h : ¬ d.session.running) :
    resume d = { display := d.reveal .farewell, ended := true } := by
  rw [resume, if_neg h, Bool.eq_false_iff.mpr h]
  rfl

private theorem read_heard {c : Console} {bytes : List UInt8} {line : String}
    (h : Text.heard bytes = some line) : c.read bytes = c.hear line := by
  obtain ⟨text, ht, rfl⟩ := Option.map_eq_some_iff.mp h
  simp only [read, hear, ht]
  split
  · rfl
  · split
    · rename_i hr
      exact (resume_running hr).symm
    · rename_i hr
      exact (resume_stopped hr).symm

/-- The console reads the lines of a script. -/
private theorem foldl_read {source : String} (h : Text.SingleReturns source.toList) (c : Console) :
    (Text.consoleLines (Text.bytesOf source)).foldl read c = (Script.lines source).foldl hear c := by
  have hm : (Script.lines source).map some =
      (Text.consoleLines (Text.bytesOf source)).map Text.heard := by
    have hl := Text.heard_consoleLines h
    rw [String.ofList_toList] at hl
    rw [hl, Script.lines, List.map_map]
    rfl
  generalize Text.consoleLines (Text.bytesOf source) = input at hm
  generalize Script.lines source = lines at hm
  induction input generalizing lines c with
  | nil =>
    rw [List.map_nil, List.map_eq_nil_iff] at hm
    rw [hm]
    rfl
  | cons bytes input ih =>
    obtain ⟨line, lines, rfl, hline, hlines⟩ := List.map_eq_cons_iff.mp hm
    rw [List.foldl_cons, List.foldl_cons, read_heard hline.symm, ih _ _ hlines]

/-- A dialogue goes on as long as its session does, and nothing has been complained of. -/
structure Live (c : Console) : Prop where
  ended : c.ended = !c.display.session.running
  complaint : c.complaint = ""

private theorem live_start (level : Level) (banner : Bool) (artist : Artist) :
    (start level banner artist).Live := by
  cases banner <;> exact ⟨rfl, rfl⟩

private theorem live_carry (c : Console) (step : Session.Step) : (c.carry step).Live := ⟨rfl, rfl⟩

private theorem session_carry (c : Console) (step : Session.Step) :
    (c.carry step).display.session = step.next.drain.2 :=
  congrArg Display.session (c.display.perform_eq none step)

theorem Live.close {c : Console} (h : c.Live) : c.close.ended ∧ c.close.complaint = "" := by
  rw [Console.close]
  split
  · rename_i hended
    exact ⟨hended, h.complaint⟩
  · exact ⟨rfl, rfl⟩

private theorem foldl_hear_ended {c : Console} (h : c.ended) (lines : List String) :
    lines.foldl hear c = c := by
  induction lines with
  | nil => rfl
  | cons line lines ih => rw [List.foldl_cons, hear, if_pos h, ih]

/-- Lines are heard by calls, as long as the session goes on. -/
private theorem foldl_hear {c : Console} (h : c.Live) (lines : List String) :
    lines.foldl hear c = ((c.display.session.calls lines).map Session.Call.step).foldl carry c ∧
      (lines.foldl hear c).Live := by
  induction lines generalizing c with
  | nil => exact ⟨rfl, h⟩
  | cons line lines ih =>
    by_cases hr : c.display.session.running
    · have hgoes : ¬ c.ended := by simp [h.ended, hr]
      have hs : (c.carry (c.display.session.runLine line)).display.session =
          Session.Call.next ⟨c.display.session, line⟩ := session_carry c _
      obtain ⟨hc, hlive⟩ := ih (c.live_carry (c.display.session.runLine line))
      rw [hs] at hc
      rw [List.foldl_cons, hear, if_neg hgoes, Session.calls, if_pos hr]
      exact ⟨hc, hlive⟩
    · have hstop : c.display.session.running = false := Bool.eq_false_iff.mpr hr
      have hended : c.ended := by simp [h.ended, hstop]
      rw [foldl_hear_ended hended, (Session.calls_stopped hstop (line :: lines)).1]
      exact ⟨rfl, h⟩

/-- The console shows what a display shows, beside what it says itself. -/
structure Follows (c d : Display) : Prop where
  artist : c.artist = d.artist
  session : c.session = d.session
  log : c.log = d.log
  faults : c.faults = d.faults
  stdout : c.stdout.filter Piece.isAnswer = d.stdout

namespace Follows
variable {c d : Display}

theorem start (level : Level) (banner : Bool) (artist : Artist) :
    Follows (Console.start level banner artist).display (.start level artist) := by
  cases banner <;> exact ⟨rfl, rfl, rfl, rfl, rfl⟩

/-- What the console says itself is none of the session's. -/
theorem reveal (h : Follows c d) {p : Piece} (hp : p.isAnswer = false) : Follows (c.reveal p) d where
  artist := h.artist
  session := h.session
  log := h.log
  faults := h.faults
  stdout := by
    have hnone : ([p].filter (· ≠ .output [])).filter Piece.isAnswer = [] := by
      rw [List.filter_eq_nil_iff]
      intro q hq
      rw [List.mem_singleton.mp (List.mem_filter.mp hq).1, hp]
      exact Bool.false_ne_true
    rw [Display.stdout_reveal, List.filter_append, h.stdout, hnone, List.append_nil]

/-- What is shown of the session is the same for both. -/
theorem perform (h : Follows c d) (step : Session.Step) :
    Follows (c.perform none step) (d.perform none step) where
  artist := by rw [Display.perform_eq, Display.perform_eq, h.artist]
  session := by rw [Display.perform_eq, Display.perform_eq]
  log := by rw [Display.perform_eq, Display.perform_eq, h.artist, h.log]
  faults := by rw [Display.perform_eq, Display.perform_eq, h.faults]
  stdout := by
    have hs : ((step.pieces d.artist none).filter (· ≠ .output [])).filter Piece.isAnswer =
        (step.pieces d.artist none).filter (· ≠ .output []) :=
      List.filter_eq_self.mpr fun p hp =>
        step.isAnswer_pieces d.artist none p (List.mem_filter.mp hp).1
    rw [Display.stdout_perform, Display.stdout_perform, List.filter_append, h.artist, h.stdout, hs]

private theorem carry {c : Console} (h : Follows c.display d) (step : Session.Step) :
    Follows (c.carry step).display (d.perform none step) := by
  refine (h.perform step).reveal ?_
  split <;> rfl

private theorem foldl_carry {c : Console} (h : Follows c.display d) (steps : List Session.Step) :
    Follows (steps.foldl Console.carry c).display (d.performAll none steps) := by
  induction steps generalizing c d with
  | nil => exact h
  | cons step steps ih => exact ih (h.carry step)

/-- The console ends the input only if the session goes on. That of an ended session has nothing to tell. -/
theorem close {c : Console} (h : Follows c.display d) (hlive : c.Live) (hrest : d.session.Resting) :
    Follows c.close.display (d.finish none) := by
  rw [Console.close, hlive.ended, h.session]
  cases hr : d.session.running with
  | true =>
    have hfinish : (c.display.reveal .endOfInput).finish none =
        (c.display.reveal .endOfInput).perform none d.session.finish := by rw [← h.session]; rfl
    simp only [Bool.not_true, Bool.false_eq_true, if_false, hfinish]
    exact (h.reveal rfl).perform _
  | false =>
    rw [Display.finish_settled hrest (hrest.closed hr)]
    refine ⟨h.artist, h.session, h.log, h.faults, ?_⟩
    rw [Display.stdout_reveal]
    simpa using h.stdout

/-- The same faults are reported, in the same order. -/
theorem reports (h : Follows c d) : c.reports = d.reports := by
  rw [Display.reports_eq_stdout, Display.reports_eq_stdout, ← h.stdout, List.filterMap_filter]
  congr 1
  funext p
  cases p <;> rfl

end Follows

/-- A text runs the same as a script and when it is typed, if no line of it ends in more than one carriage
return. The session is called with the same lines; each call has the same result and writes the same, and
the last is the first that has an exit carried out, if there is one. The session that is left, the log, and
the reports are the same, also that of a literal that is open at the end. The console shows what the script
does, in this order, and beside it only what it says itself. -/
theorem console_follows_script (source : String) (level : Level) (banner : Bool) (artist : Artist)
    (h : Text.SingleReturns source.toList) :
    let s := Session.start level .endless
    let calls := s.calls (Script.lines source)
    let left := s.left (Script.lines source)
    let script := Script.run source none level artist
    let console := run (Text.bytesOf source) level banner artist
    (script =
        (Display.start level artist).performAll none (calls.map Session.Call.step ++ [left.finish]) ∧
      console = ((calls.map Session.Call.step).foldl carry (start level banner artist)).close) ∧
    (calls.map Session.Call.line <+: Script.lines source ∧
      (left.running ∧ (∀ call ∈ calls, ¬ call.Exits) ∧
          calls.map Session.Call.line = Script.lines source ∨
        left.running = false ∧ ∃ front last, calls = front ++ [last] ∧
          (∀ call ∈ front, ¬ call.Exits) ∧ last.Exits)) ∧
    (console.ended ∧ console.complaint = "") ∧
    console.display.session = script.session ∧
    console.display.log = script.log ∧
    console.display.reports = script.reports ∧
    console.display.faults = script.faults ∧
    console.display.stdout.filter Piece.isAnswer = script.stdout := by
  intro s calls left script console
  have hrest := Session.resting_start level
  have hs : (start level banner artist).display.session = s :=
    (Follows.start level banner artist).session
  obtain ⟨hheard, hlive⟩ := foldl_hear (live_start level banner artist) (Script.lines source)
  rw [hs] at hheard
  have hconsole : console =
      ((calls.map Session.Call.step).foldl carry (start level banner artist)).close := by
    rw [← hheard, ← foldl_read h]
    rfl
  obtain ⟨hd, hleft⟩ := Script.foldl_step (.start level artist) none (Script.lines source)
  change _ = (Display.start level artist).performAll none (calls.map Session.Call.step) at hd
  change _ = left at hleft
  have hfollows : Follows console.display script := by
    have hscript : script =
        ((Script.lines source).foldl (Script.step none) (.start level artist)).finish none := rfl
    rw [hconsole, hscript]
    refine Follows.close ?_ (hheard ▸ hlive) (hleft ▸ (hrest.calls (Script.lines source)).2)
    rw [hd]
    exact (Follows.start level banner artist).foldl_carry _
  refine ⟨⟨Script.runOn_eq_performAll s source none artist, hconsole⟩,
    ⟨s.lines_calls (Script.lines source), hrest.calls_exit rfl (Script.lines source)⟩, ?_,
    hfollows.session, hfollows.log, hfollows.reports, hfollows.faults, hfollows.stdout⟩
  rw [hconsole, ← hheard]
  exact hlive.close

/-- A literal reaches over the end of a line, a statement behind it fails, and another literal is open at the
end; and an exit is carried out before the last line. -/
theorem console_follows_script_open :
    (run (Text.bytesOf "print 'a\r\nb'; print c;\nprint 'd") .off true).display.stdout.filter Piece.isAnswer =
        (Script.run "print 'a\r\nb'; print c;\nprint 'd" none .off).stdout ∧
      (run (Text.bytesOf "print 'a'; exit;\r\nprint 'b'") .off false).display.session =
        (Script.run "print 'a'; exit;\r\nprint 'b'" none .off).session := by
  obtain ⟨-, -, -, -, -, -, -, hstdout⟩ :=
    console_follows_script "print 'a\r\nb'; print c;\nprint 'd" .off true Draft.draw
      (by decide +kernel)
  obtain ⟨-, -, -, hsession, -⟩ :=
    console_follows_script "print 'a'; exit;\r\nprint 'b'" .off false Draft.draw
      (by decide +kernel)
  exact ⟨hstdout, hsession⟩

end Console
end StringProcessor
