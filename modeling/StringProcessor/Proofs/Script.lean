import StringProcessor.Proofs.Display
import StringProcessor.Proofs.Text.Lines
import StringProcessor.Script

/-! Scripts. What a script shows are the steps of its lines and of the end of the input. An exit ends it, and
without one a script that is continued goes on from where it was. -/
namespace StringProcessor

namespace Session

/-- The course of a text on a session: the steps of its lines, as far as they are run, and of the end of
the input. -/
def course (s : Session) (lines : List String) : List Step :=
  (s.calls lines).map Call.step ++ [(s.left lines).finish]

private theorem course_append (s : Session) (lines lines' : List String) :
    s.course (lines ++ lines') = (s.calls lines).map Call.step ++ (s.left lines).course lines' := by
  simp only [course, calls_append, left_append, List.map_append, List.append_assoc]

private theorem course_stopped {s : Session} {lines : List String} (h : (s.left lines).running = false)
    (lines' : List String) : s.course (lines ++ lines') = s.course lines := by
  obtain ⟨hcalls, hleft⟩ := calls_stopped h lines'
  rw [course_append, course, hcalls, hleft]
  rfl

private theorem complaint?_finish (s : Session) : s.finish.complaint?.isSome = s.pending := by
  cases h : s.batch.literal <;> simp [finish, Batch.finish, Step.complaint?, pending, Batch.pending, h]

/-- A text that leaves no literal open is not faulted for one. -/
private theorem course_terminated {s : Session} {lines : List String}
    (hp : (s.left lines).pending = false) :
    ∀ complaint ∈ (s.course lines).filterMap Step.complaint?, complaint.1.kind ≠ .unterminatedString := by
  intro complaint hm
  obtain ⟨step, hstep, hc⟩ := List.mem_filterMap.mp hm
  rcases List.mem_append.mp hstep with hcall | hfinish
  · obtain ⟨call, hmem, rfl⟩ := List.mem_map.mp hcall
    exact call.kind_ne_unterminated (Step.answer_of_complaint? hc)
  · rw [List.mem_singleton.mp hfinish] at hc
    have hsome := complaint?_finish (s.left lines)
    rw [hc, hp] at hsome
    cases hsome

/-- The faults of a text are those of its lines, and one if a literal is open at the end. -/
private theorem length_complaints (s : Session) (lines : List String) :
    ((s.course lines).filterMap Step.complaint?).length =
      (s.calls lines).countP (·.step.failed) +
        if (s.left lines).pending then 1 else 0 := by
  have hfinish : ([(s.left lines).finish].filterMap Step.complaint?).length =
      if (s.left lines).pending then 1 else 0 := by
    rw [← complaint?_finish]
    cases h : (s.left lines).finish.complaint? <;> simp [h]
  rw [course, List.filterMap_append, List.length_append, hfinish, List.length_filterMap_eq_countP,
    List.countP_map]
  congr 2
  funext call
  exact Step.isSome_complaint? call.step

/-- Where no literal is open, the end of the input changes and tells nothing. -/
theorem Resting.finish {s : Session} (h : s.Resting) (hp : s.pending = false) :
    s.finish = (⟨s, .accepted, []⟩ : Step) := by
  have hl : s.batch.literal = none := by simpa [pending, Batch.pending] using hp
  simp only [Session.finish, Batch.finish, hl, ← h.settled hp]
  rw [← hl]

theorem Resting.drain {s : Session} (h : s.Resting) : s.drain = ([], s) := by
  obtain ⟨batch, parser, level, symbols, ⟨latest, room⟩, running⟩ := s
  obtain rfl : latest = [] := h.drained
  rfl

end Session

theorem Display.finish_settled {d : Display} (h : d.session.Resting) (hp : d.session.pending = false)
    (file : Option String) : d.finish file = d.reveal (.output []) := by
  rw [finish, h.finish hp, perform, h.drain]
  rfl

namespace Script
open Session

private theorem lines_append {source : String} (h : Text.LineEnded source.toList) (rest : String) :
    lines (source ++ rest) = lines source ++ lines rest := by
  rw [lines, String.toList_append, Text.scriptLines_append h, List.map_append]
  rfl

/-- Runs a script on a session that may have a past. -/
def runOn (s : Session) (source : String) (file : Option String) (artist : Artist := Draft.draw) :
    Display :=
  ((lines source).foldl (step file) { artist, session := s }).finish file

/-- Lines are run by calls, as long as the session goes on. -/
theorem foldl_step (d : Display) (file : Option String) (lines : List String) :
    lines.foldl (step file) d = d.performAll file ((d.session.calls lines).map Call.step) ∧
      (lines.foldl (step file) d).session = d.session.left lines := by
  induction lines generalizing d with
  | nil => exact ⟨rfl, rfl⟩
  | cons line lines ih =>
    rw [List.foldl_cons, calls, left, step]
    split
    · have hs : (d.runLine file line).session = Call.next ⟨d.session, line⟩ :=
        congrArg Display.session (d.perform_eq file _)
      obtain ⟨hd, hsession⟩ := ih (d.runLine file line)
      rw [hs] at hd hsession
      exact ⟨hd, hsession⟩
    · rename_i hr
      obtain ⟨hcalls, hleft⟩ := calls_stopped (by simpa using hr) lines
      obtain ⟨hd, hsession⟩ := ih d
      rw [hcalls] at hd
      rw [hleft] at hsession
      exact ⟨hd, hsession⟩

section
variable (s : Session) (source : String) (file : Option String) (artist : Artist)

theorem runOn_eq_performAll : runOn s source file artist =
    Display.performAll { artist, session := s } file (s.course (lines source)) := by
  obtain ⟨hd, hs⟩ := foldl_step { artist, session := s } file (lines source)
  rw [runOn, Display.finish, hs, hd, course, Display.performAll_append, Display.performAll_single]

private theorem reports_runOn : (runOn s source file artist).reports =
    ((s.course (lines source)).filterMap Session.Step.complaint?).filterMap (artist.report? file) := by
  have hnone : ({ artist, session := s } : Display).reports = [] := rfl
  rw [runOn_eq_performAll, Display.reports_performAll, hnone, List.nil_append]

private theorem faults_runOn : (runOn s source file artist).faults =
    ((s.course (lines source)).filterMap Session.Step.complaint?).length := by
  rw [runOn_eq_performAll, Display.faults_performAll, Nat.zero_add]

end

/-- A text behind the line in which a script has been ended is not looked at. -/
private theorem runOn_stopped {s : Session} {source : String} (h : Text.LineEnded source.toList)
    (hs : (s.left (lines source)).running = false) (rest : String) (file : Option String)
    (artist : Artist) : runOn s (source ++ rest) file artist = runOn s source file artist := by
  rw [runOn_eq_performAll, runOn_eq_performAll, lines_append h, course_stopped hs]

/-- A text behind a script that has not been ended goes on on the session that the script leaves. -/
private theorem runOn_continued {s : Session} {source : String} (h : Text.LineEnded source.toList)
    (hr : (s.left (lines source)).Resting) (hp : (s.left (lines source)).pending = false)
    (rest : String) (file : Option String) (artist : Artist) :
    let script := runOn s source file artist
    let longer := runOn s (source ++ rest) file artist
    let further := runOn (s.left (lines source)) rest file artist
    script.session = s.left (lines source) ∧ longer.session = further.session ∧
      longer.stdout = script.stdout ++ further.stdout ∧
      longer.faults = script.faults + further.faults := by
  intro script longer further
  obtain ⟨hd, hs⟩ := foldl_step { artist, session := s } file (lines source)
  generalize hfirst : (lines source).foldl (step file) { artist, session := s } = first at hd hs
  have hartist : first.artist = artist := by rw [hd, Display.artist_performAll]
  have hdone : script = first.reveal (.output []) := by
    simp only [script, runOn, hfirst]
    exact Display.finish_settled (hs ▸ hr) (hs ▸ hp) file
  have hlonger : longer = first.append further := by
    simp only [longer, runOn_eq_performAll, lines_append h, course_append, Display.performAll_append, ← hd]
    calc first.performAll file ((s.left (lines source)).course (lines rest))
        = (first.append { artist, session := s.left (lines source) }).performAll file
            ((s.left (lines source)).course (lines rest)) := by
          rw [← hs, ← hartist, first.append_fresh]
      _ = first.append further := by rw [Display.append_performAll, ← runOn_eq_performAll]
  have hsession : (first.reveal (.output [])).session = s.left (lines source) := hs
  rw [hdone, hlonger, Display.stdout_append, Display.stdout_reveal, hsession]
  exact ⟨rfl, Display.session_append _ _, by simp, Display.faults_append _ _⟩

/-- The faults that are counted are one for each line that fails, and one for a literal that is open at the
end; and they are those that are reported, if every report can be shown. If an exit is carried out in a
script of whole lines, whatever text is put behind it is not looked at; no open literal is reported, and the
statements of the last batch are carried out up to the first that fails. If no exit is carried out and no
literal is left open, a text behind the script goes on on the session that the script leaves. -/
theorem exit_cuts_script (source rest : String) (file : Option String) (level : Level)
    (artist : Artist) :
    let s := Session.start level .endless
    let calls := s.calls (lines source)
    let left := s.left (lines source)
    let complaints := (s.course (lines source)).filterMap Session.Step.complaint?
    let script := run source file level artist
    let longer := run (source ++ rest) file level artist
    (script = (Display.start level artist).performAll file (calls.map Call.step ++ [left.finish]) ∧
      script.reports = complaints.filterMap (artist.report? file) ∧
      (artist.Draws → script.faults = script.reports.length) ∧
      script.faults = calls.countP (·.step.failed) + if left.pending then 1 else 0) ∧
    (Text.LineEnded source.toList → (∃ call ∈ calls, call.Exits) →
      longer = script ∧ (∀ complaint ∈ complaints, complaint.1.kind ≠ .unterminatedString) ∧
        ∃ front last, calls = front ++ [last] ∧ (∀ call ∈ front, ¬ call.Exits) ∧ last.Exits ∧
          last.CarriesOut) ∧
    (Text.LineEnded source.toList → (∀ call ∈ calls, ¬ call.Exits) → left.pending = false →
      left.running ∧ script.session = left ∧ longer.session = (runOn left rest file artist).session ∧
        longer.stdout = script.stdout ++ (runOn left rest file artist).stdout ∧
        longer.faults = script.faults + (runOn left rest file artist).faults) := by
  intro s calls left complaints script longer
  have hreports : script.reports = _ := reports_runOn s source file artist
  have hfaults : script.faults = complaints.length := faults_runOn s source file artist
  have hrest := resting_start level
  refine ⟨⟨runOn_eq_performAll s source file artist, hreports, fun hdraws => ?_, ?_⟩,
    fun h hexit => ?_, fun h hnone hp => ?_⟩
  · rw [hfaults, hreports, hdraws.length]
  · exact hfaults.trans (length_complaints s (lines source))
  · rcases hrest.calls_exit rfl (lines source) with
      ⟨-, hnone, -⟩ | ⟨hstop, front, last, hcalls, hfront, hlast⟩
    · obtain ⟨call, hm, hc⟩ := hexit
      exact absurd hc (hnone call hm)
    · have hlastRest := (hrest.calls (lines source)).1 last (by rw [hcalls]; simp)
      exact ⟨runOn_stopped h hstop rest file artist,
        course_terminated ((hrest.calls (lines source)).2.closed hstop),
        front, last, hcalls, hfront, hlast, hlast.carriesOut hlastRest.1.ready⟩
  · rcases hrest.calls_exit rfl (lines source) with ⟨hr, -⟩ | ⟨-, front, last, hcalls, -, hlast⟩
    · exact ⟨hr, runOn_continued h (hrest.calls (lines source)).2 hp rest file artist⟩
    · exact absurd hlast (hnone last (by simp only [calls, s, hcalls]; simp))

/-- An exit stands before a statement that fails, on the second line of a literal; and a script without an
exit is continued. -/
theorem exit_cuts_script_in_batch :
    run ("print 'a\nb'; exit; print c; print 'd';\n" ++ "print 'e") none .off =
        run "print 'a\nb'; exit; print c; print 'd';\n" none .off ∧
      (run ("set a 'b';\n" ++ "print a; print 'c") none .off).stdout =
        (run "set a 'b';\n" none .off).stdout ++
          (runOn ((start .off .endless).left ["set a 'b';"]) "print a; print 'c" none).stdout := by
  have hstop : ((start .off .endless).left
      (lines "print 'a\nb'; exit; print c; print 'd';\n")).running = false := by decide
  have hgoes : ((start .off .endless).left (lines "set a 'b';\n")).running = true := by decide
  have hsettled : ((start .off .endless).left (lines "set a 'b';\n")).pending = false := by decide
  obtain ⟨-, hcut, -⟩ := exit_cuts_script "print 'a\nb'; exit; print c; print 'd';\n" "print 'e" none .off
    Draft.draw
  obtain ⟨-, -, hfurther⟩ := exit_cuts_script "set a 'b';\n" "print a; print 'c" none .off Draft.draw
  constructor
  · rcases (resting_start .off).calls_exit rfl (lines "print 'a\nb'; exit; print c; print 'd';\n") with
      ⟨hr, -⟩ | ⟨-, front, last, hcalls, -, hlast⟩
    · rw [hstop] at hr
      cases hr
    · exact (hcut (.inr (by decide)) ⟨last, by rw [hcalls]; simp, hlast⟩).1
  · rcases (resting_start .off).calls_exit rfl (lines "set a 'b';\n") with ⟨-, hnone, -⟩ | ⟨hr, -⟩
    · exact (hfurther (.inr (by decide)) hnone hsettled).2.2.2.1
    · rw [hgoes] at hr
      cases hr

end Script
end StringProcessor
