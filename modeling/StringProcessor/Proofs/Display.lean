import StringProcessor.Display
import StringProcessor.Proofs.Session.Calls

/-! Displays. What is shown of a session is what its steps show, one after the other, whatever has been shown
before. -/
namespace StringProcessor

def Piece.report? : Piece → Option Report
  | .report r => some r
  | _ => none

/-- The piece comes from a session: it is output, or a report. -/
def Piece.isAnswer : Piece → Bool
  | .output _ | .report _ => true
  | _ => false

namespace Session.Step

def complaint? (step : Step) : Option (Diagnostic × String) :=
  match step.answer with
  | .accepted => none
  | .refused fault => some (fault, step.next.source)

def failed (step : Step) : Bool := step.answer != .accepted

theorem isSome_complaint? (step : Step) : step.complaint?.isSome = step.failed := by
  simp only [complaint?, failed]
  cases step.answer with
  | accepted | refused d => rfl
  | abandoned reason => exact reason.elim

theorem answer_of_complaint? {step : Step} {complaint : Diagnostic × String}
    (h : step.complaint? = some complaint) : step.answer = .refused complaint.1 := by
  simp only [complaint?] at h
  split at h
  · cases h
  · rename_i ha
    cases h
    exact ha

end Session.Step

/-- What the artist makes of a complaint: a report, or why it cannot be shown. -/
def Artist.answer (artist : Artist) (file : Option String) (complaint : Diagnostic × String) :
    Except String Report := artist (complaint.1.draft complaint.2 file)

def Artist.report? (artist : Artist) (file : Option String) (complaint : Diagnostic × String) :
    Option Report := (artist.answer file complaint).toOption

/-- Every report can be shown. -/
def Artist.Draws (artist : Artist) : Prop := ∀ draft, ∃ report, artist draft = .ok report

theorem draws_draw : Draft.draw.Draws := fun draft => ⟨draft.report, rfl⟩

theorem Artist.Draws.length {artist : Artist} (h : artist.Draws) (file : Option String)
    (complaints : List (Diagnostic × String)) :
    (complaints.filterMap (artist.report? file)).length = complaints.length := by
  induction complaints with
  | nil => rfl
  | cons complaint complaints ih =>
    obtain ⟨report, hr⟩ := h (complaint.1.draft complaint.2 file)
    have hsome : artist.report? file complaint = some report := by
      rw [Artist.report?, Artist.answer, hr]
      rfl
    rw [List.filterMap_cons, hsome, List.length_cons, List.length_cons, ih]

namespace Session.Step
variable (artist : Artist) (file : Option String)

/-- What is shown of the step: what it has written, and the report of its fault. -/
def pieces (step : Step) : List Piece :=
  .output step.next.drain.1 ::
    ((step.complaint?.bind (artist.report? file)).map Piece.report).toList

/-- What is put on record of the step: its log, and that its fault cannot be reported. -/
def records (step : Step) : List Record :=
  step.log ++ match step.complaint? with
    | none => []
    | some complaint =>
      match artist.answer file complaint with
      | .ok _ => []
      | .error cause => (Event.reportFailed cause complaint.1.message : Event).messages.map
        (⟨.warning, .host, ·⟩)

theorem isAnswer_pieces (step : Step) : ∀ p ∈ step.pieces artist file, p.isAnswer := by
  cases h : step.complaint?.bind (artist.report? file) <;> simp [pieces, h, Piece.isAnswer]

private theorem report_pieces (step : Step) : (step.pieces artist file).filterMap Piece.report? =
    (step.complaint?.bind (artist.report? file)).toList := by
  cases h : step.complaint?.bind (artist.report? file) <;> simp [pieces, h] <;> rfl

end Session.Step

namespace Display
variable {d e : Display} {file : Option String}

/-- What is seen on standard output. A piece of no bytes is not. -/
def stdout (d : Display) : List Piece := d.pieces.filter (· ≠ .output [])

def reports (d : Display) : List Report := d.pieces.filterMap Piece.report?

theorem reports_eq_stdout (d : Display) : d.reports = d.stdout.filterMap Piece.report? := by
  rw [stdout, List.filterMap_filter]
  refine congrArg (d.pieces.filterMap ·) (funext fun p => ?_)
  cases p with
  | output bytes => simp [Piece.report?]
  | _ => rfl

/-- The display that goes on from `d` as `e` does from nothing. -/
def append (d e : Display) : Display where
  artist := e.artist
  session := e.session
  shown := e.shown ++ d.shown
  log := e.log ++ d.log
  faults := d.faults + e.faults

theorem session_append (d e : Display) : (d.append e).session = e.session := rfl

theorem faults_append (d e : Display) : (d.append e).faults = d.faults + e.faults := rfl

theorem append_fresh (d : Display) :
    d.append { artist := d.artist, session := d.session } = d := rfl

private theorem append_perform (d e : Display) (file : Option String) (step : Session.Step) :
    (d.append e).perform file step = d.append (e.perform file step) := by
  simp only [perform, complain]
  split
  · simp [append, reveal]
  · dsimp only [append, reveal]
    split <;> simp [Nat.add_assoc]

theorem stdout_append (d e : Display) : (d.append e).stdout = d.stdout ++ e.stdout := by
  simp [stdout, pieces, append]

theorem stdout_reveal (d : Display) (p : Piece) :
    (d.reveal p).stdout = d.stdout ++ [p].filter (· ≠ .output []) := by
  simp [stdout, pieces, reveal]

section
variable (d : Display) (file : Option String) (step : Session.Step)

/-- What a step leaves is shown and put on record behind what there is, and a fault is counted. -/
theorem perform_eq : d.perform file step =
    { artist := d.artist
      session := step.next.drain.2
      shown := (step.pieces d.artist file).reverse ++ d.shown
      log := (step.records d.artist file).reverse ++ d.log
      faults := d.faults + step.complaint?.toList.length } := by
  cases ha : step.answer with
  | accepted =>
    have hc : step.complaint? = none := by simp only [Session.Step.complaint?, ha]
    simp [perform, ha, Session.Step.pieces, Session.Step.records, hc, reveal]
  | refused fault =>
    have hc : step.complaint? = some (fault, step.next.source) := by
      simp only [Session.Step.complaint?, ha]
    have hanswer : d.artist.answer file (fault, step.next.source) =
        d.artist (fault.draft step.next.drain.2.source file) := rfl
    simp only [perform, ha, complain, Session.Step.pieces, Session.Step.records, hc, Option.bind_some,
      Artist.report?, hanswer, reveal]
    cases d.artist (fault.draft step.next.drain.2.source file) <;> simp [Except.toOption]
  | abandoned reason => exact reason.elim

private theorem pieces_perform : (d.perform file step).pieces = d.pieces ++ step.pieces d.artist file := by
  simp [perform_eq, pieces]

theorem stdout_perform : (d.perform file step).stdout =
    d.stdout ++ (step.pieces d.artist file).filter (· ≠ .output []) := by
  rw [stdout, pieces_perform, List.filter_append, ← stdout]

end

def performAll (d : Display) (file : Option String) (steps : List Session.Step) : Display :=
  steps.foldl (fun d step => d.perform file step) d

private theorem performAll_cons (d : Display) (file : Option String) (step : Session.Step)
    (steps : List Session.Step) :
    d.performAll file (step :: steps) = (d.perform file step).performAll file steps := rfl

theorem performAll_single (d : Display) (file : Option String) (step : Session.Step) :
    d.performAll file [step] = d.perform file step := rfl

theorem performAll_append (d : Display) (file : Option String) (steps steps' : List Session.Step) :
    d.performAll file (steps ++ steps') = (d.performAll file steps).performAll file steps' :=
  List.foldl_append

/-- What steps leave does not depend on what has been shown before. -/
theorem append_performAll (d e : Display) (file : Option String) (steps : List Session.Step) :
    (d.append e).performAll file steps = d.append (e.performAll file steps) := by
  induction steps generalizing e with
  | nil => rfl
  | cons step steps ih =>
    rw [performAll_cons, performAll_cons, append_perform, ih]

theorem artist_performAll (d : Display) (file : Option String) (steps : List Session.Step) :
    (d.performAll file steps).artist = d.artist := by
  induction steps generalizing d with
  | nil => rfl
  | cons step steps ih => rw [performAll_cons, ih, perform_eq]

/-- The faults of the steps are reported in their order, as far as they can be. -/
theorem reports_performAll (d : Display) (file : Option String) (steps : List Session.Step) :
    (d.performAll file steps).reports = d.reports ++
      (steps.filterMap Session.Step.complaint?).filterMap (d.artist.report? file) := by
  induction steps generalizing d with
  | nil => simp [performAll]
  | cons step steps ih =>
    have hartist : (d.perform file step).artist = d.artist := by rw [perform_eq]
    rw [performAll_cons, ih, hartist, reports, pieces_perform, List.filterMap_append,
      ← reports, Session.Step.report_pieces, List.filterMap_cons]
    cases step.complaint? with
    | none => simp
    | some complaint =>
      rw [List.filterMap_cons, Option.bind_some]
      cases d.artist.report? file complaint <;> simp

theorem faults_performAll (d : Display) (file : Option String) (steps : List Session.Step) :
    (d.performAll file steps).faults =
      d.faults + (steps.filterMap Session.Step.complaint?).length := by
  induction steps generalizing d with
  | nil => rfl
  | cons step steps ih =>
    rw [performAll_cons, ih, perform_eq, List.filterMap_cons]
    cases step.complaint? <;> simp [Nat.add_assoc, Nat.add_comm]

end Display
end StringProcessor
