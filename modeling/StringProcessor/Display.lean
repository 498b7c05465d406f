import StringProcessor.Diagnostic.Report
import StringProcessor.Session

/-! The display: what a user gets to see of a session, piece by piece. -/
namespace StringProcessor

inductive Piece
  | banner
  | prompt (pending : Bool)
  | output (bytes : List UInt8)
  | report (r : Report)
  | endOfInput
  | farewell
  deriving DecidableEq

def Piece.bytes? : Piece → Option (List UInt8)
  | .banner => some (Text.bytesOf
      "String Processor v0.1.0\nType 'exit;' or press Ctrl+D to quit\n\n")
  | .prompt pending => some (Text.bytesOf (if pending then "… " else "> "))
  | .output bytes => some bytes
  | .report _ => none
  | .endOfInput => some (Text.bytesOf "\n")
  | .farewell => some (Text.bytesOf "Goodbye!\n")

/-- A session, who draws its reports, and what has been shown of it. Pieces and records are kept latest
first. -/
structure Display where
  artist : Artist
  session : Session
  shown : List Piece := []
  log : List Record := []
  faults : Nat := 0

namespace Display

/-- The display of a new session. Standard output is taken to be endless. -/
def start (level : Level) (artist : Artist) : Display :=
  { artist, session := .start level .endless }

def reveal (d : Display) (p : Piece) : Display := { d with shown := p :: d.shown }

/-- Counts a fault and reports it. A report that cannot be shown is only put on record. -/
def complain (d : Display) (file : Option String) (fault : Diagnostic) : Display :=
  let d := { d with faults := d.faults + 1 }
  match d.artist (fault.draft d.session.source file) with
  | .ok report => d.reveal (.report report)
  | .error cause =>
    let records := (Event.reportFailed cause fault.message : Event).messages.map
      (⟨.warning, .host, ·⟩)
    { d with log := records.reverse ++ d.log }

/-- Goes on to what a line left of the session: its output is shown, then its fault, if it ended in
one, is reported. -/
def perform (d : Display) (file : Option String) (step : Session.Step) : Display :=
  let (bytes, session) := step.next.drain
  let d := { d with session, log := step.log.reverse ++ d.log }.reveal (.output bytes)
  match step.answer with
  | .accepted => d
  | .refused fault => d.complain file fault

def runLine (d : Display) (file : Option String) (line : String) : Display :=
  d.perform file (d.session.runLine line)

def finish (d : Display) (file : Option String) : Display := d.perform file d.session.finish

def pieces (d : Display) : List Piece := d.shown.reverse

def records (d : Display) : List Record := d.log.reverse

def cleared (d : Display) : Display := { d with shown := [], log := [] }

end Display
end StringProcessor
