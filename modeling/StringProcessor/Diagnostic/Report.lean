import StringProcessor.Diagnostic
import StringProcessor.Text.Lines

/-! Reports: diagnostics as they are shown beside the source that they refer to. The picture itself is left
to whoever draws it. -/
namespace StringProcessor

inductive Colour
  | red
  | yellow
  | blue
  | magenta
  | cyan

def Colour.code : Colour → String
  | .red => "31"
  | .yellow => "33"
  | .blue => "34"
  | .magenta => "35"
  | .cyan => "36"

def Colour.paint (c : Colour) (text : String) : String :=
  "\x1b[" ++ c.code ++ "m" ++ text ++ "\x1b[0m"

def Diagnostic.Kind.colour : Kind → Colour
  | .illegalCharacter | .unknownTokenKind | .unterminatedString => .red
  | .malformedStatement => .yellow
  | .undefinedSymbol | .readOnlySymbol => .magenta
  | .outputFailure => .blue

/-- What is handed over to be drawn: what the report says first, the file, its text and the place in it that
the report points at, what is written there and in which colour, and what is written below. -/
structure Draft where
  header : String
  file : String
  source : String
  span : Span
  label : String
  colour : Colour
  note : Option String
  help : Option String

structure Report where
  header : String
  location : Option String := none
  help : Option String := none
  note : Option String := none
  deriving DecidableEq

/-- Draws a report, or tells why it cannot be shown. -/
abbrev Artist := Draft → Except String Report

namespace Diagnostic

def draft (d : Diagnostic) (source : String) (file : Option String) : Draft :=
  { header := d.kind.colour.paint d.kind.category ++ ": " ++ d.message
    file := file.getD "<repl>"
    source
    span := d.span
    label := d.message
    colour := d.kind.colour
    note := d.context.map Context.text
    help := d.help.map Colour.cyan.paint }

end Diagnostic

/-- Whether a source has a place for the span: it starts in the source or at its end, and its last
character, if it has any, does too. -/
def Span.fits (span : Span) (source : String) : Bool :=
  !source.isEmpty && span.start ≤ source.length &&
    (span.stop ≤ span.start || span.stop - 1 ≤ source.length)

namespace Draft

def location (d : Draft) : String :=
  let (line, column) := Text.place d.source.toList d.span.start
  d.file ++ ":" ++ toString line ++ ":" ++ toString column

/-- The report as the program's own artist draws it. Where the source has no place for the span, the header
stands alone. -/
def report (d : Draft) : Report :=
  if d.span.fits d.source then
    { header := d.header, location := some d.location, help := d.help, note := d.note }
  else { header := d.header }

def draw : Artist := fun d => .ok d.report

end Draft

def Report.text (r : Report) : String :=
  let line (label : String) (part : Option String) :=
    part.elim "" fun text => "  " ++ label ++ text ++ "\n"
  Colour.red.paint "Error:" ++ " " ++ r.header ++ "\n" ++ line "at " r.location ++
    line "Help: " r.help ++ line "Note: " r.note

end StringProcessor
