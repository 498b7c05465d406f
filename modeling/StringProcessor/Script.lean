import StringProcessor.Display

/-! Scripts: texts whose lines are run one after the other. Faults are reported and do not stop a
script; the exit command does. -/
namespace StringProcessor.Script

def lines (source : String) : List String :=
  (Text.scriptLines source.toList).map String.ofList

def step (file : Option String) (d : Display) (line : String) : Display :=
  if d.session.running then d.runLine file line else d

/-- Runs a script and ends the input. The faults of the display are those reported. -/
def run (source : String) (file : Option String) (level : Level) (artist : Artist := Draft.draw) :
    Display :=
  ((lines source).foldl (step file) (.start level artist)).finish file

end StringProcessor.Script
