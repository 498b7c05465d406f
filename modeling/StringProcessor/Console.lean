import StringProcessor.Display

/-! The console: a dialogue in which each line is run as soon as it has been typed. -/
namespace StringProcessor

/-- A dialogue. It has ended after an exit command, at the end of input, or when a line cannot be
read, which is told in the complaint. -/
structure Console where
  display : Display
  ended : Bool := false
  complaint : String := ""

namespace Console

def ask (d : Display) : Console := { display := d.reveal (.prompt d.session.pending) }

def start (level : Level) (banner : Bool) (artist : Artist := Draft.draw) : Console :=
  let d := Display.start level artist
  ask (if banner then d.reveal .banner else d)

def read (c : Console) (line : List UInt8) : Console :=
  if c.ended then c
  else match Text.ofBytes? line with
  | none =>
    { c with
      ended := true
      complaint := "Error reading input: stream did not contain valid UTF-8\n" }
  | some text =>
    let d := c.display.runLine none (String.ofList (Text.trimLineEnd text.toList))
    if d.session.running then ask d else { display := d.reveal .farewell, ended := true }

def close (c : Console) : Console :=
  if c.ended then c else { display := (c.display.reveal .endOfInput).finish none, ended := true }

def run (input : List UInt8) (level : Level) (banner : Bool) (artist : Artist := Draft.draw) :
    Console :=
  ((Text.consoleLines input).foldl read (start level banner artist)).close

end Console
end StringProcessor
