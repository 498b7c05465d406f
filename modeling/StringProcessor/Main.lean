import StringProcessor.CommandLine

/-! The program: it plans from its arguments, runs a script at once, and holds a dialogue line by
line. -/
namespace StringProcessor

open CommandLine

def writePieces (pieces : List Piece) : IO Unit := do
  let out ← IO.getStdout
  for piece in pieces do
    match piece, piece.bytes? with
    | _, some bytes => out.write ⟨bytes.toArray⟩
    | .report r, _ => out.putStr r.text
    | _, none => pure ()
  out.flush

/-- Reads one line with its line end; it is empty at the end of input. -/
partial def readLine (input : IO.FS.Stream) (before : ByteArray) : IO ByteArray := do
  let next ← input.read 1
  if next.isEmpty then return before
  let line := before ++ next
  if next.get! 0 == 10 then return line else readLine input line

/-- Shows what is new in a dialogue, and goes on until it is over. -/
partial def converse (c : Console) (filter : LogFilter) : IO Unit := do
  writePieces c.display.pieces
  IO.eprint (logText filter c.display.records ++ c.complaint)
  if !c.ended then
    let line ← readLine (← IO.getStdin) .empty
    let c := { c with display := c.display.cleared }
    converse (if line.isEmpty then c.close else c.read line.data.toList) filter

/-- What stands at a path. Code 21 tells that it is a directory; another wrong type is that of a
file on the way to it, and then nothing stands there. -/
def entryAt (path : String) : IO Entry := do
  try return .file (← IO.FS.readBinFile path).data.toList
  catch
  | .inappropriateType _ 21 _ => return .directory
  | .noFileOrDirectory .. | .inappropriateType .. => return .missing
  | other => return .unreadable (toString other)

def conclude (o : Outcome) : IO UInt32 := do
  writePieces o.pieces
  IO.eprint o.complaint
  return o.exit.toUInt32

end StringProcessor

open StringProcessor CommandLine in
def main (arguments : List String) : IO UInt32 := do
  let setting ← IO.getEnv "RUST_LOG"
  match plan arguments with
  | .script path level =>
    conclude (runScript path (← entryAt path) level (filterFor level setting))
  | .console banner level =>
    converse (Console.start level banner) (filterFor level setting)
    return 0
  | settled => conclude (settled.run { entry := fun _ => .missing, input := [], setting })
