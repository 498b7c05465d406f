/-! Three ways to cut a text into lines: the lines of a script, the lines of console input, and
the lines by which a position in a source is named. -/
namespace StringProcessor.Text

def pushToLines (c : Char) (lines : List (List Char)) : List (List Char) :=
  if c == '\n' then [] :: lines
  else match lines with
    | [] => [[c]]
    | line :: others => (c :: line) :: others

def betweenLineFeeds (text : List Char) : List (List Char) := text.foldr pushToLines [[]]

def dropReturn (line : List Char) : List Char :=
  if line.getLast? == some '\r' then line.dropLast else line

/-- The lines of a script: the parts between line feeds, each without a carriage return before
its line feed. What follows the last line feed is a line only if it is not empty, and it keeps a
carriage return at its end. -/
def scriptLines (text : List Char) : List (List Char) :=
  let parts := betweenLineFeeds text
  let last := parts.getLast?.getD []
  parts.dropLast.map dropReturn ++ if last.isEmpty then [] else [last]

def pushToConsoleLines (byte : UInt8) (lines : List (List UInt8)) : List (List UInt8) :=
  match lines with
  | [] => [[byte]]
  | line :: others => if byte == 10 then [byte] :: line :: others else (byte :: line) :: others

/-- The lines of console input, each with its line feed; only the last may lack one. -/
def consoleLines (input : List UInt8) : List (List UInt8) := input.foldr pushToConsoleLines []

/-- A console line without the carriage returns and line feeds at its end. -/
def trimLineEnd (line : List Char) : List Char :=
  (line.reverse.dropWhile fun c => c == '\n' || c == '\r').reverse

/-- The characters that end a line of a source: line feed, vertical tab, form feed, carriage
return, next line, and the line and paragraph separators. -/
def isLineEnd (c : Char) : Bool :=
  let n := c.toNat
  (0x0A ≤ n && n ≤ 0x0D) || n == 0x85 || n == 0x2028 || n == 0x2029

/-- The line and column of the position `offset` characters on, both counted from `line` and
`column`. A line holds its own end; a carriage return and the line feed behind it are one end. No
line starts at the end of the text. -/
def placeFrom (line column : Nat) : List Char → Nat → Nat × Nat
  | _, 0 => (line, column)
  | [], _ + 1 => (line, column)
  | c :: rest, offset + 1 =>
    if isLineEnd c && !(c == '\r' && rest.head? == some '\n') && !rest.isEmpty then
      placeFrom (line + 1) 1 rest offset
    else placeFrom line (column + 1) rest offset

def place (text : List Char) (offset : Nat) : Nat × Nat := placeFrom 1 1 text offset

end StringProcessor.Text
