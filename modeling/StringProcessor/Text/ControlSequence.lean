/-! Text without the control sequences that a terminal would obey instead of showing them. -/
namespace StringProcessor.Text

/-- What the characters at some place belong to: the text itself, an escape sequence, a control
sequence with its parameters, the introduction of a device control string, a string that is not
for the eye, or a command to the operating system. -/
inductive Passage
  | text
  | escape
  | escapeTail
  | control
  | device
  | deviceParameters
  | deviceTail
  | string
  | command
  deriving DecidableEq

/-- The passage to which a character leads from another one, unless it stays there. A new escape
and the two characters that cancel a sequence are obeyed everywhere. -/
def Passage.next? (p : Passage) (c : Char) : Option Passage :=
  let within (first last : Nat) : Bool := first ≤ c.toNat && c.toNat ≤ last
  if c == '\x1b' then some .escape
  else if c == '\x18' || c == '\x1a' then some .text
  else match p with
    | .text => none
    | .escape =>
      if c == '[' then some .control
      else if c == ']' then some .command
      else if c == 'P' then some .device
      else if c == 'X' || c == '^' || c == '_' then some .string
      else if within 0x20 0x2F then some .escapeTail
      else if within 0x30 0x7E then some .text
      else none
    | .escapeTail => if within 0x30 0x7E then some .text else none
    | .control => if within 0x40 0x7E then some .text else none
    | .device =>
      if within 0x20 0x2F then some .deviceTail
      else if within 0x30 0x3F then some .deviceParameters
      else if within 0x40 0x7E then some .string
      else none
    | .deviceParameters =>
      if within 0x20 0x2F then some .deviceTail
      else if within 0x3C 0x7E then some .string
      else none
    | .deviceTail => if within 0x30 0x7E then some .string else none
    | .string => if (String.utf8EncodeChar c).contains 0x9C then some .text else none
    | .command => if c == '\x07' then some .text else none

def Passage.next (p : Passage) (c : Char) : Passage := (p.next? c).getD p

/-- Whether a passage shows a character. Tabs, page breaks and line ends are shown even within a
sequence, but not within a string or its introduction. -/
def Passage.shows (p : Passage) (c : Char) : Bool :=
  match p with
  | .text => isLayout || (' ' ≤ c && c != '\x7f')
  | .escape | .escapeTail | .control => isLayout
  | _ => false
where
  isLayout : Bool := c == '\t' || c == '\n' || c == '\x0c' || c == '\r'

structure Showing where
  passage : Passage := .text
  shown : Bool := true

/-- Reads one character. Behind a shown character another one that text shows is shown as well,
whatever the passage. -/
def Showing.step (s : Showing) (c : Char) : Showing :=
  let passage := if !s.shown then s.passage
    else if '\x80' ≤ c then .text
    else (Passage.text.next? c).getD s.passage
  if s.shown && Passage.text.shows c then { passage, shown := true }
  else { passage := passage.next c, shown := passage.shows c }

def shownFrom (s : Showing) : List Char → List Char
  | [] => []
  | c :: rest =>
    let s := s.step c
    if s.shown then c :: shownFrom s rest else shownFrom s rest

def shown (text : String) : String := String.ofList (shownFrom {} text.toList)

end StringProcessor.Text
