import StringProcessor.Text.Hex
import StringProcessor.Text.Printable

/-! The form in which strings and characters appear in narration: on one line, with every
character that would not be seen written by name or number. -/
namespace StringProcessor.Text

/-- One character of a narrated text that stands between two `mark` characters. -/
def narratedIn (mark c : Char) : List Char :=
  if c == mark then ['\\', c]
  else match c with
    | '\\' => ['\\', '\\']
    | '\x00' => ['\\', '0']
    | '\t' => ['\\', 't']
    | '\n' => ['\\', 'n']
    | '\r' => ['\\', 'r']
    | _ => if isPrintable c then [c] else '\\' :: 'u' :: '{' :: hex c.toNat ++ ['}']

def narrated (text : List Char) : String :=
  String.ofList ('"' :: text.flatMap (narratedIn '"') ++ ['"'])

def narratedChar (c : Char) : String := String.ofList ('\x27' :: narratedIn '\x27' c ++ ['\x27'])

end StringProcessor.Text
