import StringProcessor.Text.Hex

/-! The quoted form in which symbol values are listed. It shows every value on one line of text
without control characters, and no two values alike. -/
namespace StringProcessor.Text

/-- Control characters: the code points below the space and those from DEL to U+009F. -/
def isControl (c : Char) : Bool := c.toNat < 0x20 || (0x7F ≤ c.toNat && c.toNat < 0xA0)

/-- The letter that names a character behind a backslash. A quote and a backslash name
themselves. -/
def quotedLetter? (c : Char) : Option Char :=
  match c.toNat with
  | 0x22 => some '"'
  | 0x5C => some '\\'
  | 0x07 => some 'a'
  | 0x08 => some 'b'
  | 0x09 => some 't'
  | 0x0A => some 'n'
  | 0x0B => some 'v'
  | 0x0C => some 'f'
  | 0x0D => some 'r'
  | 0x1B => some 'e'
  | _ => none

/-- One character of a quoted value: by letter, by number (two digits in ASCII, braces above it),
or as itself. -/
def quotedChar (c : Char) : List Char :=
  match quotedLetter? c with
  | some letter => ['\\', letter]
  | none =>
    if !isControl c then [c]
    else if c.toNat < 0x80 then '\\' :: 'x' :: upperHexByte c.toNat
    else '\\' :: 'u' :: '{' :: upperHex c.toNat ++ ['}']

def quotedChars (text : List Char) : List Char := '"' :: text.flatMap quotedChar ++ ['"']

def quoted (value : String) : String := String.ofList (quotedChars value.toList)

end StringProcessor.Text
