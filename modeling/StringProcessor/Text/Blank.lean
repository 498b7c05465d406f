import StringProcessor.Text.CodeRange

/-! Blank characters: what separates the tokens of a line and what may follow a word. -/
namespace StringProcessor.Text

/-- The code points with the White_Space property. -/
def blankRanges : List CodeRange :=
  [(0x9, 0xD), (0x20, 0x20), (0x85, 0x85), (0xA0, 0xA0), (0x1680, 0x1680), (0x2000, 0x200A),
    (0x2028, 0x2029), (0x202F, 0x202F), (0x205F, 0x205F), (0x3000, 0x3000)]

/-- Whether a character is white space. Zero-width spaces and joiners are not. -/
def isBlank (c : Char) : Bool := inRanges blankRanges c.toNat

end StringProcessor.Text
