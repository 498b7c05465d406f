/-! Hexadecimal numerals, as used for characters that are written by number. -/
namespace StringProcessor.Text

def hex (n : Nat) : List Char := Nat.toDigits 16 n

def upperHex (n : Nat) : List Char := (hex n).map Char.toUpper

/-- The two-digit upper-case numeral of a number below 256. -/
def upperHexByte (n : Nat) : List Char := upperHex (n / 16) ++ upperHex (n % 16)

end StringProcessor.Text
