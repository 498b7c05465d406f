import StringProcessor.Span

/-! Diagnostics: what the user is told when something is wrong, and where. The components that
find faults word them; here is the form that all of them share. -/
namespace StringProcessor

inductive Diagnostic.Kind
  | illegalCharacter
  | unknownTokenKind
  | unterminatedString
  | malformedStatement
  | undefinedSymbol
  | readOnlySymbol
  | outputFailure
  deriving DecidableEq

def Diagnostic.Kind.category : Kind → String
  | .illegalCharacter => "Tokenizer Error"
  | .unknownTokenKind => "Token Error"
  | .unterminatedString => "Unterminated String"
  | .malformedStatement => "Parse Error"
  | .undefinedSymbol => "Undefined Symbol"
  | .readOnlySymbol => "Read-only Symbol"
  | .outputFailure => "I/O Error"

/-- Where in a list of tokens a statement went wrong: what was being read, the keyword of the
statement if it had begun, and how many tokens had been consumed. -/
structure Diagnostic.Context where
  state : String
  command : Option String
  position : Nat
  deriving DecidableEq

def Diagnostic.Context.text (c : Context) : String :=
  "state: " ++ c.state ++ ", command: " ++ c.command.getD "None" ++
    ", token position: " ++ toString c.position

structure Diagnostic (ι : Type := Nat) where
  kind : Diagnostic.Kind
  span : Span ι
  message : String
  help : Option String := none
  context : Option Diagnostic.Context := none
  deriving DecidableEq

namespace Diagnostic
variable {ι : Type}

def withHelp (d : Diagnostic ι) (help : String) : Diagnostic ι := { d with help := some help }

/-- A token was asked for under a kind that does not exist. -/
def unknownTokenKind (span : Span ι) (tag : String) : Diagnostic ι :=
  { kind := .unknownTokenKind, span
    message := "Unknown token type '" ++ tag ++ "' provided"
    help := some "Valid token types are keyword, string, name, operator and terminator." }

def illegalCharacter (position : Nat) (c : Char) : Diagnostic :=
  { kind := .illegalCharacter, span := .single position
    message := "Illegal character '" ++ c.toString ++
      "' - unable to form a token with this character" }

def unterminatedString (span : Span) (delimiter : Char) : Diagnostic :=
  { kind := .unterminatedString, span
    message := "Unterminated string"
    help := some ("Close the string literal with a matching " ++ delimiter.toString ++
      " before the input ends.") }

def malformedStatement (span : Span ι) (message : String) (context : Context) : Diagnostic ι :=
  { kind := .malformedStatement, span, message, context := some context }

def undefinedSymbol (span : Span) (message : String) : Diagnostic :=
  { kind := .undefinedSymbol, span, message }

def readOnlySymbol (span : Span) (message : String) : Diagnostic :=
  { kind := .readOnlySymbol, span, message
    help := some "SPACE, TAB and NEWLINE are constants; copy them into a new symbol instead." }

def outputFailure (span : Span) (cause : String) : Diagnostic :=
  { kind := .outputFailure, span, message := "Failed to write output: " ++ cause }

end Diagnostic
end StringProcessor
