import StringProcessor.Diagnostic
import StringProcessor.Statement.Stage

/-! Faults of statements: the token at which a list of tokens stops being a list of statements, or
the end that comes too early. -/
namespace StringProcessor.Statement
variable {ι : Type}

private def found : Option (Token ι) → String
  | some t => t.mention
  | none => "END OF INPUT"

def Stage.complaint (next : Option (Token ι)) : Stage ι → String
  | .target _ => "Unexpected " ++ found next ++ ", expected name token"
  | .closing _ => "Unexpected " ++ found next ++ ", expected terminator token"
  | .term head _ =>
    "Expression error for " ++ head.keyword.word ++ " command: " ++
      match next with
      | some t => "Unexpected " ++ t.mention ++ " inside expression; expected name or string"
      | none => "Expression definition incomplete.. more terms expected"
  | .joint head _ last =>
    "Expression error for " ++ head.keyword.word ++ " command: " ++
      match next with
      | some t =>
        "Unexpected " ++ t.mention ++ " inside expression; expected terminator (;) or operator (+)"
      | none =>
        "Expected terminator (;) or operator (+) following " ++ last.description ++
          " in expression"

def Phase.complaint (next : Option (Token ι)) : Phase ι → String
  | .between => "Unexpected " ++ found next ++ " found. Expected keyword"
  | .inside _ stage => stage.complaint next

def Phase.advice : Phase ι → String
  | .between => "Every statement starts with a command such as set, print or list."
  | .inside _ stage => stage.keyword.usage

/-- A place among tokens: the one before it, if any, and those behind it. -/
structure Gap (ι : Type := Nat) where
  position : Nat
  before : Option (Token ι)
  after : List (Token ι)

variable [Add ι] [OfNat ι 0] [OfNat ι 1]

/-- What a fault points at: the next token or, at the end, the character behind the last one. -/
def Gap.span (g : Gap ι) : Span ι :=
  match g.after, g.before with
  | t :: _, _ => t.span
  | [], some t => .single t.span.stop
  | [], none => .single 0

def Phase.fault (phase : Phase ι) (g : Gap ι) : Diagnostic ι :=
  (Diagnostic.malformedStatement g.span (phase.complaint g.after.head?)
    { state := phase.state.label
      command := phase.state.keyword?.map Keyword.word
      position := g.position }).withHelp phase.advice

end StringProcessor.Statement
