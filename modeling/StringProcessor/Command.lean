import StringProcessor.Token

/-! Commands: statements once they are read. -/
namespace StringProcessor

inductive Term (ι : Type := Nat)
  | literal (text : String) (span : Span ι)
  | symbol (name : String) (span : Span ι)
  deriving DecidableEq

variable {ι : Type}

def Term.ofToken? (t : Token ι) : Option (Term ι) :=
  match t.kind with
  | .string => some (.literal t.text t.span)
  | .name => some (.symbol t.text t.span)
  | _ => none

def Term.span : Term ι → Span ι
  | .literal _ span | .symbol _ span => span

/-- Terms whose values are joined from left to right. -/
abbrev Expression (ι : Type := Nat) := List (Term ι)

def Expression.literal (text : String) : Expression := [.literal text (.single 0)]

inductive Action (ι : Type := Nat)
  | append (target : String) (value : Expression ι)
  | set (target : String) (value : Expression ι)
  | reverse (target : String)
  | print (aspect : Aspect) (value : Expression ι)
  | list
  | exit
  deriving DecidableEq

def Action.keyword : Action ι → Keyword
  | .append .. => .change .append
  | .set .. => .change .set
  | .reverse _ => .change .reverse
  | .print aspect _ => .print aspect
  | .list => .list
  | .exit => .exit

/-- An action and the statement that asks for it, from its keyword to its terminator. -/
structure Command (ι : Type := Nat) where
  action : Action ι
  span : Span ι
  deriving DecidableEq

def Command.keyword (c : Command ι) : Keyword := c.action.keyword

end StringProcessor
