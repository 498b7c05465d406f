import StringProcessor.Proofs.Command
import StringProcessor.Scan

/-! Writing programs down. A command is written as its keyword, its name, its terms joined by `+`, and
a terminator. Literals stand between quotes of either kind, and a backslash goes before every
backslash and every quote of that kind in them. -/
namespace StringProcessor.Writing

inductive Quote
  | double
  | single

def Quote.mark : Quote → Char
  | double => '"'
  | single => '\x27'

/-- How a command is laid out: the quotes of its terms, and the spaces before its name and before its
terms, beyond the one that must be there, and before its terminator. -/
structure Layout where
  quote : Nat → Quote
  beforeName : Nat
  beforeValue : Nat
  beforeClose : Nat

def spaces (n : Nat) : List Char := List.replicate n ' '

def escape (quote : Quote) (text : List Char) : List Char :=
  text.flatMap fun c => if c = quote.mark ∨ c = '\\' then ['\\', c] else [c]

def term (quote : Quote) : Term → List Char
  | .literal text _ => quote.mark :: (escape quote text.toList ++ [quote.mark])
  | .symbol name _ => name.toList

def value (quote : Nat → Quote) (e : Expression) : List Char :=
  [' ', '+', ' '].intercalate (e.mapIdx fun i t => term (quote i) t)

def command (layout : Layout) (c : Command) : List Char :=
  c.keyword.word.toList ++
    c.action.target?.elim [] (fun name => spaces (layout.beforeName + 1) ++ name.toList) ++
    c.action.value?.elim [] (fun e => spaces (layout.beforeValue + 1) ++ value layout.quote e) ++
    spaces layout.beforeClose ++ [';']

def program (layout : Nat → Layout) (cs : List Command) : String :=
  String.ofList (cs.mapIdx fun i c => command (layout i) c).flatten

/-- A word that is no keyword. -/
def IsName (name : String) : Prop :=
  (∃ first others, name.toList = first :: others ∧ first.isAlpha ∧ ∀ c ∈ others, isNameChar c) ∧
    name ∉ Keyword.all.map Keyword.word

/-- Names are names, and expressions have terms. Nothing is asked of literals. -/
structure Writable (action : Action) : Prop where
  target : ∀ name ∈ action.target?, IsName name
  value : ∀ e ∈ action.value?, e ≠ [] ∧ ∀ name span, Term.symbol name span ∈ e → IsName name

end StringProcessor.Writing
