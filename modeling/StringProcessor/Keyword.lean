/-! The keywords: one for each thing that a statement can do. -/
namespace StringProcessor

inductive Change
  | append
  | set
  | reverse
  deriving DecidableEq

inductive Aspect
  | text
  | length
  | words
  | wordCount
  deriving DecidableEq

inductive Keyword
  | change (what : Change)
  | print (aspect : Aspect)
  | list
  | exit
  deriving DecidableEq

namespace Keyword

def word : Keyword → String
  | .change .append => "append"
  | .change .set => "set"
  | .change .reverse => "reverse"
  | .print .text => "print"
  | .print .length => "printlength"
  | .print .words => "printwords"
  | .print .wordCount => "printwordcount"
  | .list => "list"
  | .exit => "exit"

def all : List Keyword :=
  [.change .append, .change .set, .change .reverse, .print .text, .print .length, .print .words,
    .print .wordCount, .list, .exit]

/-- The keyword written so. Case matters. -/
def ofWord? (word : String) : Option Keyword := all.find? (·.word == word)

theorem ofWord?_word (k : Keyword) : ofWord? k.word = some k := by
  cases k with
  | change what => cases what <;> decide
  | print aspect => cases aspect <;> decide
  | list | exit => decide

theorem word_injective {k k' : Keyword} (h : k.word = k'.word) : k = k' := by
  have he := ofWord?_word k
  rw [h, ofWord?_word] at he
  exact (Option.some.inj he).symm

theorem ofWord?_eq_some_iff {word : String} {k : Keyword} :
    ofWord? word = some k ↔ k.word = word := by
  constructor
  · intro h
    simpa using List.find?_some h
  · rintro rfl
    exact ofWord?_word k

def takesName : Keyword → Bool
  | .change _ => true
  | _ => false

def takesExpression : Keyword → Bool
  | .change .append | .change .set | .print _ => true
  | _ => false

def usage (k : Keyword) : String :=
  "Usage: " ++ k.word ++ (if k.takesName then " <name>" else "") ++
    (if k.takesExpression then " <expression>" else "") ++ ";"

end Keyword
end StringProcessor
