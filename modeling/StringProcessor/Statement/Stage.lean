import StringProcessor.Command

/-! The stages of a statement: what its next token may be, given the tokens before it. -/
namespace StringProcessor.Statement
variable {ι : Type}

inductive Head
  | append (target : String)
  | set (target : String)
  | print (aspect : Aspect)
  deriving DecidableEq

def Head.keyword : Head → Keyword
  | .append _ => .change .append
  | .set _ => .change .set
  | .print aspect => .print aspect

def Head.action (value : Expression ι) : Head → Action ι
  | .append target => .append target value
  | .set target => .set target value
  | .print aspect => .print aspect value

/-- How far a statement has been read. Terms are kept latest first, and the token of the latest
term is kept beside them. -/
inductive Stage (ι : Type := Nat)
  | target (what : Change)
  | term (head : Head) (terms : List (Term ι))
  | joint (head : Head) (terms : List (Term ι)) (last : Token ι)
  | closing (action : Action ι)
  deriving DecidableEq

def Stage.keyword : Stage ι → Keyword
  | .target what => .change what
  | .term head _ => head.keyword
  | .joint head _ _ => head.keyword
  | .closing action => action.keyword

def Stage.ofKeyword : Keyword → Stage ι
  | .change what => .target what
  | .print aspect => .term (.print aspect) []
  | .list => .closing .list
  | .exit => .closing .exit

def Stage.ofTarget (name : String) : Change → Stage ι
  | .append => .term (.append name) []
  | .set => .term (.set name) []
  | .reverse => .closing (.reverse name)

/-- A place in a list of statements: between two of them, or inside one that began at the given
position of the source. -/
inductive Phase (ι : Type := Nat)
  | between
  | inside (start : ι) (stage : Stage ι)
  deriving DecidableEq

/-- What a parser is doing: nothing, or looking for the keyword of a statement, or reading the statement
behind one. -/
inductive State
  | ready
  | root
  | command (keyword : Keyword)
  deriving DecidableEq

def State.label : State → String
  | .ready => "ready"
  | .root => "root"
  | .command keyword => "command(" ++ keyword.word ++ ")"

def State.keyword? : State → Option Keyword
  | .command keyword => some keyword
  | _ => none

def Phase.state : Phase ι → State
  | .between => .root
  | .inside _ stage => .command stage.keyword

inductive Step (ι : Type := Nat)
  | advance (phase : Phase ι)
  | complete (command : Command ι)
  | reject

/-- Reads one token of a statement. A term is a string or a name, `+` joins two terms, and only the
terminator completes a command. -/
def Stage.step (start : ι) (t : Token ι) : Stage ι → Step ι
  | .target what =>
    match t.kind with
    | .name => .advance (.inside start (.ofTarget t.text what))
    | _ => .reject
  | .term head terms =>
    match Term.ofToken? t with
    | some operand => .advance (.inside start (.joint head (operand :: terms) t))
    | none => .reject
  | .joint head terms _ =>
    match t.kind with
    | .operator => .advance (.inside start (.term head terms))
    | .terminator => .complete ⟨head.action terms.reverse, ⟨start, t.span.stop⟩⟩
    | _ => .reject
  | .closing action =>
    match t.kind with
    | .terminator => .complete ⟨action, ⟨start, t.span.stop⟩⟩
    | _ => .reject

def Phase.step (t : Token ι) : Phase ι → Step ι
  | .between =>
    match t.keyword? with
    | some k => .advance (.inside t.span.start (.ofKeyword k))
    | none => .reject
  | .inside start stage => stage.step start t

end StringProcessor.Statement
