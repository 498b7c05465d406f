import StringProcessor.Command

/-! Parts of actions: the symbol that is changed, the expression, the symbols that it names, and what is
left of both when it does not matter where the terms stand. -/
namespace StringProcessor

def Term.name? : Term → Option String
  | .symbol name _ => some name
  | .literal .. => none

def Expression.names (e : Expression) : List String := e.filterMap Term.name?

theorem Expression.mem_names {e : Expression} {name : String} :
    name ∈ e.names ↔ ∃ t ∈ e, t.name? = some name := List.mem_filterMap

namespace Action

def target? : Action → Option String
  | .append target _ | .set target _ | .reverse target => some target
  | _ => none

def value? : Action → Option Expression
  | .append _ value | .set _ value | .print _ value => some value
  | _ => none

/-- The symbol whose value the action builds upon. -/
def base? : Action → Option String
  | .append target _ | .reverse target => some target
  | _ => none

def names (action : Action) : List String := (action.value?.getD []).names

end Action

def Term.unplaced : Term → Term
  | .literal text _ => .literal text (.single 0)
  | .symbol name _ => .symbol name (.single 0)

def Action.unplaced : Action → Action
  | .append target value => .append target (value.map Term.unplaced)
  | .set target value => .set target (value.map Term.unplaced)
  | .print aspect value => .print aspect (value.map Term.unplaced)
  | action => action

end StringProcessor
