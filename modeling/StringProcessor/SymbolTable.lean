import StringProcessor.Text.Quoted

/-! The symbol table: named values in the order of their first definition. -/
namespace StringProcessor

structure Symbol where
  name : String
  value : String
  readonly : Bool
  deriving DecidableEq

def Symbol.listing (s : Symbol) : String :=
  s.name ++ " -> " ++ Text.quoted s.value ++ " " ++ if s.readonly then "[readonly]" else ""

inductive SymbolFault
  | undefined (name : String)
  | readOnly (name : String)
  deriving DecidableEq

def SymbolFault.message : SymbolFault → String
  | .undefined name => "Cannot find symbol " ++ name
  | .readOnly name => "Cannot change value of symbol " ++ name ++ " as it's readonly"

/-- How a map in order of insertion takes a symbol in: a new name comes last, and what is put under a known
name takes the place of what was there. -/
structure Insertion where
  place : List Symbol → Symbol → List Symbol
  new : ∀ symbols s, s.name ∉ symbols.map (·.name) → place symbols s = symbols ++ [s]
  known : ∀ before old after s, old.name = s.name → s.name ∉ before.map (·.name) →
    place (before ++ old :: after) s = before ++ s :: after

theorem Insertion.nodup (k : Insertion) {symbols : List Symbol} (s : Symbol)
    (h : (symbols.map (·.name)).Nodup) : ((k.place symbols s).map (·.name)).Nodup := by
  by_cases hm : s.name ∈ symbols.map (·.name)
  · obtain ⟨old, hold, hname⟩ := List.mem_map.mp hm
    obtain ⟨before, after, rfl⟩ := List.append_of_mem hold
    rw [List.map_append, List.map_cons, hname] at h
    have hb : s.name ∉ before.map (·.name) := fun hb =>
      (List.nodup_append.mp h).2.2 _ hb _ (.head _) rfl
    rwa [k.known before old after s hname hb, List.map_append, List.map_cons]
  · rw [k.new symbols s hm, List.map_append, List.nodup_append]
    refine ⟨h, by simp, fun name hn other ho => ?_⟩
    rw [List.mem_singleton.mp ho]
    rintro rfl
    exact hm hn

namespace Symbol

def place (symbols : List Symbol) (s : Symbol) : List Symbol :=
  match symbols with
  | [] => [s]
  | other :: rest => if other.name = s.name then s :: rest else other :: place rest s

/-- New symbols come last. -/
theorem place_new (symbols : List Symbol) (s : Symbol) (h : s.name ∉ symbols.map (·.name)) :
    place symbols s = symbols ++ [s] := by
  induction symbols with
  | nil => rfl
  | cons other rest ih =>
    obtain ⟨hother, hrest⟩ : s.name ≠ other.name ∧ s.name ∉ rest.map (·.name) := by simpa using h
    rw [place, if_neg hother.symm, ih hrest]
    rfl

theorem place_known (before : List Symbol) (old : Symbol) (after : List Symbol) (s : Symbol)
    (hold : old.name = s.name) (h : s.name ∉ before.map (·.name)) :
    place (before ++ old :: after) s = before ++ s :: after := by
  induction before with
  | nil => rw [List.nil_append, place, if_pos hold, List.nil_append]
  | cons other before ih =>
    obtain ⟨hother, hbefore⟩ : s.name ≠ other.name ∧ s.name ∉ before.map (·.name) := by simpa using h
    rw [List.cons_append, place, if_neg hother.symm, ih hbefore]
    rfl

end Symbol

def Insertion.ordered : Insertion := ⟨Symbol.place, Symbol.place_new, Symbol.place_known⟩

/-- Symbols in the order of their first definition, no two of one name. -/
structure SymbolTable where
  symbols : List Symbol := []
  nodup : (symbols.map (·.name)).Nodup := by decide

namespace SymbolTable

def empty : SymbolTable := {}

def find? (t : SymbolTable) (name : String) : Option Symbol :=
  t.symbols.find? (·.name == name)

def contains (t : SymbolTable) (name : String) : Bool := (t.find? name).isSome

def get (t : SymbolTable) (name : String) : Except SymbolFault String :=
  match t.find? name with
  | some s => .ok s.value
  | none => .error (.undefined name)

/-- Defines or redefines a symbol, whatever it was before. -/
def define (t : SymbolTable) (s : Symbol) (k : Insertion := .ordered) : SymbolTable :=
  ⟨k.place t.symbols s, k.nodup s t.nodup⟩

def defineConstant (t : SymbolTable) (name value : String) (k : Insertion := .ordered) :
    SymbolTable :=
  t.define ⟨name, value, true⟩ k

/-- Gives a name a value, unless the name is that of a constant. -/
def set (t : SymbolTable) (name value : String) (k : Insertion := .ordered) :
    Except SymbolFault SymbolTable :=
  if (t.find? name).any (·.readonly) then .error (.readOnly name)
  else .ok (t.define ⟨name, value, false⟩ k)

def size (t : SymbolTable) : Nat := t.symbols.length

def listing (t : SymbolTable) : List String := t.symbols.map Symbol.listing

def constants : SymbolTable :=
  ((empty.defineConstant "SPACE" " ").defineConstant "TAB" "\t").defineConstant "NEWLINE" "\n"

end SymbolTable
end StringProcessor
