import Mathlib.Data.Finset.Card
import Mathlib.Data.List.Induction
import StringProcessor.Proofs.SymbolTable

/-! Histories of symbol tables. Whatever is written to a table, it is a map from names to what was last
written to them, listed in the order in which the names came up. -/
namespace StringProcessor

namespace SymbolTable

/-- What can be written to a table: the value of a name, which a constant refuses, or a constant. -/
inductive Write
  | set (name value : String)
  | constant (name value : String)
  deriving DecidableEq

def Write.symbol : Write → Symbol
  | set name value => ⟨name, value, false⟩
  | constant name value => ⟨name, value, true⟩

def Write.name (w : Write) : String := w.symbol.name

def write (t : SymbolTable) (w : Write) (k : Insertion := .ordered) :
    Except SymbolFault SymbolTable :=
  match w with
  | .set name value => t.set name value k
  | .constant name value => .ok (t.defineConstant name value k)

/-- The table behind some writes. Those that fail are skipped. -/
def after (t : SymbolTable) (writes : List Write) (k : Insertion := .ordered) : SymbolTable :=
  writes.foldl (fun t w => (t.write w k).toOption.getD t) t

def successes (t : SymbolTable) (writes : List Write) (k : Insertion := .ordered) : List Write :=
  match writes with
  | [] => []
  | w :: writes =>
    match t.write w k with
    | .ok t' => w :: successes t' writes k
    | .error _ => successes t writes k

/-- A constant has been defined under the name. -/
def IsSealed (writes : List Write) (name : String) : Prop := ∃ value, .constant name value ∈ writes

def lastTo (writes : List Write) (name : String) : Option Write :=
  writes.reverse.find? (·.name == name)

private theorem lastTo_concat (writes : List Write) (w : Write) (name : String) :
    lastTo (writes ++ [w]) name = if w.name = name then some w else lastTo writes name := by
  simp only [lastTo, List.reverse_concat, List.find?_cons]
  split <;> simp_all

theorem after_concat (t : SymbolTable) (writes : List Write) (w : Write) :
    t.after (writes ++ [w]) = ((t.after writes).write w).toOption.getD (t.after writes) := by
  rw [after, List.foldl_concat, ← after]

private theorem successes_append (t : SymbolTable) (writes writes' : List Write) :
    t.successes (writes ++ writes') = t.successes writes ++ (t.after writes).successes writes' := by
  induction writes generalizing t with
  | nil => rfl
  | cons w writes ih =>
    have ha : t.after (w :: writes) = ((t.write w).toOption.getD t).after writes := rfl
    rw [List.cons_append, successes, successes, ha]
    cases t.write w with
    | ok t' => simp [ih, Except.toOption]
    | error fault => simp [ih, Except.toOption]

/-- A write succeeds unless it would give a constant another value. -/
private theorem write_cases (t : SymbolTable) (w : Write) :
    t.write w = .ok (t.define w.symbol) ∧
        (w.symbol.readonly ∨ ∀ s, t.find? w.name = some s → s.readonly = false) ∨
      t.write w = .error (.readOnly w.name) ∧ w.symbol.readonly = false ∧
        ∃ s, t.find? w.name = some s ∧ s.readonly := by
  cases w with
  | constant name value => exact .inl ⟨rfl, .inl rfl⟩
  | set name value =>
    by_cases hr : (t.find? name).any (·.readonly)
    · refine .inr ⟨if_pos hr, rfl, ?_⟩
      exact (Option.any_eq_true ..).mp hr
    · refine .inl ⟨if_neg hr, .inr fun s hs => ?_⟩
      have hf : t.find? name = some s := hs
      simpa [hf] using hr

private theorem isSealed_concat {writes : List Write} {w : Write} {name : String} :
    IsSealed (writes ++ [w]) name ↔ IsSealed writes name ∨ w.symbol.readonly ∧ w.name = name := by
  have hw : (∃ value, .constant name value = w) ↔ w.symbol.readonly ∧ w.name = name := by
    cases w <;> simp [Write.symbol, Write.name, eq_comm]
  simp [IsSealed, exists_or, hw]

private theorem find?_define_symbol (t : SymbolTable) (w : Write) (name : String) :
    (t.define w.symbol).find? name = if w.name = name then some w.symbol else t.find? name :=
  t.find?_define w.symbol name

private theorem eraseDups_concat (names : List String) (name : String) :
    (names ++ [name]).eraseDups =
      if name ∈ names then names.eraseDups else names.eraseDups ++ [name] := by
  rw [List.eraseDups_append]
  split <;> simp_all [List.removeAll, List.eraseDups_cons]

/-- The table is the map that the writes describe: a name stands for what the last successful write to
it left, the names come in the order of the first successful write to each, the constants are those that
have been defined, and no name that was written to is missing. -/
structure Records (t : SymbolTable) (writes done : List Write) : Prop where
  find : ∀ name, t.find? name = (lastTo done name).map Write.symbol
  names : t.symbols.map (·.name) = (done.map Write.name).eraseDups
  constants : ∀ name, (t.find? name).any (·.readonly) ↔ IsSealed writes name
  written : ∀ name, (t.find? name).isSome ↔ name ∈ writes.map Write.name

namespace Records
variable {t : SymbolTable} {writes done : List Write}

theorem empty : Records empty [] [] where
  find _ := rfl
  names := rfl
  constants _ := by simp [IsSealed, SymbolTable.empty, find?]
  written _ := by simp [SymbolTable.empty, find?]

/-- A write that succeeds is the last to its name. -/
private theorem succeed (h : Records t writes done) {w : Write}
    (hw : w.symbol.readonly ∨ ∀ s, t.find? w.name = some s → s.readonly = false) :
    Records (t.define w.symbol) (writes ++ [w]) (done ++ [w]) where
  find name := by
    rw [find?_define_symbol, lastTo_concat, h.find]
    split <;> rfl
  names := by
    rw [symbols_define, Symbol.names_place, List.map_append, List.map_singleton, eraseDups_concat,
      h.names]
    simp only [List.mem_eraseDups, Write.name]
    rfl
  constants name := by
    rw [find?_define_symbol, isSealed_concat, ← h.constants]
    split
    · rename_i same
      subst same
      have hkept : (t.find? w.name).any (·.readonly) → w.symbol.readonly := by
        rw [Option.any_eq_true]
        rintro ⟨s, hs, hr⟩
        exact hw.resolve_right fun hfree => by simp [hfree s hs] at hr
      simpa using hkept
    · rename_i differs
      simp [differs]
  written name := by
    rw [find?_define_symbol, List.map_append, List.mem_append, List.map_singleton, List.mem_singleton,
      ← h.written]
    split
    · rename_i same
      exact ⟨fun _ => .inr same.symm, fun _ => rfl⟩
    · rename_i differs
      simp [Ne.symm differs]

/-- A write that fails changes nothing, and its name had been written to before. -/
theorem fail (h : Records t writes done) {w : Write} (hw : w.symbol.readonly = false)
    (hs : (t.find? w.name).isSome) : Records t (writes ++ [w]) done where
  find := h.find
  names := h.names
  constants name := by
    rw [isSealed_concat, h.constants]
    simp [hw]
  written name := by
    rw [List.map_append, List.mem_append, ← h.written]
    constructor
    · exact .inl
    · rintro (hn | hn)
      · exact hn
      · rwa [List.mem_singleton.mp hn]

end Records

/-- What is written to an empty table is recorded. -/
theorem records_after (writes : List Write) :
    Records (empty.after writes) writes (empty.successes writes) := by
  induction writes using List.reverseRecOn with
  | nil => exact .empty
  | append_singleton writes w ih =>
    rw [after_concat, successes_append, successes]
    rcases write_cases (empty.after writes) w with ⟨hw, hfree⟩ | ⟨hw, hv, s, hs, -⟩
    · rw [hw]
      exact ih.succeed hfree
    · rw [hw]
      simpa [successes, Except.toOption] using ih.fail hv (by rw [hs]; rfl)

inductive Origin
  | blank
  | seeded

def Origin.table : Origin → SymbolTable
  | blank => empty
  | seeded => constants

def Origin.writes : Origin → List Write
  | blank => []
  | seeded => [.constant "SPACE" " ", .constant "TAB" "\t", .constant "NEWLINE" "\n"]

theorem Origin.records (origin : Origin) (writes : List Write) :
    Records (origin.table.after writes) (origin.writes ++ writes)
      (origin.writes ++ origin.table.successes writes) := by
  have ht : empty.after origin.writes = origin.table := by cases origin <;> rfl
  have hd : empty.successes origin.writes = origin.writes := by cases origin <;> rfl
  have h := records_after (origin.writes ++ writes)
  rwa [successes_append, hd, after, List.foldl_append, ← after, ← after, ht] at h

/-- A symbol is found under its own name, since no other symbol has it. -/
theorem find?_of_mem {t : SymbolTable} {s : Symbol} (h : s ∈ t.symbols) : t.find? s.name = some s := by
  obtain ⟨before, after, he⟩ := List.append_of_mem h
  have hn := t.nodup
  rw [he, List.map_append, List.map_cons, List.nodup_append] at hn
  have hb : before.find? (·.name == s.name) = none := by
    rw [List.find?_eq_none]
    intro other ho
    simpa using hn.2.2 _ (List.mem_map_of_mem ho) s.name List.mem_cons_self
  rw [find?, he, List.find?_append, hb]
  simp

/-- A name is refused a value if a constant has ever been defined under it, and a value that is refused
changes nothing. A name stands for the value of the last successful write to it; it is that of a constant
if it has ever been; and every name that was written to is listed once, in the order of the first
successful writes. All that is asked of the map that takes the symbols in is that it keeps their order. -/
theorem history_refines_map (k : Insertion) (origin : Origin) (writes : List Write) :
    let t := origin.table.after writes k
    let written := origin.writes ++ writes
    let done := origin.writes ++ origin.table.successes writes k
    (∀ name value, (t.set name value k = .error (.readOnly name) ↔ IsSealed written name) ∧
      ∀ fault, t.set name value k = .error fault →
        fault = .readOnly name ∧ origin.table.after (writes ++ [.set name value]) k = t) ∧
    (∀ name, t.get name = match lastTo done name with
      | some w => .ok w.symbol.value
      | none => .error (.undefined name)) ∧
    (∀ name, t.contains name ↔ ∃ value, t.get name = .ok value) ∧
    (∀ s ∈ t.symbols, (s.readonly ↔ IsSealed written s.name) ∧ t.find? s.name = some s) ∧
    (t.symbols.map (·.name) = (done.map Write.name).eraseDups ∧ (t.symbols.map (·.name)).Nodup ∧
      ∀ name, name ∈ t.symbols.map (·.name) ↔ name ∈ written.map Write.name) ∧
    t.size = (written.map Write.name).toFinset.card := by
  obtain rfl := k.eq_ordered
  intro t written done
  have h : Records t written done := origin.records writes
  have hm (name : String) : name ∈ t.symbols.map (·.name) ↔ name ∈ written.map Write.name := by
    rw [← h.written]
    simp [find?]
  refine ⟨fun name value => ⟨?_, fun fault hf => ?_⟩, fun name => ?_, fun name => ?_, fun s hs => ?_,
    ⟨h.names, t.nodup, hm⟩, ?_⟩
  · rw [← h.constants, set]
    split <;> simp_all
  · have hw : t.write (.set name value) = .error fault := hf
    rcases write_cases t (.set name value) with ⟨hok, -⟩ | ⟨herror, -⟩
    · rw [hok] at hw
      cases hw
    · refine ⟨Except.error.inj (hw.symm.trans herror), ?_⟩
      rw [after_concat, hw]
      rfl
  · rw [get, h.find]
    cases lastTo done name <;> rfl
  · rw [contains, get]
    cases t.find? name <;> simp
  · have hf := find?_of_mem hs
    refine ⟨?_, hf⟩
    rw [← h.constants, hf, Option.any_some]
  · have hnames : (written.map Write.name).toFinset = (t.symbols.map (·.name)).toFinset := by
      ext name
      rw [List.mem_toFinset, List.mem_toFinset, hm]
    rw [hnames, List.toFinset_card_of_nodup t.nodup, List.length_map, size]

/-- A constant takes the place of a variable and then refuses a value. -/
example : (empty.after [.set "a" "1", .set "b" "2", .constant "a" "3", .set "a" "4"]).symbols =
    [⟨"a", "3", true⟩, ⟨"b", "2", false⟩] := by decide

end SymbolTable
end StringProcessor
