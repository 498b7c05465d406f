import StringProcessor.SymbolTable

/-! Storing values. All that storing a value changes in a symbol table is the symbol of that name, so
values can be stored under different names in either order. -/
namespace StringProcessor

/-- The variable of this name has got this value, in its place or, if there was none, as the last
symbol. No other symbol differs. -/
inductive Stored (name value : String) : List Symbol → List Symbol → Prop
  | changed {before after : List Symbol} {old : String} :
      Stored name value (before ++ ⟨name, old, false⟩ :: after)
        (before ++ ⟨name, value, false⟩ :: after)
  | added {symbols : List Symbol} : name ∉ symbols.map (·.name) →
      Stored name value symbols (symbols ++ [⟨name, value, false⟩])

/-- A symbol is placed where the first of its name is, or behind all others. -/
theorem Symbol.place_cases (symbols : List Symbol) (s : Symbol) :
    s.name ∉ symbols.map (·.name) ∧ place symbols s = symbols ++ [s] ∨
      ∃ before old after, symbols = before ++ old :: after ∧ old.name = s.name ∧
        s.name ∉ before.map (·.name) ∧ place symbols s = before ++ s :: after := by
  induction symbols with
  | nil => exact .inl ⟨by simp, rfl⟩
  | cons other rest ih =>
    unfold place
    split
    · rename_i same
      exact .inr ⟨[], other, rest, rfl, same, by simp, rfl⟩
    · rename_i differs
      rcases ih with ⟨hn, hp⟩ | ⟨before, old, after, rfl, ho, hn, hp⟩
      · exact .inl ⟨by simpa [hn] using Ne.symm differs, by rw [hp]; rfl⟩
      · exact .inr ⟨other :: before, old, after, rfl, ho, by simpa [hn] using Ne.symm differs,
          by rw [hp]; rfl⟩

/-- Nothing else than how a map in order of insertion takes symbols in decides where they are. -/
theorem Insertion.eq_ordered (k : Insertion) : k = .ordered := by
  have hplace : k.place = Symbol.place := by
    funext symbols s
    rcases Symbol.place_cases symbols s with ⟨hn, hp⟩ | ⟨before, old, after, rfl, ho, hn, hp⟩
    · rw [hp, k.new symbols s hn]
    · rw [hp, k.known before old after s ho hn]
  obtain ⟨place, new, known⟩ := k
  cases hplace
  rfl

theorem Symbol.find?_place (symbols : List Symbol) (s : Symbol) (name : String) :
    (place symbols s).find? (·.name == name) =
      if s.name = name then some s else symbols.find? (·.name == name) := by
  induction symbols with
  | nil => by_cases h : s.name = name <;> simp [place, h]
  | cons other rest ih =>
    unfold place
    split
    · rename_i same
      simp only [List.find?_cons, same]
      grind
    · simp only [List.find?_cons, ih]
      grind

theorem Symbol.names_place (symbols : List Symbol) (s : Symbol) :
    (place symbols s).map (·.name) = if s.name ∈ symbols.map (·.name) then symbols.map (·.name)
      else symbols.map (·.name) ++ [s.name] := by
  rcases place_cases symbols s with ⟨hn, hp⟩ | ⟨before, old, after, rfl, ho, -, hp⟩
  · rw [if_neg hn, hp, List.map_append]
    rfl
  · rw [if_pos (by simp [ho]), hp]
    simp [ho]

/-- Of two symbols that are placed under one name the second one is left. -/
theorem Symbol.place_place (symbols : List Symbol) {s s' : Symbol} (h : s.name = s'.name) :
    place (place symbols s) s' = place symbols s' := by
  induction symbols with
  | nil => simp [place, h]
  | cons other rest ih =>
    by_cases ho : other.name = s'.name
    · simp [place, h, ho]
    · simp [place, h, ho, ih]

/-- Symbols of different names keep out of each other's way, unless both are new. -/
theorem Symbol.place_comm {symbols : List Symbol} {x y : Symbol} (hne : x.name ≠ y.name)
    (h : x.name ∈ symbols.map (·.name) ∨ y.name ∈ symbols.map (·.name)) :
    place (place symbols x) y = place (place symbols y) x := by
  induction symbols with
  | nil => simp at h
  | cons other rest ih =>
    by_cases hx : other.name = x.name
    · simp [place, hx, hne]
    · by_cases hy : other.name = y.name
      · simp [place, hy, hne.symm]
      · have hrest : x.name ∈ rest.map (·.name) ∨ y.name ∈ rest.map (·.name) := by
          simpa [Ne.symm hx, Ne.symm hy] using h
        simp [place, hx, hy, ih hrest]

theorem Symbol.place_both_new {symbols : List Symbol} {x y : Symbol}
    (hx : x.name ∉ symbols.map (·.name)) (hy : y.name ∉ symbols.map (·.name)) (hne : x.name ≠ y.name) :
    place (place symbols x) y = symbols ++ [x, y] := by
  have hy' : y.name ∉ (symbols ++ [x]).map (·.name) := by simpa [hne.symm] using hy
  rw [place_new _ _ hx, place_new _ _ hy', List.append_assoc]
  rfl

theorem SymbolTable.eq_of_symbols {t t' : SymbolTable} (h : t.symbols = t'.symbols) : t = t' := by
  cases t
  cases h
  rfl

theorem SymbolTable.symbols_define (t : SymbolTable) (s : Symbol) :
    (t.define s).symbols = Symbol.place t.symbols s := rfl

theorem SymbolTable.find?_define (t : SymbolTable) (s : Symbol) (name : String) :
    (t.define s).find? name = if s.name = name then some s else t.find? name :=
  Symbol.find?_place t.symbols s name

theorem SymbolTable.define_define (t : SymbolTable) {s s' : Symbol} (h : s.name = s'.name) :
    (t.define s).define s' = t.define s' :=
  eq_of_symbols (Symbol.place_place t.symbols h)

def SymbolTable.update (t : SymbolTable) (change : Option Symbol) : SymbolTable :=
  change.elim t (t.define ·)

theorem SymbolTable.find?_update {t : SymbolTable} {change : Option Symbol} {name : String}
    (h : ∀ s ∈ change, s.name ≠ name) : (t.update change).find? name = t.find? name := by
  cases change with
  | none => rfl
  | some s => exact (t.find?_define s name).trans (if_neg (h s rfl))

theorem SymbolTable.contains_iff {t : SymbolTable} {name : String} :
    t.contains name ↔ name ∈ t.symbols.map (·.name) := by
  simp [contains, find?]

/-- Changes under different names can be made in either order. The tables differ only if both names are
new, and then in which of them comes first. -/
theorem SymbolTable.update_comm (t : SymbolTable) {change change' : Option Symbol} {name name' : String}
    (h : ∀ s ∈ change, s.name = name) (h' : ∀ s ∈ change', s.name = name') (hne : name ≠ name') :
    (t.update change).update change' = (t.update change').update change ∨
      ¬ t.contains name ∧ ¬ t.contains name' ∧ ∃ x y, x.name = name ∧ y.name = name' ∧
        ((t.update change).update change').symbols = t.symbols ++ [x, y] ∧
        ((t.update change').update change).symbols = t.symbols ++ [y, x] := by
  cases change with
  | none => exact .inl rfl
  | some x =>
    cases change' with
    | none => exact .inl rfl
    | some y =>
      obtain rfl := h x rfl
      obtain rfl := h' y rfl
      rw [contains_iff, contains_iff]
      by_cases hold : x.name ∈ t.symbols.map (·.name) ∨ y.name ∈ t.symbols.map (·.name)
      · exact .inl (eq_of_symbols (Symbol.place_comm hne hold))
      · obtain ⟨hx, hy⟩ := not_or.mp hold
        exact .inr ⟨hx, hy, x, y, rfl, rfl, Symbol.place_both_new hx hy hne,
          Symbol.place_both_new hy hx hne.symm⟩

theorem SymbolTable.find?_update_comm (t : SymbolTable) {change change' : Option Symbol}
    {name name' : String} (h : ∀ s ∈ change, s.name = name) (h' : ∀ s ∈ change', s.name = name')
    (hne : name ≠ name') (other : String) :
    ((t.update change).update change').find? other = ((t.update change').update change).find? other := by
  cases change with
  | none => rfl
  | some x =>
    cases change' with
    | none => rfl
    | some y =>
      obtain rfl := h x rfl
      obtain rfl := h' y rfl
      change ((t.define x).define y).find? other = ((t.define y).define x).find? other
      simp only [find?_define]
      by_cases hx : x.name = other
      · have hy : y.name ≠ other := fun hy => hne (hx.trans hy.symm)
        rw [if_neg hy, if_pos hx, if_pos hx]
      · rw [if_neg hx, if_neg hx]

/-- A value that is not refused is stored. -/
theorem SymbolTable.set_stored {t t' : SymbolTable} {name value : String}
    (h : t.set name value = .ok t') : Stored name value t.symbols t'.symbols := by
  unfold set at h
  split at h
  · cases h
  rename_i hr
  obtain rfl := Except.ok.inj h
  rw [find?] at hr
  rcases Symbol.place_cases t.symbols ⟨name, value, false⟩ with
    ⟨hn, hp⟩ | ⟨before, old, after, hs, ho, hn, hp⟩
  · rw [symbols_define, hp]
    exact .added hn
  · have hfind : t.symbols.find? (·.name == name) = some old := by
      have hb : before.find? (·.name == name) = none := by
        simpa [List.find?_eq_none] using hn
      rw [hs, List.find?_append, hb]
      simp [show old.name = name from ho]
    obtain ⟨oldName, oldValue, readonly⟩ := old
    obtain rfl : oldName = name := ho
    rw [hfind, Option.any_some, Bool.not_eq_true] at hr
    obtain rfl : readonly = false := hr
    rw [symbols_define, hp, hs]
    exact .changed

/-- Only constants refuse a value. -/
theorem SymbolTable.set_refused {t : SymbolTable} {name value : String} {fault : SymbolFault}
    (h : t.set name value = .error fault) : ∃ s, t.find? name = some s ∧ s.readonly := by
  unfold set at h
  split at h
  · rename_i hr
    cases hf : t.find? name with
    | none => simp [hf] at hr
    | some s => exact ⟨s, rfl, by simpa [hf] using hr⟩
  · cases h

namespace Stored
variable {name value : String} {symbols symbols' : List Symbol}

/-- Names keep their order. -/
theorem names_prefix (h : Stored name value symbols symbols') :
    symbols.map (·.name) <+: symbols'.map (·.name) := by
  cases h with
  | changed => simp
  | added => simp

end Stored
end StringProcessor
