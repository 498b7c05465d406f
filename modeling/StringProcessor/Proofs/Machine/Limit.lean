import StringProcessor.Proofs.Machine.Failure

/-! Machines whose output is limited. A command does the same on a machine that takes only so many bytes,
until it is the one whose output does not fit any more. -/
namespace StringProcessor.Machine

def bytesOfLines (lines : List String) : List UInt8 :=
  ((lines.flatMap linePieces).map Text.bytesOf).flatten

/-- Lines that do not end in a line feed are written with one behind each. -/
theorem bytesOfLines_ended {lines : List String}
    (h : ∀ line ∈ lines, line.toList.getLast? ≠ some '\n') :
    bytesOfLines lines = Text.bytesOf (String.join (lines.map (· ++ "\n"))) := by
  induction lines with
  | nil => rfl
  | cons line lines ih =>
    obtain ⟨hl, hrest⟩ := List.forall_mem_cons.mp h
    have hpieces : linePieces line = [line, "\n"] := if_neg (by simpa using hl)
    rw [List.map_cons, String.join_cons, Text.bytesOf_append, Text.bytesOf_append, ← ih hrest]
    simp [bytesOfLines, hpieces]

private theorem emit_eq_write (m : Machine) (lines : List String) :
    m.emit lines = ({ m with sink := (m.sink.write (bytesOfLines lines)).1 },
      (m.sink.write (bytesOfLines lines)).2.map .output) := by
  rw [emit, Sink.writeAll_eq_write]
  rfl

/-- A line is never written in no bytes. -/
private theorem bytesOfLines_ne_nil {lines : List String} (h : lines ≠ []) : bytesOfLines lines ≠ [] := by
  obtain ⟨line, lines, rfl⟩ := List.exists_cons_of_ne_nil h
  intro hnil
  have hpieces : ∀ piece ∈ linePieces line, piece = "" := by
    intro piece hp
    have hb : Text.bytesOf piece = [] := by
      simp only [bytesOfLines, List.flatten_eq_nil_iff, List.mem_map, List.mem_flatMap] at hnil
      exact hnil _ ⟨piece, ⟨line, .head _, hp⟩, rfl⟩
    exact Text.bytesOf_injective hb
  unfold linePieces at hpieces
  split at hpieces
  · rename_i hlast
    obtain rfl := hpieces line (.head _)
    cases hlast
  · exact absurd (hpieces "\n" (.tail _ (.head _))) (by decide)

/-- What is emitted has at least one line. -/
private theorem effect_emit {symbols : SymbolTable} {action : Action} {lines : List String}
    (h : effect symbols action = .ok (.emit lines)) : lines ≠ [] := by
  cases effect_ok h with
  | @print aspect => cases aspect <;> simp [rendering]
  | list => simp [listing]

/-- The action comes as far as writing: it lists the symbols, or it prints a value. -/
inductive Writes (symbols : SymbolTable) : Action → Prop
  | list : Writes symbols .list
  | print {aspect : Aspect} {e : Expression} {value : String} : evaluate symbols e = .ok value →
      Writes symbols (.print aspect e)

theorem Writes.effect {symbols : SymbolTable} {action : Action} (h : Writes symbols action) :
    ∃ lines, Machine.effect symbols action = .ok (.emit lines) := by
  cases h with
  | list => exact ⟨_, rfl⟩
  | print he =>
    rw [Machine.effect, argument, he]
    exact ⟨_, rfl⟩

def limited (k : Nat) (m : Machine) : Machine := { m with sink := m.sink.limited k }

def written (m : Machine) : List UInt8 := m.sink.written

section
variable {m : Machine}

theorem emit_unlimited (h : m.sink.room = none) (lines : List String) :
    (m.emit lines).2 = .accepted ∧ (m.emit lines).1.sink.room = none ∧
      (m.emit lines).1.written = m.written ++ bytesOfLines lines := by
  rw [emit_eq_write, Sink.write_unlimited h]
  exact ⟨rfl, h, by simp [written, Sink.written]⟩

/-- Without a limit commands only add to the output. -/
theorem execute_unlimited (h : m.sink.room = none) (c : Command) :
    (m.execute c).next.sink.room = none ∧ m.written <+: (m.execute c).next.written := by
  obtain ⟨fault, hp, -⟩ := execute_performs m c
  generalize (m.execute c).next = next at hp
  cases hp with
  | written he =>
    obtain ⟨-, hroom, hw⟩ := emit_unlimited h _
    exact ⟨hroom, hw ▸ List.prefix_append ..⟩
  | _ => exact ⟨h, List.prefix_refl _⟩

theorem execute_grows {front : List UInt8} (h : m.sink.room = none ∧ front <+: m.written) (c : Command) :
    (m.execute c).next.sink.room = none ∧ front <+: (m.execute c).next.written :=
  ⟨(execute_unlimited h.1 c).1, h.2.trans (execute_unlimited h.1 c).2⟩

/-- With a limit an effect is applied as it is without, as far as the output fits. -/
private theorem apply_limited (h : m.sink.room = none) (k : Nat) (effect : Effect) :
    let free := m.apply effect
    (m.limited k).apply effect = (free.1.limited k,
      if free.1.written.length ≤ max k m.written.length then free.2
        else .refused (.output "sink full")) := by
  have hkept : m.written.length ≤ max k m.written.length := Nat.le_max_right ..
  cases effect with
  | store name value =>
    have hset : (m.limited k).symbols.set name value = m.symbols.set name value := rfl
    cases hs : m.symbols.set name value with
    | ok symbols | error fault =>
      rw [hs] at hset
      simp only [apply, hset, hs]
      exact Prod.ext rfl (if_pos hkept).symm
  | stop => exact Prod.ext rfl (if_pos hkept).symm
  | emit lines =>
    obtain ⟨hnone, -, hw⟩ := emit_unlimited h lines
    have hfits : (bytesOfLines lines).length ≤ k - m.sink.written.length ↔
        (m.emit lines).1.written.length ≤ max k m.written.length := by
      rw [hw, List.length_append, written]
      omega
    have hl : (m.limited k).sink = m.sink.limited k := rfl
    simp only [apply, hnone, ← hfits]
    rw [emit_eq_write, emit_eq_write, hl, Sink.write_limited h]
    refine Prod.ext rfl ?_
    exact apply_ite (Verdict.map Fault.output) _ .accepted (.refused "sink full")

/-- So is a command carried out. -/
theorem execute_limited (h : m.sink.room = none) (k : Nat) (c : Command) :
    let free := m.execute c
    let bounded := (m.limited k).execute c
    bounded.next = free.next.limited k ∧
      bounded.answer = if free.next.written.length ≤ max k m.written.length then free.answer
        else .refused (.outputFailure c.span "sink full") := by
  have hs : effect (m.limited k).symbols c.action = effect m.symbols c.action := rfl
  intro free bounded
  simp only [free, bounded, execute, hs]
  cases effect m.symbols c.action with
  | error fault => exact ⟨rfl, (if_pos (Nat.le_max_right ..)).symm⟩
  | ok effect =>
    simp only [apply_limited h, true_and]
    split <;> rfl

/-- A full sink stays as it is, and what gets as far as writing is refused. -/
theorem execute_full (h : m.sink.room = some 0) (c : Command) :
    (m.execute c).next.sink = m.sink ∧
      (Writes m.symbols c.action →
        (m.execute c).answer = .refused (.outputFailure c.span "sink full")) := by
  have hemit {lines : List String} (he : effect m.symbols c.action = .ok (.emit lines)) :
      m.emit lines = (m, .refused (.output "sink full")) := by
    rw [emit_eq_write, Sink.write_full h (bytesOfLines_ne_nil (effect_emit he))]
    rfl
  constructor
  · obtain ⟨fault, hp, -⟩ := execute_performs m c
    generalize (m.execute c).next = next at hp
    cases hp with
    | written he => rw [hemit he]
    | _ => rfl
  · intro hw
    obtain ⟨lines, he⟩ := hw.effect
    rw [(execute_emit he).2, hemit he]
    rfl

end
end StringProcessor.Machine
