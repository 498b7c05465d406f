import StringProcessor.Narration

/-! Logs at different levels. A part that asks its level before it puts something on record puts on record
what the level keeps of what it would put there at the fullest one. -/
namespace StringProcessor
namespace Level

/-- Whether a part at this level puts anything of this importance on record. Warnings are the host's, who
has no level. -/
def keeps (level : Level) : Severity → Bool
  | .warning => false
  | .debug => level.admits basic
  | .trace => level.admits verbose

/-- What is left of a log at the level. -/
def mute (level : Level) (log : List Record) : List Record := log.filter fun r => level.keeps r.severity

@[simp] theorem mute_nil (level : Level) : level.mute [] = [] := rfl

@[simp] theorem mute_append (level : Level) (log log' : List Record) :
    level.mute (log ++ log') = level.mute log ++ level.mute log' := List.filter_append ..

@[simp] theorem mute_reverse (level : Level) (log : List Record) :
    level.mute log.reverse = (level.mute log).reverse := List.filter_reverse ..

private theorem mute_map {severity : Severity} (level : Level) (narrator : Narrator)
    (messages : List String) :
    level.mute (messages.map (⟨severity, narrator, ·⟩)) =
      if level.keeps severity then messages.map (⟨severity, narrator, ·⟩) else [] := by
  split
  · rename_i hk
    exact List.filter_eq_self.mpr fun r hr => by
      obtain ⟨m, -, rfl⟩ := List.mem_map.mp hr
      exact hk
  · rename_i hk
    exact List.filter_eq_nil_iff.mpr fun r hr => by
      obtain ⟨m, -, rfl⟩ := List.mem_map.mp hr
      exact hk

variable {ι : Type} [ToString ι]

theorem debug_eq_mute (level : Level) (narrator : Narrator) (e : Event ι) :
    level.debug narrator e = level.mute (verbose.debug narrator e) := by
  have htold : verbose.debug narrator e = e.messages.map (⟨.debug, narrator, ·⟩) := if_pos rfl
  rw [htold, mute_map]
  rfl

theorem trace_eq_mute (level : Level) (narrator : Narrator) (e : Event ι) :
    level.trace narrator e = level.mute (verbose.trace narrator e) := by
  have htold : verbose.trace narrator e = e.messages.map (⟨.trace, narrator, ·⟩) := if_pos rfl
  rw [htold, mute_map]
  rfl

theorem mute_off (log : List Record) : off.mute log = [] :=
  List.filter_eq_nil_iff.mpr fun r _ => by cases r.severity <;> decide

theorem severity_of_basic {log : List Record} {r : Record} (h : r ∈ basic.mute log) :
    r.severity = .debug := by
  have hk := (List.mem_filter.mp h).2
  cases hs : r.severity with
  | debug => rfl
  | warning | trace =>
    rw [hs] at hk
    cases hk

/-- What the middle level keeps of what the fullest one keeps is all but the traces. -/
theorem mute_basic_verbose (log : List Record) :
    basic.mute (verbose.mute log) = (verbose.mute log).filter (·.severity ≠ .trace) := by
  refine List.filter_congr fun r hr => ?_
  have hk := (List.mem_filter.mp hr).2
  cases hs : r.severity with
  | warning =>
    rw [hs] at hk
    cases hk
  | debug | trace => rfl

end Level

/-- The second call does at the level what the first one does at the fullest: it leaves the matching state,
gives the same answer, and puts less on record. -/
structure Turn.Muted {σ α : Type} (level : Level) (under : σ → σ → Prop) (full muted : Turn σ α) :
    Prop where
  next : under full.next muted.next
  answer : muted.answer = full.answer
  log : muted.log = level.mute full.log

end StringProcessor
