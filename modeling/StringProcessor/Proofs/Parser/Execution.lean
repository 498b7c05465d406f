import StringProcessor.Proofs.Parser.Reading

/-! Executing while reading. A receiver that may refuse commands gets the commands that collecting
finds, in their order, up to the first one that it refuses; its refusal goes before any fault of the
tokens behind. -/
namespace StringProcessor
variable {σ ε ι : Type}

/-- The receiver, with a list of the commands handed over to it, latest first. -/
def Executor.recording (execute : Executor σ ε ι) : Executor (σ × List (Command ι)) ε ι :=
  fun state c =>
  let turn := execute state.1 c
  { next := (turn.next, c :: state.2), answer := turn.answer, log := turn.log }

/-- The commands are all accepted, and lead the receiver from one state to another. -/
inductive Executor.Accepts (execute : Executor σ ε ι) : σ → List (Command ι) → σ → Prop
  | nil {s : σ} : Accepts execute s [] s
  | cons {s s' : σ} {c : Command ι} {cs : List (Command ι)} : (execute s c).answer = .accepted →
      Accepts execute (execute s c).next cs s' → Accepts execute s (c :: cs) s'

/-- One of the commands is refused, after those before it have been accepted. The commands up to
this one are handed over; they leave the receiver in a state. -/
inductive Executor.Refuses (execute : Executor σ ε ι) :
    σ → List (Command ι) → List (Command ι) → σ → Diagnostic ι → Prop
  | intro {s s' : σ} {before after : List (Command ι)} {c : Command ι} {d : Diagnostic ι} :
      Accepts execute s before s' → (execute s' c).answer = .refused d →
      Refuses execute s (before ++ c :: after) (before ++ [c]) (execute s' c).next d

namespace Executor
variable {execute : Executor σ ε ι} {s s' : σ} {before after cs : List (Command ι)} {c : Command ι}

/-- The commands that the receiver is handed: all of them, or those up to the first that it does not
accept. -/
def handed (execute : Executor σ ε ι) : σ → List (Command ι) → List (Command ι)
  | _, [] => []
  | s, c :: cs => c :: match (execute s c).answer with
    | .accepted => handed execute (execute s c).next cs
    | _ => []

theorem handed_prefix (execute : Executor σ ε ι) (s : σ) (cs : List (Command ι)) :
    execute.handed s cs <+: cs := by
  induction cs generalizing s with
  | nil => exact List.prefix_refl _
  | cons c cs ih =>
    rw [handed, List.cons_prefix_cons]
    refine ⟨rfl, ?_⟩
    split
    · exact ih _
    · exact List.nil_prefix

/-- A record of the commands does not disturb the receiver. -/
private theorem recording_perform (execute : Executor σ ε ι) (s : σ) (given cs : List (Command ι)) :
    execute.recording.perform (s, given) cs =
      (((execute.perform s cs).1, (execute.handed s cs).reverse ++ given), (execute.perform s cs).2) := by
  induction cs generalizing s given with
  | nil => rfl
  | cons c cs ih =>
    have hr : (execute.recording (s, given) c).answer = (execute s c).answer := rfl
    have hn : (execute.recording (s, given) c).next = ((execute s c).next, c :: given) := rfl
    rw [perform, perform, handed, hr, hn]
    cases (execute s c).answer with
    | accepted => simp [ih]
    | refused d | abandoned reason => rfl

theorem Accepts.perform (h : execute.Accepts s before s') (cs : List (Command ι)) :
    execute.perform s (before ++ cs) = execute.perform s' cs := by
  induction h with
  | nil => rfl
  | cons ha _ ih => rw [List.cons_append, Executor.perform, ha, ih]

/-- What every command keeps, accepted commands keep. -/
theorem Accepts.induction {p : σ → Prop} (h : execute.Accepts s before s')
    (hstep : ∀ s c, p s → p (execute s c).next) (hs : p s) : p s' := by
  have hp := h.perform []
  rw [List.append_nil] at hp
  have hkept : p (execute.perform s before).1 := perform_induction (fun s c _ => hstep s c) hs
  rwa [hp] at hkept

theorem Accepts.handed (h : execute.Accepts s before s') (cs : List (Command ι)) :
    execute.handed s (before ++ cs) = before ++ execute.handed s' cs := by
  induction h with
  | nil => rfl
  | cons ha _ ih => rw [List.cons_append, Executor.handed, ha, ih, List.cons_append]

theorem Refuses.handed {given : List (Command ι)} {d : Diagnostic ι}
    (h : execute.Refuses s cs given s' d) : execute.handed s cs = given := by
  obtain ⟨haccepts, hd⟩ := h
  rw [haccepts.handed, Executor.handed, hd]

/-- What is handed over behind accepted commands are the next commands. -/
theorem Accepts.handed_split (h : execute.Accepts s before s')
    (hh : execute.handed s cs = before ++ c :: after) :
    ∃ rest, cs = before ++ c :: rest ∧ execute.handed s' (c :: rest) = c :: after := by
  induction h generalizing cs with
  | nil =>
    cases cs with
    | nil => cases hh
    | cons c' rest =>
      obtain ⟨rfl, -⟩ := List.cons.inj hh
      exact ⟨rest, rfl, hh⟩
  | cons ha _ ih =>
    cases cs with
    | nil => cases hh
    | cons c' cs =>
      obtain ⟨rfl, hh'⟩ := List.cons.inj hh
      rw [ha] at hh'
      obtain ⟨rest, rfl, hr⟩ := ih hh'
      exact ⟨rest, rfl, hr⟩

end Executor

namespace Parser

/-- All commands are accepted, or one of them is refused, or at one of them the call is abandoned. -/
theorem perform_cases (execute : Executor σ ε ι) (s : σ) (given cs : List (Command ι)) :
    (∃ s', execute.Accepts s cs s' ∧ execute.perform s cs = (s', .accepted) ∧
      execute.recording.perform (s, given) cs = ((s', cs.reverse ++ given), .accepted)) ∨
    (∃ handed s' d, execute.Refuses s cs handed s' d ∧ execute.perform s cs = (s', .refused d) ∧
      execute.recording.perform (s, given) cs = ((s', handed.reverse ++ given), .refused d)) ∨
    ∃ reason, (execute.perform s cs).2 = .abandoned reason := by
  induction cs generalizing s given with
  | nil => exact .inl ⟨s, .nil, rfl, rfl⟩
  | cons c cs ih =>
    have hr : (execute.recording (s, given) c).answer = (execute s c).answer := rfl
    rw [Executor.perform, Executor.perform, hr]
    cases ha : (execute s c).answer with
    | accepted =>
      have hn : (execute.recording (s, given) c).next = ((execute s c).next, c :: given) := rfl
      simp only [hn]
      obtain ⟨s', hs, hp, hg⟩ | ⟨handed, s', d, ⟨hs, hd⟩, hp, hg⟩ | habandoned :=
        ih (execute s c).next (c :: given)
      · exact .inl ⟨s', .cons ha hs, hp, by simpa using hg⟩
      · exact .inr (.inl ⟨_, _, d, .intro (.cons ha hs) hd, hp, by simpa using hg⟩)
      · exact .inr (.inr habandoned)
    | refused d => exact .inr (.inl ⟨_, _, d, .intro .nil ha, rfl, rfl⟩)
    | abandoned reason => exact .inr (.inr ⟨reason, rfl⟩)

theorem accepts_of_perform {execute : Executor σ ε ι} {s : σ} {cs : List (Command ι)}
    (h : (execute.perform s cs).2 = .accepted) : execute.Accepts s cs (execute.perform s cs).1 := by
  obtain ⟨s', ha, hp, -⟩ | ⟨_, _, d, -, hp, -⟩ | ⟨reason, hp⟩ := perform_cases execute s [] cs
  · rw [hp]
    exact ha
  · simp [hp] at h
  · simp [hp] at h

section
variable [Add ι] [OfNat ι 0] [OfNat ι 1] [ToString ι] {parser : Parser ι}

/-- A ready parser hands over the commands that it reads, up to the first that is not accepted. -/
theorem parse_recording (hp : parser.state = .ready) (execute : Executor σ ε ι) (s : σ)
    (tokens : List (Token ι)) :
    (parser.parse execute.recording (s, []) tokens).next.2.2.reverse =
      execute.handed s (({} : Cursor ι).read tokens).1 := by
  obtain ⟨hn, -⟩ := parse_ready hp execute.recording (s, []) tokens
  rw [hn, Executor.recording_perform, List.append_nil, List.reverse_reverse]

/-- Executing while reading is executing what has been read. The receiver is handed the commands
that collecting finds, all of them or those up to the first that it refuses. The verdict is its
refusal or, without one, that of collecting, and the parser is ready again in the end. -/
theorem parse_eq_collect_then_execute (parser : Parser ι) (hp : parser.state = .ready)
    (execute : Executor σ Empty ι) (s : σ) (tokens : List (Token ι)) :
    let collected := parser.parse collect [] tokens
    let plain := parser.parse execute s tokens
    let recorded := parser.parse execute.recording (s, []) tokens
    let commands := collected.next.2.reverse
    let handed := recorded.next.2.2.reverse
    plain.next.1.state = .ready ∧ plain.next.2 = recorded.next.2.1 ∧ plain.answer = recorded.answer ∧
      (execute.Accepts s commands plain.next.2 ∧ handed = commands ∧
          plain.answer = collected.answer ∨
        ∃ d, execute.Refuses s commands handed plain.next.2 d ∧ plain.answer = .refused d) := by
  intro collected plain recorded commands handed
  obtain ⟨hcn, hca⟩ := parse_collect hp tokens
  obtain ⟨hn, ha⟩ := parse_total hp execute s tokens
  obtain ⟨hrn, hra⟩ := parse_total hp execute.recording (s, []) tokens
  have hc : commands = (({} : Cursor ι).read tokens).1 := by simp [commands, collected, hcn]
  simp only [plain, recorded, collected, handed, hn, ha, hrn, hra, hca, hc]
  generalize ({} : Cursor ι).read tokens = found
  obtain ⟨s', hs, hp, hg⟩ | ⟨given, s', d, hs, hp, hg⟩ | ⟨reason, -⟩ :=
    perform_cases execute s [] found.1
  · simp only [hp, hg, List.append_nil, List.reverse_reverse]
    exact ⟨rfl, trivial, trivial, .inl ⟨hs, trivial, rfl⟩⟩
  · simp only [hp, hg, List.append_nil, List.reverse_reverse]
    exact ⟨rfl, trivial, trivial, .inr ⟨d, hs, rfl⟩⟩
  · exact reason.elim

end

/-- The second of two commands is refused. The parser holds on to a token of an earlier call. -/
theorem parse_eq_collect_then_execute_refused :
    let parser : Parser := ⟨.off, .ready, [⟨.operator, "+", ⟨7, 8⟩⟩], 1⟩
    let tokens : List Token := [⟨.keyword, "list", ⟨0, 4⟩⟩, ⟨.terminator, ";", ⟨4, 5⟩⟩,
      ⟨.keyword, "exit", ⟨6, 10⟩⟩, ⟨.terminator, ";", ⟨10, 11⟩⟩, ⟨.name, "x", ⟨11, 12⟩⟩]
    let first : Executor Nat Empty := fun n c =>
      { next := n + 1
        answer := if n = 0 then .accepted else .refused (.outputFailure c.span "full"), log := [] }
    let turn := parser.parse first 0 tokens
    turn.next.1.state = .ready ∧ turn.next.2 = 2 ∧
      turn.answer = .refused (.outputFailure ⟨6, 11⟩ "full") := by
  intro parser tokens first turn
  obtain ⟨hr, -, -, -⟩ := parse_eq_collect_then_execute parser rfl first 0 tokens
  exact ⟨hr, rfl, rfl⟩

end Parser
end StringProcessor
