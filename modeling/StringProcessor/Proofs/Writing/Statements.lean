import StringProcessor.Proofs.Grammar.Residual
import StringProcessor.Proofs.Writing.Lexemes

/-! Written commands as statements. A written command is spelled by items, and their tokens are a
statement that asks for the command. -/
namespace StringProcessor.Writing
open Lexical Grammar

section
variable {α : Type}

/-- The items of a part that may be missing, with the spaces before it. -/
def part (n : Nat) (items : α → List Item) (a? : Option α) : List Item :=
  a?.elim [] fun a => gap (n + 1) ++ items a

private theorem spelling_part (n : Nat) (items : α → List Item) (a? : Option α) :
    (part n items a?).flatMap Item.spelling =
      a?.elim [] fun a => spaces (n + 1) ++ (items a).flatMap Item.spelling := by
  cases a? <;> simp [part]

private theorem line_part {n : Nat} {items : α → List Item} {a? : Option α} {rest : List Char}
    (h : ∀ a ∈ a?, Line (items a) rest) : Line (part n items a?) rest := by
  cases a? with
  | none => trivial
  | some a => exact line_append.mpr ⟨line_gap _ _, h a rfl⟩

theorem Apart.part {n : Nat} {items : α → List Item} {a? : Option α} {rest : List Char}
    (h : Apart rest) : Apart ((part n items a?).flatMap Item.spelling ++ rest) := by
  rw [spelling_part]
  cases a? with
  | none => exact h
  | some a => exact apart_space _

private theorem tokens_part_some (start n : Nat) (items : α → List Item) (a : α) :
    tokens start (Writing.part n items (some a)) =
      tokens (start + extent (gap (n + 1))) (items a) := by
  simp [Writing.part, tokens_append]

end

def closing (n : Nat) : List Item := gap n ++ [.terminator]

private theorem apart_closing (n : Nat) (rest : List Char) :
    Apart ((closing n).flatMap Item.spelling ++ rest) := by
  simpa [closing, Item.spelling] using (apart_close rest).spaces n

def items (layout : Layout) (c : Command) : List Item :=
  word c.keyword.word ++ (part layout.beforeName word c.action.target? ++
    (part layout.beforeValue (operands layout.quote) c.action.value? ++
      closing layout.beforeClose))

private theorem spelling_items (layout : Layout) (c : Command) :
    (items layout c).flatMap Item.spelling = command layout c := by
  simp [items, command, spelling_part, closing, Item.spelling]

private theorem line_items (layout : Layout) {c : Command} (h : Writable c.action) (rest : List Char) :
    Line (items layout c) rest := by
  have hc := apart_closing layout.beforeClose rest
  have hv : Apart ((part layout.beforeValue (operands layout.quote) c.action.value? ++
      closing layout.beforeClose).flatMap Item.spelling ++ rest) := by
    rw [List.flatMap_append, List.append_assoc]
    exact hc.part
  refine line_append.mpr ⟨line_keyword _ ?_, line_append.mpr ⟨line_part ?_, line_append.mpr ⟨line_part ?_, ?_⟩⟩⟩
  · rw [List.flatMap_append, List.append_assoc]
    exact hv.part
  · intro name hn
    exact (h.target name hn).line hv
  · intro e he
    exact line_operands _ (h.value e he).2 hc
  · exact line_append.mpr ⟨line_gap _ _, .terminator, trivial⟩

section
variable (layout : Layout) (start start' : Nat)

private theorem target_items {target : String} (h : IsName target) :
    ∃ name, tokens start (part layout.beforeName word (some target)) = [name] ∧
      name.kind = .name ∧ name.text = target := by
  rw [tokens_part_some]
  obtain ⟨span, hn⟩ := h.tokens (start + extent (gap (layout.beforeName + 1)))
  exact ⟨_, hn, rfl, rfl⟩

private theorem value_items {e : Expression} (h : Writable (.print .text e)) :
    ∃ e', Operands (tokens start' (part layout.beforeValue (operands layout.quote) (some e))) e' ∧
      e'.map Term.unplaced = e.map Term.unplaced := by
  obtain ⟨hne, hn⟩ := h.value e rfl
  rw [tokens_part_some]
  exact tokens_operands layout.quote hne hn _

/-- What stands between the keyword and the terminator is the body of a statement. -/
private theorem body_items {action : Action} (h : Writable action) :
    ∃ action', Body action.keyword.word
        (tokens start (part layout.beforeName word action.target?) ++
          tokens start' (part layout.beforeValue (operands layout.quote) action.value?)) action' ∧
      action'.unplaced = action.unplaced := by
  cases action with
  | append target e =>
    obtain ⟨name, hts, hk, rfl⟩ := target_items layout start (h.target target rfl)
    obtain ⟨e', ho, hu⟩ := value_items layout start' ⟨by simp [Action.target?], h.value⟩
    simp only [Action.target?, Action.value?, hts]
    exact ⟨_, .append hk ho, by simp [Action.unplaced, hu]⟩
  | set target e =>
    obtain ⟨name, hts, hk, rfl⟩ := target_items layout start (h.target target rfl)
    obtain ⟨e', ho, hu⟩ := value_items layout start' ⟨by simp [Action.target?], h.value⟩
    simp only [Action.target?, Action.value?, hts]
    exact ⟨_, .set hk ho, by simp [Action.unplaced, hu]⟩
  | reverse target =>
    obtain ⟨name, hts, hk, rfl⟩ := target_items layout start (h.target target rfl)
    simp only [Action.target?, hts]
    exact ⟨_, .reverse hk, rfl⟩
  | print aspect e =>
    obtain ⟨e', ho, hu⟩ := value_items layout start' ⟨by simp [Action.target?], h.value⟩
    exact ⟨_, .print (mem_printing_iff.mpr rfl) ho, by simp [Action.unplaced, hu]⟩
  | list => exact ⟨_, .list, rfl⟩
  | exit => exact ⟨_, .exit, rfl⟩

private theorem statement_items {c : Command} (h : Writable c.action) :
    ∃ c', Statement (tokens start (items layout c)) c' ∧ c'.action.unplaced = c.action.unplaced := by
  obtain ⟨span, hk⟩ := tokens_keyword c.keyword start
  rw [items, tokens_append, hk, tokens_append, tokens_append]
  generalize start + extent _ = p
  generalize p + extent (part layout.beforeName _ _) = q
  generalize q + extent (part layout.beforeValue _ _) = r
  obtain ⟨action', hb, hu⟩ := body_items layout p q h
  obtain ⟨close, hc, ht⟩ : ∃ close, tokens r (closing layout.beforeClose) = [close] ∧
      close.kind = .terminator := by
    rw [closing, tokens_append, tokens_gap]
    exact ⟨_, rfl, rfl⟩
  have hs := Statement.intro (show Token.kind ⟨.keyword, c.keyword.word, span⟩ = .keyword from rfl) hb ht
  rw [hc]
  exact ⟨_, by simpa using hs, hu⟩

end

def script (layout : Nat → Layout) (cs : List Command) : List Item :=
  (cs.mapIdx fun i c => items (layout i) c).flatten

theorem spelling_script (layout : Nat → Layout) (cs : List Command) :
    (script layout cs).flatMap Item.spelling = (program layout cs).toList := by
  rw [program, String.toList_ofList]
  induction cs generalizing layout with
  | nil => rfl
  | cons c cs ih =>
    have hs := ih fun i => layout (i + 1)
    simp only [script] at hs
    simp [script, spelling_items, hs]

theorem line_script (layout : Nat → Layout) {cs : List Command}
    (h : ∀ c ∈ cs, Writable c.action) (rest : List Char) : Line (script layout cs) rest := by
  induction cs generalizing layout with
  | nil => trivial
  | cons c cs ih =>
    obtain ⟨hc, hr⟩ := List.forall_mem_cons.mp h
    rw [script, List.mapIdx_cons, List.flatten_cons, line_append]
    exact ⟨line_items _ hc _, ih (fun i => layout (i + 1)) hr⟩

theorem cut_script (layout : Nat → Layout) {cs : List Command}
    (h : ∀ c ∈ cs, Writable c.action) (start : Nat) :
    ∃ cut, Cut (tokens start (script layout cs)) cut ∧
      cut.map (·.2.action.unplaced) = cs.map (·.action.unplaced) := by
  induction cs generalizing layout start with
  | nil => exact ⟨[], .nil, rfl⟩
  | cons c cs ih =>
    obtain ⟨hc, hr⟩ := List.forall_mem_cons.mp h
    rw [script, List.mapIdx_cons, List.flatten_cons, tokens_append]
    generalize start + extent _ = behind
    obtain ⟨c', hs, hu⟩ := statement_items (layout 0) start hc
    obtain ⟨cut, hcut, hus⟩ := ih (fun i => layout (i + 1)) hr behind
    exact ⟨_, .cons hs hcut, by simp [hu, hus]⟩

end StringProcessor.Writing
