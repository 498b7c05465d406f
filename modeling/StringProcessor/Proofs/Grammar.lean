import StringProcessor.Command
import StringProcessor.Proofs.Pieces

/-! The grammar of statements, over tokens: which lists of tokens are statements, and the command
that each statement asks for. A list of tokens is cut into statements in at most one way. -/
namespace StringProcessor.Grammar
variable {ι : Type}

/-- A string or a name stands for a term. -/
inductive Operand : Token ι → Term ι → Prop
  | literal (text : String) (span : Span ι) : Operand ⟨.string, text, span⟩ (.literal text span)
  | symbol (name : String) (span : Span ι) : Operand ⟨.name, name, span⟩ (.symbol name span)

/-- An expression: at least one operand, and a single operator between any two. -/
inductive Operands : List (Token ι) → Expression ι → Prop
  | single {t : Token ι} {operand : Term ι} : Operand t operand → Operands [t] [operand]
  | join {t plus : Token ι} {operand : Term ι} {ts : List (Token ι)} {e : Expression ι} :
      Operand t operand → plus.kind = .operator → Operands ts e →
      Operands (t :: plus :: ts) (operand :: e)

def printing : List (String × Aspect) :=
  [("print", .text), ("printlength", .length), ("printwords", .words), ("printwordcount", .wordCount)]

/-- What stands between the word that opens a statement and its terminator. -/
inductive Body : String → List (Token ι) → Action ι → Prop
  | append {name : Token ι} {ts : List (Token ι)} {e : Expression ι} : name.kind = .name → Operands ts e →
      Body "append" (name :: ts) (.append name.text e)
  | set {name : Token ι} {ts : List (Token ι)} {e : Expression ι} : name.kind = .name → Operands ts e →
      Body "set" (name :: ts) (.set name.text e)
  | reverse {name : Token ι} : name.kind = .name → Body "reverse" [name] (.reverse name.text)
  | print {word : String} {aspect : Aspect} {ts : List (Token ι)} {e : Expression ι} :
      (word, aspect) ∈ printing → Operands ts e → Body word ts (.print aspect e)
  | list : Body "list" [] .list
  | exit : Body "exit" [] .exit

/-- A statement starts with its keyword and ends with its terminator. -/
inductive Statement : List (Token ι) → Command ι → Prop
  | intro {key close : Token ι} {ts : List (Token ι)} {action : Action ι} :
      key.kind = .keyword → Body key.text ts action → close.kind = .terminator →
      Statement (key :: (ts ++ [close])) ⟨action, ⟨key.span.start, close.span.stop⟩⟩

/-- Tokens cut into statements. Each piece is kept with the command that it asks for. -/
inductive Cut : List (Token ι) → List (List (Token ι) × Command ι) → Prop
  | nil : Cut [] []
  | cons {ts rest : List (Token ι)} {c : Command ι} {cut : List (List (Token ι) × Command ι)} :
      Statement ts c → Cut rest cut → Cut (ts ++ rest) ((ts, c) :: cut)

theorem Operand.not_terminator {t : Token ι} {operand : Term ι} (h : Operand t operand) :
    t.kind ≠ .terminator := by
  cases h <;> simp

theorem Operands.not_terminator {ts : List (Token ι)} {e : Expression ι} (h : Operands ts e) :
    ∀ t ∈ ts, t.kind ≠ .terminator := by
  induction h with
  | single ht => simpa using ht.not_terminator
  | join ht hp _ ih =>
    intro t hm
    rcases List.mem_cons.mp hm with rfl | hm
    · exact ht.not_terminator
    · rcases List.mem_cons.mp hm with rfl | hm
      · simp [hp]
      · exact ih t hm

theorem Body.not_terminator {word : String} {ts : List (Token ι)} {action : Action ι}
    (h : Body word ts action) : ∀ t ∈ ts, t.kind ≠ .terminator := by
  cases h with
  | append hn ho | set hn ho =>
    intro t hm
    rcases List.mem_cons.mp hm with rfl | hm
    · simp [hn]
    · exact ho.not_terminator t hm
  | reverse hn => simp [hn]
  | print _ ho => exact ho.not_terminator
  | list | exit => simp

/-- Only the last token of a statement is a terminator. -/
theorem Statement.last_terminator {ts : List (Token ι)} {c : Command ι} (h : Statement ts c) :
    ∃ front close, ts = front ++ [close] ∧ close.kind = .terminator ∧
      ∀ t ∈ front, t.kind ≠ .terminator := by
  obtain ⟨hk, hb, hc⟩ := h
  rename_i key close ts action
  refine ⟨key :: ts, close, rfl, hc, fun t hm => ?_⟩
  rcases List.mem_cons.mp hm with rfl | hm
  · simp [hk]
  · exact hb.not_terminator t hm

/-- So the last token of statements is one. -/
theorem Cut.last_terminator {ts : List (Token ι)} {cut : List (List (Token ι) × Command ι)} (h : Cut ts cut) :
    ∀ t ∈ ts.getLast?, t.kind = .terminator := by
  induction h with
  | nil => nofun
  | @cons ts rest c cut hs _ ih =>
    intro t ht
    rw [List.getLast?_append] at ht
    cases hrest : rest.getLast? with
    | some u =>
      rw [hrest] at ht ih
      exact ih t ht
    | none =>
      obtain ⟨front, close, rfl, hc, -⟩ := hs.last_terminator
      rw [hrest, List.getLast?_concat] at ht
      cases ht
      exact hc

/-- The first statement of a list of tokens ends at the first terminator. -/
theorem Statement.front_unique {ts ts' rest rest' : List (Token ι)} {c c' : Command ι}
    (h : Statement ts c) (h' : Statement ts' c') (he : ts ++ rest = ts' ++ rest') :
    ts = ts' ∧ rest = rest' := by
  obtain ⟨front, close, rfl, hc, hf⟩ := h.last_terminator
  obtain ⟨front', close', rfl, hc', hf'⟩ := h'.last_terminator
  simp only [List.append_assoc, List.singleton_append] at he
  obtain ⟨rfl, rfl, rfl⟩ := first_unique (p := fun t : Token ι => t.kind = .terminator) he hf hf' hc hc'
  exact ⟨rfl, rfl⟩

end StringProcessor.Grammar
