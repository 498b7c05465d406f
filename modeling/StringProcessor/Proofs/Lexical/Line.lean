import StringProcessor.Proofs.Lexical
import StringProcessor.Proofs.Scan.Move

/-! Lines of items. Whether an item stands depends on the next character only, so a part of a line stands
wherever that character does, and its tokens are those of the line, moved. -/
namespace StringProcessor.Lexical

/-- The items stand one before the other, and the last of them before this text. -/
def Line : List Item → List Char → Prop
  | [], _ => True
  | i :: items, rest => i.Stands (items.flatMap Item.spelling ++ rest) ∧ Line items rest

theorem line_append {items items' : List Item} {rest : List Char} :
    Line (items ++ items') rest ↔
      Line items (items'.flatMap Item.spelling ++ rest) ∧ Line items' rest := by
  induction items with
  | nil => simp [Line]
  | cons i items ih => simp [Line, ih, and_assoc]

/-- A text is dissected into the items that spell it, up to its ending. -/
theorem dissects_iff {items : List Item} {e : Ending} {cs : List Char} :
    Dissects items e cs ↔
      e.Valid ∧ Line items e.spelling ∧ cs = items.flatMap Item.spelling ++ e.spelling := by
  constructor
  · intro h
    induction h with
    | ending he => exact ⟨he, trivial, rfl⟩
    | item hi _ ih =>
      obtain ⟨he, hline, rfl⟩ := ih
      exact ⟨he, ⟨hi, hline⟩, by rw [List.flatMap_cons, List.append_assoc]⟩
  · rintro ⟨he, hline, rfl⟩
    induction items with
    | nil => exact .ending he
    | cons i items ih =>
      obtain ⟨hi, hline⟩ := hline
      rw [List.flatMap_cons, List.append_assoc]
      exact .item hi (ih hline)

theorem Line.dissects {items : List Item} (h : Line items []) :
    Dissects items .complete (items.flatMap Item.spelling) :=
  dissects_iff.mpr ⟨.complete, h, (List.append_nil _).symm⟩

theorem Item.Stands.congr {i : Item} {rest rest' : List Char} (h : i.Stands rest)
    (hr : rest.head? = rest'.head?) : i.Stands rest' := by
  cases h with
  | blank hc => exact .blank hc
  | terminator => exact .terminator
  | operator => exact .operator
  | word hf ho hrest => exact .word hf ho (hr ▸ hrest)
  | literal hq hb => exact .literal hq hb

/-- Items stand as well before another text that begins with the same character. -/
theorem Line.congr {items : List Item} {rest rest' : List Char} (h : Line items rest)
    (hr : rest.head? = rest'.head?) : Line items rest' := by
  induction items with
  | nil => trivial
  | cons i items ih =>
    obtain ⟨hi, hline⟩ := h
    refine ⟨hi.congr ?_, ih hline⟩
    rw [List.head?_append, List.head?_append, hr]

/-- Whatever follows a terminator, the items up to it stand. -/
theorem Line.terminated {items : List Item} {rest : List Char}
    (h : Line (items ++ [.terminator]) rest) (rest' : List Char) :
    Line (items ++ [.terminator]) rest' := by
  obtain ⟨hitems, -⟩ := line_append.mp h
  exact line_append.mpr ⟨hitems.congr rfl, .terminator, trivial⟩

theorem Item.token?_span {i : Item} {start : Nat} {t : Token} (h : i.token? start = some t) :
    t.span = ⟨start, start + i.spelling.length⟩ := by
  cases i <;> simp only [token?, Option.some.injEq, reduceCtorEq] at h <;> rw [← h]

theorem Item.token?_terminator {i : Item} {start : Nat} {t : Token} (h : i.token? start = some t)
    (hk : t.kind = .terminator) : i = .terminator := by
  cases i with
  | terminator => rfl
  | blank c => cases h
  | operator | literal quote body =>
    cases h
    cases hk
  | word first others =>
    cases h
    dsimp only at hk
    split at hk <;> cases hk

theorem tokens_append (start : Nat) (items items' : List Item) :
    tokens start (items ++ items') = tokens start items ++ tokens (start + extent items) items' := by
  induction items generalizing start with
  | nil => rfl
  | cons i items ih =>
    simp only [List.cons_append, tokens, ih, List.append_assoc]
    simp [extent, Nat.add_assoc]

theorem tokens_move (n start : Nat) (items : List Item) :
    tokens (n + start) items = (tokens start items).map (Token.move (n + ·)) := by
  induction items generalizing start with
  | nil => rfl
  | cons i items ih =>
    have hi : i.token? (n + start) = (i.token? start).map (Token.move (n + ·)) := by
      cases i <;> simp [Item.token?, Token.move, Span.move, Nat.add_assoc]
    rw [tokens, tokens, List.map_append, ← ih, hi, Nat.add_assoc, Option.toList_map]

/-- Each token is that of an item, with the tokens in front and behind on either side of it. -/
theorem tokens_split {start : Nat} {items : List Item} {front rest : List Token} {t : Token}
    (h : tokens start items = front ++ t :: rest) :
    ∃ before i after, items = before ++ i :: after ∧ tokens start before = front ∧
      i.token? (start + extent before) = some t ∧
      tokens (start + extent (before ++ [i])) after = rest := by
  induction items generalizing start front with
  | nil => simp [tokens] at h
  | cons i items ih =>
    rw [tokens] at h
    have hcases : front = [] ∧ i.token? start = some t ∧ tokens (start + i.spelling.length) items = rest ∨
        ∃ front', front = (i.token? start).toList ++ front' ∧
          tokens (start + i.spelling.length) items = front' ++ t :: rest := by
      cases hi : i.token? start with
      | none => exact .inr ⟨front, rfl, by simpa [hi] using h⟩
      | some u =>
        cases front with
        | nil => exact .inl ⟨rfl, by simpa [hi] using h⟩
        | cons v front => exact .inr ⟨front, by simpa [hi, eq_comm] using h⟩
    obtain ⟨rfl, hi, hrest⟩ | ⟨front', rfl, hlater⟩ := hcases
    · exact ⟨[], i, items, rfl, rfl, hi, by simpa [extent] using hrest⟩
    · obtain ⟨before, j, after, rfl, rfl, hj, ha⟩ := ih hlater
      refine ⟨i :: before, j, after, rfl, rfl, ?_, ?_⟩
      · simpa [extent, Nat.add_assoc] using hj
      · simpa [extent, Nat.add_assoc] using ha

end StringProcessor.Lexical
