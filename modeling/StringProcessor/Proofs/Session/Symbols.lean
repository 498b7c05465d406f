import StringProcessor.Proofs.Grammar.Parts
import StringProcessor.Proofs.Machine.Step
import StringProcessor.Proofs.Parser.Failure
import StringProcessor.Proofs.Scan.Names
import StringProcessor.Proofs.Session.Step

/-! Symbols of sessions. Whatever is asked of a session, its symbols are the constants and, behind them,
variables with proper names, in the order in which they have come. -/
namespace StringProcessor
open Writing

/-- The constants come first, and what comes behind them are variables under names. -/
def Orderly (symbols : List Symbol) : Prop :=
  ∃ rest, symbols =
      [⟨"SPACE", " ", true⟩, ⟨"TAB", "\t", true⟩, ⟨"NEWLINE", "\n", true⟩] ++ rest ∧
    ∀ v ∈ rest, v.readonly = false ∧ IsName v.name

/-- Storing a value under a name keeps symbols orderly. -/
theorem Orderly.stored {symbols symbols' : List Symbol} {name value : String} (h : Orderly symbols)
    (hn : IsName name) (hs : Stored name value symbols symbols') : Orderly symbols' := by
  obtain ⟨rest, he, hv⟩ := h
  cases hs with
  | added => exact ⟨rest ++ [⟨name, value, false⟩], by rw [he, List.append_assoc],
      List.forall_mem_append.mpr ⟨hv, by simpa using hn⟩⟩
  | @changed before after old =>
    rcases List.append_eq_append_iff.mp he with ⟨constants, hc, ha⟩ | ⟨front, rfl, hvar⟩
    · cases constants with
      | nil =>
        obtain rfl : _ = rest := ha
        rw [List.append_nil] at hc
        refine ⟨⟨name, value, false⟩ :: after, by rw [← hc], ?_⟩
        exact List.forall_mem_cons.mpr ⟨⟨rfl, hn⟩, (List.forall_mem_cons.mp hv).2⟩
      | cons s constants =>
        -- The variable that is changed cannot be one of the constants.
        obtain ⟨rfl, -⟩ := List.cons.inj ha
        have hm : (⟨name, old, false⟩ : Symbol) ∈ before ++ ⟨name, old, false⟩ :: constants := by simp
        rw [← hc] at hm
        simp at hm
    · subst hvar
      refine ⟨front ++ ⟨name, value, false⟩ :: after, List.append_assoc .., ?_⟩
      obtain ⟨hf, ha⟩ := List.forall_mem_append.mp hv
      exact List.forall_mem_append.mpr
        ⟨hf, List.forall_mem_cons.mpr ⟨⟨rfl, hn⟩, (List.forall_mem_cons.mp ha).2⟩⟩

namespace Session
open StringProcessor.Parser

variable {σ ε : Type} [Output σ ε]

/-- The target of a command that is read is a name among the tokens. -/
private theorem read_target {tokens : List Token} {c : Command}
    (hc : c ∈ (({} : Cursor).read tokens).1) {name : String} (hn : c.action.target? = some name) :
    ∃ t ∈ tokens, t.kind = .name ∧ t.text = name := by
  obtain ⟨front, statement, rest, rfl, hs⟩ := Cursor.read_statement hc
  obtain ⟨t, ht, hk⟩ := hs.target_mem hn
  exact ⟨t, by simp [ht], hk⟩

/-- A line stores values under names, one after the other, and does nothing else to the symbols. -/
private theorem handle_symbols {p : List Symbol → Prop} {s : Session σ} (hb : s.batch.Named)
    (hp : ∀ {name value symbols symbols'}, IsName name → Stored name value symbols symbols' →
      p symbols → p symbols')
    (h : p s.machine.symbols.symbols) (r : Request) :
    p (s.handle r).next.machine.symbols.symbols := by
  cases r with
  | finish => exact h
  | line text =>
    obtain ⟨hnames, -⟩ := hb.feed text
    cases ha : (s.batch.feed text).answer with
    | error d =>
      rw [handle, (runLine_error ha).1]
      exact h
    | ok tokens =>
      refine runLine_machine (p := fun m => p m.symbols.symbols) ha (fun m c hc hm => ?_) h
      obtain ⟨fault, hperforms, -⟩ := Machine.execute_performs m c
      obtain hsame | ⟨name, value, ht, hstored⟩ := hperforms.symbols
      · exact hsame ▸ hm
      · obtain ⟨t, htm, hk, rfl⟩ := read_target hc ht
        exact hp (hnames tokens ha t htm hk) hstored hm

private theorem handle_named {s : Session σ} (h : s.batch.Named) (r : Request) :
    (s.handle r).next.batch.Named := by
  cases r with
  | finish => exact fun _ hh => (nomatch hh)
  | line text =>
    rw [handle, runLine_batch]
    exact (h.feed text).2

private theorem after_named (level : Level) (sink : σ) (requests : List Request) :
    ((start level sink).after requests).batch.Named :=
  after_induction (p := fun s => s.batch.Named) (by simp [Batch.Named, start, Batch.held])
    (fun _ r h => handle_named h r) requests

/-- What storing values under names keeps, a session keeps from any point on. -/
theorem after_symbols {p : List Symbol → Prop} (level : Level) (sink : σ) (earlier : List Request)
    (hp : ∀ {name value symbols symbols'}, IsName name → Stored name value symbols symbols' →
      p symbols → p symbols')
    (h : p ((start level sink).after earlier).machine.symbols.symbols) (later : List Request) :
    p (((start level sink).after earlier).after later).machine.symbols.symbols := by
  have hall := after_induction
    (p := fun s : Session σ => s.batch.Named ∧ p s.machine.symbols.symbols)
    ⟨after_named level sink earlier, h⟩
    (fun s r hs => ⟨handle_named hs.1 r, handle_symbols hs.1 hp hs.2 r⟩)
    later
  exact hall.2

/-- Whatever a session has been asked, and whatever has gone wrong, its symbols are the three constants
and variables behind them, under names that are no keywords, no two of one name, and nothing that is
asked later removes one of them or changes their order. -/
theorem symbols_stay_orderly (level : Level) (sink : σ) (earlier later : List Request) :
    let s := (start level sink).after earlier
    let t := (start level sink).after (earlier ++ later)
    Orderly s.machine.symbols.symbols ∧
    (s.machine.symbols.symbols.map (·.name)).Nodup ∧
    s.machine.symbols.symbols.map (·.name) <+: t.machine.symbols.symbols.map (·.name) := by
  intro s t
  have ht : t = s.after later := List.foldl_append
  refine ⟨?_, s.machine.symbols.nodup, ?_⟩
  · exact after_symbols level sink [] (fun hn hs h => h.stored hn hs) ⟨[], rfl, by simp⟩ earlier
  · let names (symbols : List Symbol) : List String := symbols.map (·.name)
    rw [ht]
    refine after_symbols (p := fun symbols => names s.machine.symbols.symbols <+: names symbols)
      level sink earlier (fun _ hs h => ?_) (List.prefix_refl _) later
    exact h.trans hs.names_prefix

end Session
end StringProcessor
