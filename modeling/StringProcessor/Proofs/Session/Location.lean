import StringProcessor.Diagnostic.Report
import StringProcessor.Proofs.Batch.Tiling
import StringProcessor.Proofs.Machine.Step
import StringProcessor.Proofs.Session.Origin

/-! Where errors point. The span of an error always has a place in the source that is there when it is
reported, and it marks what the error is about. -/
namespace StringProcessor

/-- Of a text of this length, the span marks some characters or the place behind them. -/
structure Span.Within (span : Span) (length : Nat) : Prop where
  some_text : 0 < length
  start_lt : span.start < span.stop
  stop_le : span.stop ≤ length + 1

private theorem Span.Within.of_le {span : Span} {length : Nat} (hlt : span.start < span.stop)
    (hle : span.stop ≤ length) : span.Within length := ⟨by omega, hlt, by omega⟩

/-- The place behind some characters. -/
theorem Span.Within.behind {span : Span} {length : Nat} (hlt : span.start < span.stop)
    (hle : span.stop ≤ length) : (Span.single span.stop).Within length :=
  ⟨by omega, Nat.lt_succ_self _, Nat.succ_le_succ hle⟩

section
variable {span : Span} {source : String}

private theorem Span.Within.source_ne (h : span.Within source.length) : source ≠ "" := by
  rintro rfl
  exact absurd h.some_text (by decide)

theorem Span.Within.fits (h : span.Within source.length) : span.fits source := by
  have hne := h.source_ne
  obtain ⟨-, hlt, hle⟩ := h
  have hstart : span.start ≤ source.length := by omega
  have hstop : span.stop - 1 ≤ source.length := by omega
  simp [Span.fits, hne, hstart, hstop]

end

namespace Session
open Grammar Machine Scan StringProcessor.Parser

variable {σ ε : Type} [Output σ ε]

/-- The span is that of a statement in the source, from its keyword to its terminator. -/
inductive Covers (source : List Char) (k : Keyword) : List Token → Span → Prop
  | intro {key close : Token} {body : List Token} : key.span.cut source = k.word.toList →
      close.span.cut source = [';'] → key.span.stop ≤ close.span.start →
      (∃ between, (⟨key.span.start, close.span.stop⟩ : Span).cut source =
        k.word.toList ++ (between ++ [';'])) →
      Covers source k (key :: (body ++ [close])) ⟨key.span.start, close.span.stop⟩

/-- A term of the command that is due has no value, and its name is in the span. -/
inductive MarksTerm (s : Session σ) (source : List Char) : Request → Diagnostic → Prop
  | intro {line : String} {statement : List Token} {c : Command} {m : Machine σ} {u : Unresolved} :
      Due s line statement c m → Blames m c.action (.unresolved u) →
      u.diagnostic.span.cut source = u.name.toList → MarksTerm s source (.line line) u.diagnostic

/-- The command that is due has this fault, and its statement is in the span. -/
inductive MarksStatement (s : Session σ) (source : List Char) (d : Diagnostic) :
    Request → Fault → Prop
  | intro {line : String} {statement : List Token} {c : Command} {m : Machine σ} {fault : Fault} :
      Due s line statement c m → Blames m c.action fault → d = fault.diagnostic c.span →
      Covers source c.keyword statement d.span → MarksStatement s source d (.line line) fault

/-- What an error marks in the source, by the kind of the error. -/
def Marks (s : Session σ) (source : List Char) (r : Request) (d : Diagnostic) : Prop :=
  match d.kind with
  | .illegalCharacter => ∃ c, Illegal c ∧ d.span.cut source = [c] ∧
      d.message = "Illegal character '" ++ c.toString ++
        "' - unable to form a token with this character"
  | .unknownTokenKind => False
  | .unterminatedString => ∃ held, s.batch.held = some held ∧ r = .finish ∧
      d.span = ⟨held.literal.start, source.length⟩ ∧
      source[held.literal.start]? = some held.literal.delimiter ∧
      isQuote held.literal.delimiter ∧ Tiled (source.take held.literal.start) held.tokens
  | .malformedStatement => ∃ line tokens t, r = .line line ∧
      (s.batch.feed line).answer = .ok tokens ∧ t ∈ tokens ∧
      (d.span = t.span ∨ d.span = .single t.span.stop ∨ s.parser.state ≠ .ready ∧ d = s.parser.notReady)
  | .undefinedSymbol => MarksTerm s source r d ∨
      ∃ target, MarksStatement s source d r (.nothingToAppendTo target) ∨
        MarksStatement s source d r (.nothingToReverse target)
  | .readOnlySymbol => ∃ target, MarksStatement s source d r (.constant target)
  | .outputFailure => ∃ cause, MarksStatement s source d r (.output cause)

section
variable {source : List Char} {tokens : List Token}

/-- A token has its place in the source, and so has what is behind it. -/
private theorem token_within (h : Tiled source tokens.reverse) {t : Token} (ht : t ∈ tokens) :
    t.span.Within source.length ∧ (Span.single t.span.stop).Within source.length := by
  obtain ⟨-, hlt, hle⟩ := h.spells (List.mem_reverse.mpr ht)
  exact ⟨.of_le hlt hle, .behind hlt hle⟩

/-- Statements stand in the source where their commands say. -/
private theorem Covers.of_statement {front statement rest : List Token} {c : Command}
    (h : Tiled source (front ++ (statement ++ rest)).reverse) (hs : Statement statement c) :
    Covers source c.keyword statement c.span ∧ c.span.Within source.length := by
  obtain ⟨key, body, close, rfl, hkind, hword, hclose, hspan⟩ := hs.parts
  have hkey : key ∈ (front ++ (key :: (body ++ [close]) ++ rest)).reverse := by simp
  have hend : close ∈ (front ++ (key :: (body ++ [close]) ++ rest)).reverse := by simp
  obtain ⟨-, hk, -⟩ := h.spells hkey
  obtain ⟨hspells, hc, hle⟩ := h.spells hend
  have hkt : key.span.cut source = c.keyword.word.toList := by
    rw [h.cut_eq_text hkey (by simp [hkind]), hword]
  have hct : close.span.cut source = [';'] := by
    rw [h.cut_eq_text hend (by simp [hclose]), hspells.terminator_text hclose]
    rfl
  have hord : key.span.stop ≤ close.span.start := by
    have hp := List.pairwise_reverse.mp h.ordered
    have hst := (List.pairwise_append.mp (List.pairwise_append.mp hp).2.1).1
    exact List.rel_of_pairwise_cons hst (by simp)
  have hjoin : ∃ between, (⟨key.span.start, close.span.stop⟩ : Span).cut source =
      c.keyword.word.toList ++ (between ++ [';']) := by
    rw [cut_join source (Nat.le_of_lt hk) (by omega), cut_join source hord (Nat.le_of_lt hc)]
    exact ⟨(⟨key.span.stop, close.span.start⟩ : Span).cut source, by rw [← hkt, ← hct]⟩
  rw [hspan]
  exact ⟨.intro hkt hct hord hjoin, .of_le (show key.span.start < close.span.stop by omega) hle⟩

end

/-- What is held back stays in the source whatever is asked. -/
private theorem after_faithful (level : Level) (sink : σ) (requests : List Request) :
    ((start level sink).after requests).batch.Faithful := by
  refine after_induction (p := fun s => s.batch.Faithful) ?_ (fun s r h => ?_) requests
  · exact Batch.faithful_of_not_pending rfl
  · cases r with
    | line text =>
      rw [handle, runLine_batch]
      exact h.feed text
    | finish => exact Batch.faithful_of_not_pending rfl

section
variable {s : Session σ} {line : String} {d : Diagnostic}

private theorem scan_marks (h : s.batch.Faithful) (ha : (s.batch.feed line).answer = .error d) :
    let source := (s.batch.feed line).next.source.toList
    d.span.Within source.length ∧ Marks s source (.line line) d := by
  intro source
  have hs : Batch.Shows source _ _ := Batch.feed_shows h line
  rw [ha] at hs
  generalize source = text at hs
  generalize (s.batch.feed line).next.held = held at hs
  cases hs with
  | @illegal before after c he hc =>
    subst he
    refine ⟨.of_le (Nat.lt_succ_self _) ?_, c, hc, ?_, rfl⟩
    · simp only [Diagnostic.illegalCharacter, Span.single, List.length_append, List.length_cons]
      omega
    · simp [Diagnostic.illegalCharacter, Span.single, Span.cut]

private theorem read_marks (h : s.batch.Faithful) {front rest : List Token} {commands : List Command}
    {c : Cursor} (ha : (s.batch.feed line).answer = .ok (front ++ rest))
    (hr : Cursor.Reaches {} front commands c) (hs : c.Stuck rest) :
    let source := (s.batch.feed line).next.source.toList
    (c.fault rest).span.Within source.length ∧ Marks s source (.line line) (c.fault rest) := by
  intro source
  obtain ⟨t, ht, hspan⟩ := hs.fault_span hr
  obtain ⟨hat, hbehind⟩ := token_within (Batch.feed_tiled h ha ht) ht
  refine ⟨?_, line, front ++ rest, t, rfl, ha, ht, hspan.imp_right .inl⟩
  rcases hspan with hspan | hspan
  · rw [hspan]
    exact hat
  · rw [hspan]
    exact hbehind

/-- A parser that is not ready points to the first character, which is there since tokens are. -/
private theorem busy_marks (h : s.batch.Faithful) {t : Token} {tokens : List Token}
    (hp : s.parser.state ≠ .ready) (ha : (s.batch.feed line).answer = .ok (t :: tokens)) :
    let source := (s.batch.feed line).next.source.toList
    s.parser.notReady.span.Within source.length ∧ Marks s source (.line line) s.parser.notReady := by
  intro source
  obtain ⟨hat, -⟩ := token_within (Batch.feed_tiled h ha (.head _)) (.head _)
  refine ⟨.of_le (Nat.lt_succ_self 0) hat.some_text, line, t :: tokens, t, rfl, ha, .head _, ?_⟩
  exact .inr (.inr ⟨hp, rfl⟩)

private theorem execute_marks (h : s.batch.Faithful) {statement : List Token} {c : Command} {m : Machine σ}
    (hdue : Due s line statement c m) (he : (m.execute c).answer = .refused d) :
    let source := (s.batch.feed line).next.source.toList
    d.span.Within source.length ∧ Marks s source (.line line) d := by
  intro source
  obtain ⟨fault, hb, rfl⟩ := execute_error he
  obtain @⟨front, rest, _, ha, -, hs, -⟩ := id hdue
  obtain ⟨key, body, close, hparts, -⟩ := hs.parts
  have ht := Batch.feed_tiled (t := key) h ha (by simp [hparts])
  obtain ⟨hc, hw⟩ := Covers.of_statement ht hs
  cases fault with
  | unresolved u =>
    obtain ⟨e, hv, hm⟩ := hb.symbol_mem
    have hname := hs.symbol_mem hv hm
    have hin : (⟨.name, u.name, u.span⟩ : Token) ∈ front ++ (statement ++ rest) := by simp [hname]
    have hcut := ht.cut_eq_text (List.mem_reverse.mpr hin) (by simp)
    exact ⟨(token_within ht hin).1, .inl (.intro hdue hb hcut)⟩
  | nothingToAppendTo target => exact ⟨hw, .inr ⟨target, .inl (.intro hdue hb rfl hc)⟩⟩
  | nothingToReverse target => exact ⟨hw, .inr ⟨target, .inr (.intro hdue hb rfl hc)⟩⟩
  | constant target => exact ⟨hw, target, .intro hdue hb rfl hc⟩
  | output cause => exact ⟨hw, cause, .intro hdue hb rfl hc⟩

private theorem finish_marks (h : s.batch.Faithful) (hd : s.batch.finish.answer = .error d) :
    let source := s.batch.source.toList
    d.span.Within source.length ∧ Marks s source .finish d := by
  intro source
  obtain ⟨held, hh, rfl⟩ := h.finish hd
  obtain ⟨hq, hopened, ht⟩ := (h.reading held hh).opened
  have hlen : s.batch.source.length = source.length := String.length_toList.symm
  obtain ⟨hlt, -⟩ := List.getElem?_eq_some_iff.mp hopened
  have hstart : held.literal.start < s.batch.source.length := Nat.lt_of_lt_of_eq hlt hlen.symm
  exact ⟨.of_le hstart (Nat.le_of_eq hlen), held, hh, rfl, congrArg (Span.mk _) hlen, hopened, hq, ht⟩

/-- Wherever an error comes from, it has its place in the source. -/
private theorem handle_marks {r : Request} (h : s.batch.Faithful) (he : (s.handle r).answer = .refused d) :
    let source := (s.handle r).next.source.toList
    d.span.Within source.length ∧ Marks s source r d := by
  have hline (line : String) : (s.handle (.line line)).next.source = (s.batch.feed line).next.source :=
    congrArg Batch.source (runLine_batch s line)
  cases handle_origin he with
  | scan ha =>
    rw [hline]
    exact scan_marks h ha
  | busy hp ha =>
    rw [hline]
    exact busy_marks h hp ha
  | read ha hr hs =>
    rw [hline]
    exact read_marks h ha hr hs
  | execute hdue hd =>
    rw [hline]
    exact execute_marks h hdue hd
  | finish hh => exact finish_marks h hh

end

/-- Whatever a session has been asked before, an error that it answers with points into the source
that it then has, which shows there what is wrong. -/
theorem error_points_into_source {σ ε : Type} [Output σ ε] (level : Level) (sink : σ)
    (earlier : List Request) (r : Request)
    (d : Diagnostic) :
    let s := (start level sink).after earlier
    let source := (s.handle r).next.source
    (s.handle r).answer = .refused d →
      source ≠ "" ∧ d.span.start < d.span.stop ∧ d.span.start ≤ source.length ∧
        d.span.stop ≤ source.length + 1 ∧
        (∀ file, (d.draft source file).report.location = some (d.draft source file).location) ∧
        Marks s source.toList r d := by
  intro s source he
  have hf := after_faithful level sink earlier
  obtain ⟨hw, hm⟩ : d.span.Within source.toList.length ∧ Marks s source.toList r d :=
    handle_marks hf he
  rw [String.length_toList] at hw
  obtain ⟨-, hlt, hle⟩ := id hw
  have hreport (file : Option String) :
      (d.draft source file).report.location = some (d.draft source file).location := by
    simp [Draft.report, Diagnostic.draft, hw.fits]
  exact ⟨hw.source_ne, hlt, by omega, hle, hreport, hm⟩

/-- A statement over two lines, of which the output takes only the beginning. -/
theorem output_error_points_into_source :
    let s := (start .verbose ({ room := some 3 } : Sink)).after [.line "set a 'x'; print 'b"]
    let r : Request := .line "c' + a; list;"
    let source := (s.handle r).next.source.toList
    ∃ d, (s.handle r).answer = .refused d ∧ d.kind = .outputFailure ∧
      d.span.cut source = "print 'b\nc' + a;".toList ∧ Marks s source r d := by
  obtain ⟨-, -, -, -, -, hm⟩ := error_points_into_source .verbose ({ room := some 3 } : Sink)
    [.line "set a 'x'; print 'b"] (.line "c' + a; list;") _ rfl
  exact ⟨_, rfl, rfl, by decide, hm⟩

end Session
end StringProcessor
