import StringProcessor.Proofs.Grammar.Parts
import StringProcessor.Proofs.Parser.Failure
import StringProcessor.Proofs.Session.Step

/-! Where errors come from. A step that fails does so in one of five places: while the line is scanned,
at a parser that an abandoned line has left, while the tokens are read, at the first command that cannot be
carried out, or at the end of the input. -/
namespace StringProcessor.Session
open Grammar StringProcessor.Parser

variable {σ ε : Type} [Output σ ε]

/-- The command is next when those of the statements in front have been carried out. -/
inductive Due (s : Session σ) (line : String) (statement : List Token) (c : Command) (m : Machine σ) : Prop
  | intro {front rest : List Token} {cut : List (List Token × Command)} :
      (s.batch.feed line).answer = .ok (front ++ (statement ++ rest)) → Cut front cut →
      Statement statement c → executor.Accepts s.machine (cut.map Prod.snd) m →
      Due s line statement c m

/-- What a step fails with, by the place where it fails. -/
inductive Origin (s : Session σ) : Request → Diagnostic → Prop
  | scan {line : String} {d : Diagnostic} : (s.batch.feed line).answer = .error d →
      Origin s (.line line) d
  | busy {line : String} {t : Token} {tokens : List Token} : s.parser.state ≠ .ready →
      (s.batch.feed line).answer = .ok (t :: tokens) → Origin s (.line line) s.parser.notReady
  | read {line : String} {front rest : List Token} {commands : List Command} {c : Cursor} :
      (s.batch.feed line).answer = .ok (front ++ rest) → Cursor.Reaches {} front commands c →
      c.Stuck rest → Origin s (.line line) (c.fault rest)
  | execute {line : String} {statement : List Token} {c : Command} {m : Machine σ} {d : Diagnostic} :
      Due s line statement c m → (m.execute c).answer = .refused d → Origin s (.line line) d
  | finish {d : Diagnostic} : s.batch.finish.answer = .error d → Origin s .finish d

/-- The command that is refused is one of the statements in front. -/
private theorem Due.of_refuses {s : Session σ} {line : String} {tokens : List Token} {handed : List Command}
    {m : Machine σ} {d : Diagnostic} (ha : (s.batch.feed line).answer = .ok tokens)
    (h : executor.Refuses s.machine (({} : Cursor).read tokens).1 handed m d) :
    ∃ statement c m, Due s line statement c m ∧ (m.execute c).answer = .refused d := by
  obtain ⟨whole, rest, cut, rfl, hc, hm⟩ := Cursor.read_commands tokens
  rw [hm] at h
  generalize hcs : cut.map Prod.snd = cs at h
  obtain ⟨hs, hd⟩ := h
  obtain ⟨before, later, rfl, rfl, hl⟩ := List.map_eq_append_iff.mp hcs
  obtain ⟨⟨st, c⟩, after, rfl, rfl, rfl⟩ := List.map_eq_cons_iff.mp hl
  obtain ⟨front, rest', rfl, hf, hst⟩ := hc.split
  rw [List.append_assoc, List.append_assoc] at ha
  exact ⟨st, c, _, .intro ha hf hst hs, hd⟩

/-- A ready parser reads the tokens, and the machine carries the commands out. -/
private theorem ready_origin {s : Session σ} {line : String} {tokens : List Token} {d : Diagnostic}
    (hp : s.parser.state = .ready) (ha : (s.batch.feed line).answer = .ok tokens)
    (h : (s.runLine line).answer = .refused d) : Origin s (.line line) d := by
  rw [(runLine_ok hp ha).2.1] at h
  obtain ⟨m, -, hperform, -⟩ | ⟨handed, m, d', hr, hperform, -⟩ | ⟨reason, hperform⟩ :=
    perform_cases executor s.machine [] (({} : Cursor).read tokens).1
  · cases hf : (({} : Cursor).read tokens).2 with
    | none =>
      rw [hperform, hf] at h
      cases h
    | some d' =>
      rw [hperform, hf] at h
      cases h
      obtain ⟨front, rest, c, rfl, hreach, hstuck, rfl⟩ := Cursor.exists_stuck (Prod.ext rfl hf)
      exact .read ha hreach hstuck
  · rw [hperform] at h
    cases h
    obtain ⟨statement, c, m, hdue, hd⟩ := Due.of_refuses ha hr
    exact .execute hdue hd
  · rw [hperform] at h
    cases h

theorem runLine_origin {s : Session σ} {line : String} {d : Diagnostic}
    (h : (s.runLine line).answer = .refused d) : Origin s (.line line) d := by
  cases ha : (s.batch.feed line).answer with
  | error d' =>
    rw [(runLine_error ha).2] at h
    cases h
    exact .scan ha
  | ok tokens =>
    by_cases hp : s.parser.state = .ready
    · exact ready_origin hp ha h
    · cases tokens with
      | nil => simp [runLine, ha] at h
      | cons t tokens =>
        rw [(runLine_busy hp ha).2] at h
        cases h
        exact .busy hp ha

/-- Every error has its origin. -/
theorem handle_origin {s : Session σ} {r : Request} {d : Diagnostic}
    (h : (s.handle r).answer = .refused d) : Origin s r d := by
  cases r with
  | line text => exact runLine_origin h
  | finish =>
    cases ha : s.batch.finish.answer with
    | ok _ => simp [handle, Session.finish, ha] at h
    | error d' =>
      obtain rfl : d' = d := by simpa [handle, Session.finish, ha] using h
      exact .finish ha

end StringProcessor.Session
