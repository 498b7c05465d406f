import StringProcessor.Proofs.Machine.Step

/-! What failed commands leave behind: nothing in the symbols, and in the output at most the beginning of
what they would have written. -/
namespace StringProcessor.Machine

private theorem kind_diagnostic (fault : Fault) (span : Span) :
    (fault.diagnostic span).kind = .outputFailure ↔ ∃ cause, fault = .output cause := by
  cases fault <;>
    simp [Fault.diagnostic, Unresolved.diagnostic, Diagnostic.withHelp, Diagnostic.undefinedSymbol,
      Diagnostic.readOnlySymbol, Diagnostic.outputFailure]

def unlimited (m : Machine) : Machine := { m with sink := { m.sink with room := none } }

/-- Lines that the output refuses have been written in part. Without a limit they are written. -/
theorem emit_refused {m : Machine} {lines : List String} (h : (m.emit lines).2 ≠ .accepted) :
    (m.unlimited.emit lines).2 = .accepted ∧ ∃ done more, more ≠ [] ∧
      (m.emit lines).1.sink.written = m.sink.written ++ done ∧
      (m.unlimited.emit lines).1.sink.written = m.sink.written ++ (done ++ more) := by
  let pieces := (lines.flatMap linePieces).map Text.bytesOf
  have hfree := Sink.writeAll_unlimited (s := m.unlimited.sink) rfl pieces
  have hrefused : (Output.writeAll m.sink pieces).2 ≠ .accepted :=
    fun ha => h (Verdict.map_accepted.mpr ha)
  obtain ⟨done, more, hne, hall, hwritten⟩ := Sink.writeAll_refused hrefused
  refine ⟨congrArg (fun o => o.2.map Fault.output) hfree, done, more, hne, hwritten, ?_⟩
  calc (m.unlimited.emit lines).1.sink.written
      = (Output.writeAll m.unlimited.sink pieces).1.written := rfl
    _ = m.sink.written ++ (done ++ more) := by
      rw [hfree, hall]
      simp [Sink.written, unlimited]

/-- A command that fails changes neither the symbols nor whether more commands are wanted. It has written
nothing, unless it is the output that fails; then it has written a beginning, not all, of what it writes
where there is room. A command that is carried out changes no symbol but its target. -/
theorem execute_leaves_no_trace (m : Machine) (c : Command) :
    let turn := m.execute c
    let free := m.unlimited.execute c
    (∀ d, turn.answer = .refused d →
      turn.next.symbols = m.symbols ∧ turn.next.running = m.running ∧
      (d.kind ≠ .outputFailure → turn.next.sink = m.sink) ∧
      (d.kind = .outputFailure → free.answer = .accepted ∧ ∃ done more, more ≠ [] ∧
        turn.next.sink.written = m.sink.written ++ done ∧
        free.next.sink.written = m.sink.written ++ (done ++ more))) ∧
    (turn.answer = .accepted →
      (∀ name, c.action.target? = some name →
        ∃ value, Stored name value m.symbols.symbols turn.next.symbols.symbols) ∧
      (c.action.target? = none → turn.next.symbols = m.symbols)) := by
  intro turn free
  obtain ⟨verdict, hp, ha⟩ := execute_performs m c
  refine ⟨fun d hd => ?_, fun hok => ?_⟩
  · obtain ⟨fault, rfl, rfl⟩ := Verdict.map_refused.mp (ha.symm.trans hd)
    obtain ⟨hs, hr, hkept⟩ := hp.failed
    refine ⟨hs, hr, fun hk => hkept fun cause hc => ?_, fun hk => ?_⟩
    · exact hk ((kind_diagnostic fault c.span).mpr ⟨cause, hc⟩)
    · obtain ⟨cause, rfl⟩ := (kind_diagnostic fault c.span).mp hk
      obtain ⟨lines, he, hn, hrefused⟩ := hp.output_failed
      have hnot : (m.emit lines).2 ≠ .accepted := by simp [hrefused]
      obtain ⟨hfree, done, more, hne, hwritten, hall⟩ := emit_refused hnot
      obtain ⟨hfn, hfa⟩ := execute_emit (m := m.unlimited) he
      refine ⟨hfa.trans (Verdict.map_accepted.mpr hfree), done, more, hne, ?_, ?_⟩
      · exact hn ▸ hwritten
      · exact hfn ▸ hall
  · obtain rfl := Verdict.map_accepted.mp (ha.symm.trans hok)
    exact hp.done

/-- A line that does not fit, and a value that is stored where nothing fits any more. -/
theorem execute_leaves_no_trace_when_full :
    let m : Machine := .start .off { room := some 2 }
    let print : Command := ⟨.print .text [.literal "ab" ⟨6, 10⟩], ⟨0, 11⟩⟩
    let set : Command := ⟨.set "x" [.symbol "TAB" ⟨6, 9⟩], ⟨0, 10⟩⟩
    (∃ d, (m.execute print).answer = .refused d ∧ d.kind = .outputFailure ∧
      (m.execute print).next.symbols = m.symbols ∧ ∃ done more, more ≠ [] ∧
        (m.execute print).next.sink.written = m.sink.written ++ done ∧
        (m.unlimited.execute print).next.sink.written = m.sink.written ++ (done ++ more)) ∧
    ∃ value, Stored "x" value m.symbols.symbols (m.execute set).next.symbols.symbols := by
  intro m print set
  obtain ⟨hs, -, -, hout⟩ := (execute_leaves_no_trace m print).1 _ rfl
  obtain ⟨hset, -⟩ := (execute_leaves_no_trace m set).2 rfl
  exact ⟨⟨_, rfl, rfl, hs, (hout rfl).2⟩, hset "x" rfl⟩

end StringProcessor.Machine
