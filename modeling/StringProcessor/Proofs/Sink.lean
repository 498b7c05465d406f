import StringProcessor.Sink

/-! Sinks of limited room. What is written piece by piece arrives as one text, as far as there is room
for it, and only a text that does not fit is refused. -/
namespace StringProcessor

/-- The place has taken these bytes, in one piece or in several, and this has become of it. -/
def Output.Takes {σ ε : Type} [Output σ ε] (s : σ) (bytes : List UInt8) (next : σ) : Prop :=
  ∃ pieces, pieces.flatten = bytes ∧ writeAll s pieces = (next, .accepted)

namespace Sink

theorem write_unlimited {s : Sink} (h : s.room = none) (bytes : List UInt8) :
    s.write bytes = ({ s with latest := bytes.reverse ++ s.latest }, .accepted) := by
  simp [write, h]

theorem write_nil (s : Sink) : s.write [] = (s, .accepted) := by
  obtain ⟨latest, room⟩ := s
  cases room <;> simp [write]

/-- What a first piece leaves of the room, a second one finds. -/
theorem write_append (s : Sink) (first second : List UInt8) :
    s.write (first ++ second) = match s.write first with
      | (next, .accepted) => next.write second
      | stopped => stopped := by
  obtain ⟨latest, room⟩ := s
  cases room with
  | none => simp [write]
  | some room =>
    by_cases hfits : first.length ≤ room
    · have hiff : first.length + second.length ≤ room ↔ second.length ≤ room - first.length := by omega
      simp [write, hfits, List.take_append, hiff, Nat.sub_sub]
    · have hlt : room < first.length := Nat.lt_of_not_le hfits
      have hnot : ¬ first.length + second.length ≤ room := by omega
      have hroom : room - (first.length + second.length) = room - first.length := by omega
      simp [write, hfits, hnot, hroom, List.take_append_of_le_length (Nat.le_of_lt hlt)]

/-- Pieces arrive like the text that they make up. -/
theorem writeAll_eq_write (s : Sink) (pieces : List (List UInt8)) :
    Output.writeAll s pieces = s.write pieces.flatten := by
  induction pieces generalizing s with
  | nil => exact (write_nil s).symm
  | cons piece pieces ih =>
    rw [List.flatten_cons, write_append, Output.writeAll]
    have hw : Output.write s piece = s.write piece := rfl
    rw [hw]
    generalize s.write piece = outcome
    obtain ⟨next, verdict⟩ := outcome
    cases verdict with
    | accepted => exact ih next
    | refused cause => rfl
    | abandoned reason => rfl

/-- A sink without limit takes all of it. -/
theorem writeAll_unlimited {s : Sink} (h : s.room = none) (pieces : List (List UInt8)) :
    Output.writeAll s pieces = ({ s with latest := pieces.flatten.reverse ++ s.latest }, .accepted) := by
  rw [writeAll_eq_write, write_unlimited h]

/-- A limited sink takes as much as it has room for, and accepts it only if that is all. -/
private theorem writeAll_limited {s : Sink} {room : Nat} (h : s.room = some room)
    (pieces : List (List UInt8)) :
    let outcome := Output.writeAll s pieces
    outcome.1.written = s.written ++ pieces.flatten.take room ∧
      (outcome.2 = .accepted ↔ pieces.flatten.length ≤ room) := by
  intro outcome
  have ho : outcome = s.write pieces.flatten := writeAll_eq_write s pieces
  rw [ho]
  generalize pieces.flatten = bytes
  simp only [write, h]
  exact ⟨by simp [written], by simp⟩

/-- What a sink refuses it has taken a beginning of, and a byte at least is missing. -/
theorem writeAll_refused {s : Sink} {pieces : List (List UInt8)}
    (h : (Output.writeAll s pieces).2 ≠ .accepted) :
    ∃ done more, more ≠ [] ∧ pieces.flatten = done ++ more ∧
      (Output.writeAll s pieces).1.written = s.written ++ done := by
  cases hr : s.room with
  | none =>
    rw [writeAll_unlimited hr] at h
    exact absurd rfl h
  | some room =>
    obtain ⟨hwritten, hfull⟩ := writeAll_limited hr pieces
    have hlt := Nat.lt_of_not_le fun hle => h (hfull.mpr hle)
    refine ⟨pieces.flatten.take room, pieces.flatten.drop room, ?_, ?_, hwritten⟩
    · simpa using hlt
    · exact (List.take_append_drop room _).symm

/-- What a sink has taken it has added to what was written before. -/
theorem written_of_takes {s next : Sink} {bytes : List UInt8} (h : Output.Takes s bytes next) :
    next.written = s.written ++ bytes := by
  obtain ⟨pieces, rfl, hw⟩ := h
  have hnext : next = (Output.writeAll s pieces).1 := by rw [hw]
  rw [hnext]
  cases hr : s.room with
  | none =>
    rw [writeAll_unlimited hr]
    simp [written]
  | some room =>
    obtain ⟨hwritten, haccepted⟩ := writeAll_limited hr pieces
    have hfits : pieces.flatten.length ≤ room := haccepted.mp (by rw [hw])
    rw [hwritten, List.take_of_length_le hfits]

/-- The sink as it would be had it taken only so many bytes. -/
def limited (k : Nat) (s : Sink) : Sink :=
  { latest := (s.written.take k).reverse, room := some (k - s.written.length) }

@[simp] theorem written_limited (k : Nat) (s : Sink) : (s.limited k).written = s.written.take k := by
  simp [limited, written]

/-- Where a sink with room for all takes what is written, one with less takes the beginning of it. -/
theorem write_limited {s : Sink} (h : s.room = none) (k : Nat) (bytes : List UInt8) :
    (s.limited k).write bytes = ((s.write bytes).1.limited k,
      if bytes.length ≤ k - s.written.length then .accepted else .refused "sink full") := by
  rw [write_unlimited h]
  simp [write, limited, written, List.take_append, Nat.sub_sub]

/-- A sink without room takes nothing. -/
theorem write_full {s : Sink} (h : s.room = some 0) {bytes : List UInt8} (hb : bytes ≠ []) :
    s.write bytes = (s, .refused "sink full") := by
  obtain ⟨latest, room⟩ := s
  obtain rfl : room = some 0 := h
  simp [write, hb]

end Sink
end StringProcessor
