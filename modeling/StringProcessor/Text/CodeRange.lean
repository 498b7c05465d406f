/-! Unions of intervals of code points, the form in which character properties are tabulated. -/
namespace StringProcessor.Text

abbrev CodeRange := Nat × Nat

/-- Whether one of the ranges holds the code point. The ranges are listed in increasing order, so
the search ends at the first range that starts above it. -/
def inRanges : List CodeRange → Nat → Bool
  | [], _ => false
  | (first, last) :: rest, n => first ≤ n && (n ≤ last || inRanges rest n)

theorem inRanges_mem {ranges : List CodeRange} {n : Nat} (h : inRanges ranges n) :
    ∃ range ∈ ranges, range.1 ≤ n ∧ n ≤ range.2 := by
  induction ranges with
  | nil => cases h
  | cons range ranges ih =>
    obtain ⟨hfirst, hlast | hrest⟩ : range.1 ≤ n ∧ (n ≤ range.2 ∨ inRanges ranges n) := by
      simpa [inRanges] using h
    · exact ⟨range, .head _, hfirst, hlast⟩
    · obtain ⟨found, hm, hn⟩ := ih hrest
      exact ⟨found, .tail _ hm, hn⟩

end StringProcessor.Text
