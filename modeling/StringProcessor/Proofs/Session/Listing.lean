import StringProcessor.Proofs.Machine.Limit
import StringProcessor.Proofs.Pieces
import StringProcessor.Proofs.Session.Symbols
import StringProcessor.Proofs.Text.Quoted

/-! Listings. The list command writes one line for each symbol, in their order, and the symbols can be told
from what it writes. -/
namespace StringProcessor

namespace Symbol

/-- The name has no space and no control character. The value may have any. -/
def Listable (s : Symbol) : Prop := ∀ c ∈ s.name.toList, c ≠ ' ' ∧ Text.isControl c = false

instance (s : Symbol) : Decidable s.Listable := List.decidableBAll _ s.name.toList

/-- What stands behind the value in the line of a symbol. -/
def mark (readonly : Bool) : List Char := if readonly then "[readonly]".toList else []

private theorem mark_unique {readonly readonly' : Bool} (h : mark readonly = mark readonly') :
    readonly = readonly' := by
  revert readonly readonly'
  decide

private theorem toList_listing (s : Symbol) :
    s.listing.toList = s.name.toList ++ ' ' :: (['-', '>', ' '] ++
      (Text.quotedChars s.value.toList ++ ' ' :: mark s.readonly)) := by
  have harrow : " -> ".toList = ' ' :: ['-', '>', ' '] := rfl
  have hspace : " ".toList = [' '] := rfl
  have hmark : (if s.readonly then "[readonly]" else "").toList = mark s.readonly := by
    cases s.readonly <;> rfl
  simp only [listing, String.toList_append, Text.quoted, String.toList_ofList, harrow, hspace, hmark,
    List.append_assoc, List.cons_append, List.nil_append]

private theorem listing_visible {s : Symbol} (h : s.Listable) :
    ∀ c ∈ s.listing.toList, Text.isControl c = false := by
  have hspace : Text.isControl ' ' = false := by decide
  have harrow : ∀ c ∈ ['-', '>', ' '], Text.isControl c = false := by simp [Text.isControl]
  have hmark : ∀ c ∈ mark s.readonly, Text.isControl c = false := by
    cases s.readonly <;> simp [mark, Text.isControl]
  rw [toList_listing]
  simp only [List.forall_mem_append, List.forall_mem_cons (a := ' ')]
  exact ⟨fun c hc => (h c hc).2, hspace, harrow, Text.quotedChars_visible _, hspace, hmark⟩

/-- A line shows one symbol only. -/
private theorem listing_unique {s t : Symbol} (hs : s.Listable) (ht : t.Listable)
    (h : s.listing = t.listing) : s = t := by
  have hchars := congrArg String.toList h
  rw [toList_listing, toList_listing] at hchars
  -- The name ends at the first space, and behind the arrow the value ends where its quotes do.
  obtain ⟨hname, -, hrest⟩ := first_unique (p := (· = ' ')) hchars (fun c hc => (hs c hc).1)
    (fun c hc => (ht c hc).1) rfl rfl
  obtain ⟨hvalue, hmark⟩ := Text.quotedChars_unique (List.append_cancel_left hrest)
  have hreadonly := mark_unique (List.cons.inj hmark).2
  obtain ⟨name, value, readonly⟩ := s
  obtain ⟨name', value', readonly'⟩ := t
  obtain rfl := String.toList_inj.mp hname
  obtain rfl := String.toList_inj.mp hvalue
  obtain rfl := hreadonly
  rfl

private theorem listings_unique {symbols symbols' : List Symbol} (h : ∀ s ∈ symbols, s.Listable)
    (h' : ∀ s ∈ symbols', s.Listable) (he : symbols.map listing = symbols'.map listing) :
    symbols = symbols' := by
  induction symbols generalizing symbols' with
  | nil => exact (List.map_eq_nil_iff.mp he.symm).symm
  | cons s symbols ih =>
    obtain ⟨s', symbols', rfl, hs, hrest⟩ := List.map_eq_cons_iff.mp he.symm
    obtain ⟨hl, hl'⟩ := List.forall_mem_cons.mp h
    obtain ⟨hm, hm'⟩ := List.forall_mem_cons.mp h'
    rw [listing_unique hm hl hs, ih hl' hm' hrest.symm]

private theorem listable_of_isName {s : Symbol} (h : Writing.IsName s.name) : s.Listable := by
  obtain ⟨⟨first, others, he, hf, ho⟩, -⟩ := h
  have hchars : ∀ c ∈ s.name.toList, isNameChar c := by
    rw [he]
    exact List.forall_mem_cons.mpr ⟨Scan.isNameChar_of_isAlpha hf, ho⟩
  intro c hc
  obtain ⟨hlow, hhigh⟩ := Scan.isNameChar_range (hchars c hc)
  refine ⟨?_, by simp [Text.isControl]; omega⟩
  rintro rfl
  exact absurd hlow (by decide)

end Symbol

def SymbolTable.Listable (t : SymbolTable) : Prop := ∀ s ∈ t.symbols, s.Listable

instance (t : SymbolTable) : Decidable t.Listable := List.decidableBAll _ t.symbols

private theorem SymbolTable.listing_unique {t t' : SymbolTable} (h : t.Listable) (h' : t'.Listable)
    (he : t.listing = t'.listing) : t = t' := by
  obtain ⟨symbols, nodup⟩ := t
  obtain ⟨symbols', nodup'⟩ := t'
  obtain rfl := Symbol.listings_unique h h' he
  rfl

namespace Machine

/-- The lines of the list command have no control characters, so each of them is one line. -/
private theorem listing_visible {t : SymbolTable} (h : t.Listable) :
    ∀ line ∈ listing t, ∀ c ∈ line.toList, Text.isControl c = false := by
  refine List.forall_mem_cons.mpr ⟨by simp [Text.isControl], fun line hl => ?_⟩
  obtain ⟨s, hs, rfl⟩ := List.mem_map.mp hl
  exact Symbol.listing_visible (h s hs)

private theorem bytesOfLines_eq {lines : List String} (h : ∀ line ∈ lines, '\n' ∉ line.toList) :
    bytesOfLines lines = Text.bytesOf (String.join (lines.map (· ++ "\n"))) :=
  bytesOfLines_ended fun line hl he => h line hl (List.mem_of_getLast? he)

/-- Lines without line feeds can be told from what is written for them. -/
private theorem bytesOfLines_unique {lines lines' : List String} (h : ∀ line ∈ lines, '\n' ∉ line.toList)
    (h' : ∀ line ∈ lines', '\n' ∉ line.toList) (he : bytesOfLines lines = bytesOfLines lines') :
    lines = lines' := by
  have hfeed : "\n".toList = ['\n'] := rfl
  rw [bytesOfLines_eq h, bytesOfLines_eq h'] at he
  have hchars := congrArg String.toList (Text.bytesOf_injective he)
  simp only [String.toList_join, List.flatMap_map, String.toList_append, hfeed] at hchars
  have hpieces : lines.map String.toList = lines'.map String.toList :=
    pieces_unique (x := '\n') (by simpa using h) (by simpa using h')
      (by simpa [List.flatMap_map] using hchars)
  exact (List.map_inj_right fun _ _ => String.toList_inj.mp).mp hpieces

/-- Without a limit the list command writes its lines. -/
private theorem execute_list {m : Machine} (h : m.sink.room = none) (span : Span) :
    (m.execute ⟨.list, span⟩).answer = .accepted ∧
      (m.execute ⟨.list, span⟩).next.written = m.written ++ bytesOfLines (listing m.symbols) := by
  obtain ⟨hf, -, hw⟩ := emit_unlimited h (listing m.symbols)
  refine ⟨?_, hw⟩
  have ha : (m.execute ⟨.list, span⟩).answer =
      (m.emit (listing m.symbols)).2.map (Fault.diagnostic span) := rfl
  rw [ha, hf]
  rfl

end Machine

namespace Session

/-- Sessions only have symbols that can be listed. -/
private theorem after_listable {σ ε : Type} [Output σ ε] (level : Level) (sink : σ)
    (requests : List Request) :
    ((start level sink).after requests).machine.symbols.Listable := by
  refine after_symbols (p := fun symbols => ∀ s ∈ symbols, s.Listable) level sink [] ?_ ?_ requests
  · intro name value symbols symbols' hn hs h
    have hv : Symbol.Listable ⟨name, value, false⟩ := Symbol.listable_of_isName hn
    cases hs with
    | changed =>
      obtain ⟨hbefore, hafter⟩ := List.forall_mem_append.mp h
      exact List.forall_mem_append.mpr
        ⟨hbefore, List.forall_mem_cons.mpr ⟨hv, (List.forall_mem_cons.mp hafter).2⟩⟩
    | added => exact List.forall_mem_append.mpr ⟨h, List.forall_mem_singleton.mpr hv⟩
  · have hconstants : SymbolTable.constants.Listable := by decide
    exact hconstants

/-- The list command shows the symbols as they are. It writes a header and a line for each symbol, in
their order, and no other line feed and no other control character, whatever the values are; and what it
writes is not written for any other symbols. All this is for names that can be listed, and sessions have no
others. -/
theorem list_shows_symbols {σ ε : Type} [Output σ ε] (level : Level) (sink : σ) (requests : List Request)
    (m m' : Machine) (span span' : Span) (hroom : m.sink.room = none) (hroom' : m'.sink.room = none)
    (hl : m.symbols.Listable) (hl' : m'.symbols.Listable) :
    let listed := m.execute ⟨.list, span⟩
    let listed' := m'.execute ⟨.list, span'⟩
    let lines := "Symbol table (special chars escaped):" :: m.symbols.symbols.map Symbol.listing
    listed.answer = .accepted ∧
    listed.next.written = m.written ++ Text.bytesOf (String.join (lines.map (· ++ "\n"))) ∧
    (∀ line ∈ lines, ∀ c ∈ line.toList, Text.isControl c = false) ∧
    (∀ text, listed.next.written = m.written ++ text → listed'.next.written = m'.written ++ text →
      m.symbols = m'.symbols) ∧
    ((start level sink).after requests).machine.symbols.Listable := by
  intro listed listed' lines
  have hvisible := Machine.listing_visible hl
  have hfeed {t : SymbolTable} (h : t.Listable) : ∀ line ∈ Machine.listing t, '\n' ∉ line.toList :=
    fun line hm hc => absurd (Machine.listing_visible h line hm _ hc) (by decide)
  obtain ⟨hanswer, hwritten⟩ := Machine.execute_list hroom span
  obtain ⟨-, hwritten'⟩ := Machine.execute_list hroom' span'
  refine ⟨hanswer, ?_, hvisible, fun text ht ht' => ?_, after_listable level sink requests⟩
  · exact hwritten.trans (congrArg (m.written ++ ·) (Machine.bytesOfLines_eq (hfeed hl)))
  · have hbytes : Machine.bytesOfLines (Machine.listing m.symbols) = text :=
      List.append_cancel_left (hwritten.symm.trans ht)
    have hbytes' : Machine.bytesOfLines (Machine.listing m'.symbols) = text :=
      List.append_cancel_left (hwritten'.symm.trans ht')
    have hlines := Machine.bytesOfLines_unique (hfeed hl) (hfeed hl') (hbytes.trans hbytes'.symm)
    exact SymbolTable.listing_unique hl hl' (List.cons.inj hlines).2

/-- A control character, and a text that looks like the form in which it is listed. -/
theorem list_shows_symbols_escape :
    let machine (value : String) : Machine :=
      ⟨.off, SymbolTable.constants.define ⟨"x", value, false⟩, {}, true⟩
    let listed (value : String) := ((machine value).execute ⟨.list, ⟨0, 5⟩⟩).next.written
    listed "\x01" ≠ listed "\\x01" := by
  intro machine listed he
  obtain ⟨-, -, -, hsame, -⟩ := list_shows_symbols .off ({} : Sink) [] (machine "\x01")
    (machine "\\x01") ⟨0, 5⟩ ⟨0, 5⟩ rfl rfl (by decide) (by decide)
  have hsymbols := congrArg SymbolTable.symbols (hsame _ rfl he.symm)
  revert hsymbols
  decide

end Session
end StringProcessor
