import SdlAssembly.Proofs.Lexing.Lexemes

/-!
# Texts that are written as block strings

A text that passes the test for block strings is what is read back from its block form.
-/

namespace SdlAssembly.Text.Block

/-! ## Lines -/

theorem lines_noEnds {cs : List Char} (hr : '\r' ∉ cs) :
    ∀ line ∈ lines cs, ∀ c ∈ line, c ≠ '\n' ∧ c ≠ '\r' := by
  induction cs with
  | nil => simp [lines]
  | cons c cs ih =>
      have ih := ih fun h => hr (List.mem_cons_of_mem c h)
      by_cases hn : c = '\n'
      · subst hn
        rw [lines]
        simpa using ih
      · have hc : c ≠ '\r' := fun h => hr (by simp [h])
        rw [lines_cons hn hc]
        cases hl : lines cs with
        | nil => exact (lines_ne_nil cs hl).elim
        | cons line others =>
            rw [hl] at ih
            intro x hx d hd
            rcases List.mem_cons.mp hx with rfl | hx
            · rcases List.mem_cons.mp hd with rfl | hd
              · exact ⟨hn, hc⟩
              · exact ih line (by simp) d hd
            · exact ih x (by simp [hx]) d hd

theorem join_lines {cs : List Char} (hr : '\r' ∉ cs) : join (lines cs) = cs := by
  induction cs with
  | nil => rfl
  | cons c cs ih =>
      have ih := ih fun h => hr (List.mem_cons_of_mem c h)
      have hl := lines_ne_nil cs
      by_cases hn : c = '\n'
      · subst hn
        rw [lines]
        cases hc : lines cs with
        | nil => contradiction
        | cons line others => rw [join, List.nil_append, ← hc, ih]; simp
      · rw [lines_cons hn fun h => hr (by simp [h])]
        cases hc : lines cs with
        | nil => contradiction
        | cons line others =>
            rw [hc] at ih
            cases others with
            | nil =>
                rw [← ih]
                rfl
            | cons next others =>
                rw [← ih]
                rfl

/-! ## The test -/

/-- A line that is not blank and does not start with indentation, of which the characters before a
state have been read. -/
def StartsAtMargin (s : Scan) (line : List Char) : Prop :=
  isBlank line = false ∧ s.indented = false ∧ (s.emptyLine → indentOf line = 0)

/-- What the reading of some lines, from a state in the first of them, says about them. -/
structure Scanned (s t : Scan) (first : List Char) (others : List (List Char)) : Prop where
  writable : s.writable
  opening : others ≠ [] → s.seenLine = false → s.emptyLine = false ∨ isBlank first = false
  alone : t.emptyLine = false → others = [] → s.emptyLine = false ∨ isBlank first = false
  last : t.emptyLine = false → ∀ line ∈ others.getLast?, isBlank line = false
  seen : others ≠ [] → t.seenLine
  kept : s.seenLine → t.seenLine
  margin : t.allIndented = false → s.allIndented = false ∨ StartsAtMargin s first
    ∨ ∃ line ∈ others, isBlank line = false ∧ indentOf line = 0

section Steps

variable {s t : Scan} {c : Char} {line : List Char} {more : List (List Char)}

theorem Scanned.newline (h : Scanned (s.step '\n') t line more) :
    Scanned s t [] (line :: more) := by
  have hw : s.writable = true ∧ (s.emptyLine = false ∨ s.seenLine = true) := by
    simpa [Scan.step] using h.writable
  refine ⟨hw.1, fun _ hs => ?_, by simp, fun he x hx => ?_, fun _ => h.kept rfl,
    fun _ => h.kept rfl, fun ha => ?_⟩
  · rw [hs] at hw
    exact .inl (by simpa using hw.2)
  · cases more with
    | nil =>
        obtain rfl : line = x := by simpa using hx
        exact (h.alone he rfl).resolve_left (by simp [Scan.step])
    | cons next more => exact h.last he x (by simpa using hx)
  · rcases h.margin ha with hs | ⟨hb, -, hi⟩ | ⟨x, hx, hb⟩
    · exact .inl hs
    · exact .inr (.inr ⟨line, by simp, hb, hi rfl⟩)
    · exact .inr (.inr ⟨x, by simp [hx], hb⟩)

theorem Scanned.indent (hc : isIndent c) (h : Scanned (s.step c) t line more) :
    Scanned s t (c :: line) more := by
  have hn : c ≠ '\n' := by
    rintro rfl
    cases hc
  have hs : s.step c = { s with indented := s.indented || s.emptyLine } := by
    simp [Scan.step, hn, hc]
  have hb : isBlank (c :: line) = isBlank line := by simp [isBlank, hc]
  rw [hs] at h
  obtain ⟨hw, ho, ha, hl, hseen, hk, hm⟩ := h
  refine ⟨hw, ?_, ?_, hl, hseen, hk, fun hf => ?_⟩
  · rw [hb]
    exact ho
  · rw [hb]
    exact ha
  · rcases hm hf with h | ⟨hb', hi, -⟩ | h
    · exact .inl h
    · have hi : s.indented = false ∧ s.emptyLine = false := by simpa using hi
      refine .inr (.inl ⟨hb.trans hb', hi.1, fun he => ?_⟩)
      rw [hi.2] at he
      cases he
    · exact .inr (.inr h)

theorem Scanned.other (hn : c ≠ '\n') (hc : isIndent c = false)
    (h : Scanned (s.step c) t line more) : 15 < c.toNat ∧ Scanned s t (c :: line) more := by
  by_cases hlow : c.toNat ≤ 0x0F
  · have hs : s.step c = { s with writable := false } := by simp [Scan.step, hn, hc, hlow]
    have hw := h.writable
    rw [hs] at hw
    cases hw
  · have hs : s.step c =
        { s with allIndented := s.allIndented && s.indented, emptyLine := false } := by
      simp [Scan.step, hn, hc, hlow]
    have hb : isBlank (c :: line) = false := by simp [isBlank, hc]
    have h0 : indentOf (c :: line) = 0 := by simp [indentOf, hc]
    rw [hs] at h
    obtain ⟨hw, -, -, hl, hseen, hk, hm⟩ := h
    refine ⟨by omega, hw, fun _ _ => .inr hb, fun _ _ => .inr hb, hl, hseen, hk, fun hf => ?_⟩
    rcases hm hf with h | ⟨-, hi, -⟩ | h
    · have h : s.allIndented = false ∨ s.indented = false := Bool.and_eq_false_iff.mp h
      exact h.imp_right fun hi => .inl ⟨hb, hi, fun _ => h0⟩
    · exact .inr (.inl ⟨hb, hi, fun _ => h0⟩)
    · exact .inr (.inr h)

end Steps

theorem scanned {s : Scan} {cs first : List Char} {others : List (List Char)}
    (hl : lines cs = first :: others) (ht : (cs.foldl Scan.step s).writable) :
    '\r' ∉ cs ∧ Scanned s (cs.foldl Scan.step s) first others := by
  induction cs generalizing s first others with
  | nil =>
      cases hl
      exact ⟨by simp, ht, by simp, fun h _ => .inl h, by simp, by simp, id, .inl⟩
  | cons c cs ih =>
      rw [List.foldl_cons] at ht ⊢
      obtain ⟨line, more, hm⟩ := List.exists_cons_of_ne_nil (lines_ne_nil cs)
      obtain ⟨hr, hs⟩ := ih hm ht
      have hrest : ∀ d, d ≠ '\r' → '\r' ∉ d :: cs := fun d hd => by simp [hr, hd.symm]
      by_cases hn : c = '\n'
      · subst hn
        rw [lines, hm] at hl
        cases hl
        exact ⟨hrest _ (by decide), hs.newline⟩
      · cases hi : isIndent c with
        | true =>
            have hc : c ≠ '\r' := by
              rintro rfl
              cases hi
            rw [lines_cons hn hc, hm] at hl
            cases hl
            exact ⟨hrest c hc, hs.indent hi⟩
        | false =>
            obtain ⟨hlow, hs⟩ := hs.other hn hi
            have hc : c ≠ '\r' := by
              rintro rfl
              simp at hlow
            rw [lines_cons hn hc, hm] at hl
            cases hl
            exact ⟨hrest c hc, hs⟩

/-- A text that is written as a block string is read back from it. -/
theorem dedented_of_isWritable {text : String} (h : isWritable text) :
    ∃ ds, Dedented ds ∧ text.toList = join ds := by
  by_cases he : text = ""
  · subst he
    exact ⟨[], ⟨by simp, by simp, by simp, by simp⟩, rfl⟩
  · have hne : text.isEmpty = false := by simpa using he
    simp only [isWritable, hne, Bool.false_or, Bool.and_eq_true, Bool.not_eq_true',
      Bool.and_eq_false_iff] at h
    obtain ⟨⟨hw, hempty⟩, hind⟩ := h
    obtain ⟨first, others, hl⟩ := List.exists_cons_of_ne_nil (lines_ne_nil text.toList)
    obtain ⟨hr, hs⟩ := scanned hl hw
    have hfirst : isBlank first = false := by
      by_cases ho : others = []
      · exact (hs.alone hempty ho).resolve_left (by simp)
      · exact (hs.opening ho rfl).resolve_left (by simp)
    refine ⟨lines text.toList, ⟨lines_noEnds hr, ?_, ?_, ?_⟩, (join_lines hr).symm⟩
    · simpa [hl] using hfirst
    · rw [hl]
      cases others with
      | nil => simpa using hfirst
      | cons next others => simpa using hs.last hempty
    · rw [hl]
      intro hlen
      have ho : others ≠ [] := by
        rintro rfl
        simp at hlen
      have ha := hind.resolve_right (by simp [hs.seen ho])
      rcases hs.margin ha with h | ⟨hb, -, hi⟩ | ⟨x, hx, hb⟩
      · cases h
      · exact ⟨first, by simp, hb, hi rfl⟩
      · exact ⟨x, by simp [hx], hb⟩

end SdlAssembly.Text.Block
