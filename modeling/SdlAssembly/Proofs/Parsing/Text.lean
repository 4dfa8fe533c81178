import SdlAssembly.Proofs.Parsing.Reads

/-!
# Reading whole texts

The tokens of a text are a stream, so what holds of parsers at streams holds of texts.
-/

namespace SdlAssembly.Grammar.Parser

open Text Lexer

variable {P : Option Position → Prop} {α : Type}

theorem isWord_of_starts {cs : List Char} {l : Lexeme} {n : Nat} (h : Starts cs l n)
    (hl : l ≠ .endOfText) : IsWord l := by
  refine ⟨h.spec.1, hl, fun e he => ?_⟩
  have hx := lexeme_of_starts h
  subst he
  cases h with
  | block hb =>
      obtain ⟨-, text, ht, -⟩ := block_spec (by simp) hb
      cases ht
  | quoted _ hq =>
      obtain ⟨-, text, ht⟩ := quoted_spec hq
      cases ht
  | number _ hn =>
      obtain ⟨m, rest, -, -, hm, -⟩ := number_eq_lexeme.mp hn
      unfold Numeral.lexeme at hm
      split at hm <;> cases hm

/-- The tokens of a text are a stream, unless they start with a fault. -/
theorem stream_tokensFrom {mark : Nat → Option Position} (hP : ∀ offset, P (mark offset))
    {bound cs : List Char} {offset : Nat} (h : cs.length < bound.length) :
    Stream P (tokensFrom mark bound offset cs) ∨
      ∃ t e, tokensFrom mark bound offset cs = [t] ∧ t.lexeme = .fault e := by
  induction bound generalizing offset cs with
  | nil => cases h
  | cons b bound ih =>
      rw [List.length_cons] at h
      cases hl : lexeme (next cs) with
      | fault e n =>
          unfold next at hl
          simp only [tokensFrom, hl]
          exact .inr ⟨_, e, rfl, rfl⟩
      | lexeme l n =>
          have hs := Starts.of_lexeme hl
          by_cases he : l = .endOfText
          · subst he
            unfold next at hl
            simp only [tokensFrom, hl]
            exact .inl (.endOfText rfl (hP _))
          · have hlen := length_drop_next hs he
            rw [tokensFrom_cons hs he]
            rcases ih (Nat.lt_of_lt_of_le hlen (by omega)) with ht | ⟨u, e, hu, hf⟩
            · exact .inl (.word (isWord_of_starts hs he) (hP _) ht)
            · rw [hu]
              exact .inl (.fault (isWord_of_starts hs he) (hP _) hf)

/-- At the end of a text there has been no fault. -/
theorem Stream.no_faults {ts : List Token} (h : Stream P ts) {ls : List Lexeme}
    (hl : ts.map (·.lexeme) = ls ++ [.endOfText]) :
    ∀ l ∈ ls ++ [.endOfText], ∀ e, l ≠ .fault e := by
  induction h generalizing ls with
  | endOfText ht =>
      rw [← hl]
      simp [ht]
  | fault _ _ hu =>
      have hlast := congrArg List.getLast? hl
      simp [hu] at hlast
  | word ht _ hts ih =>
      cases ls with
      | nil =>
          have hnil := (List.cons.inj hl).2
          exact (hts.ne_nil (List.map_eq_nil_iff.mp hnil)).elim
      | cons l ls =>
          obtain ⟨rfl, htail⟩ := List.cons.inj hl
          intro l' hl'
          rcases List.mem_cons.mp hl' with rfl | hl'
          · exact ht.2.2
          · exact ih htail l' hl'

section ReadAll

variable {p : Parser α} {source : Source} {located : Bool}

/-- The places that the tokens of a source may have all satisfy `P`. -/
def Places (P : Option Position → Prop) (source : Source) (located : Bool) : Prop :=
  ∀ offset, P (if located then some ⟨source, offset⟩ else none)

theorem stream_tokens (hP : Places P source located) :
    Stream P (tokens source located) ∨
      ∃ t e, tokens source located = [t] ∧ t.lexeme = .fault e :=
  stream_tokensFrom hP (by simp)

theorem start_stream {ts : List Token} (h : Stream P ts) : start ts = .ok ((), ts) := by
  cases ts with
  | nil => cases h
  | cons t ts =>
      obtain ⟨l, offset, place⟩ := t
      have hn := h.no_fault
      cases l with
      | fault e => exact (hn e rfl).elim
      | _ => rfl

theorem readAll_stream (h : Stream P (tokens source located)) :
    readAll p source located = match p (tokens source located) with
      | .ok (a, _) => .ok a
      | .error e => .error ⟨e.fault, ⟨source, e.offset⟩⟩ := by
  have hp : (start *> p) (tokens source located) = p (tokens source located) := by
    rw [seqRight_eq_bind, bind_apply, start_stream h]
  unfold readAll
  rw [StateT.run, hp]
  cases p (tokens source located) <;> rfl

theorem readAll_eq_ok {a : α} (hP : Places P source located)
    (h : readAll p source located = .ok a) :
    Stream P (tokens source located) ∧ ∃ ts, p (tokens source located) = .ok (a, ts) := by
  rcases stream_tokens hP with hs | ⟨⟨l, offset, place⟩, e, ht, hl⟩
  · refine ⟨hs, ?_⟩
    rw [readAll_stream hs] at h
    split at h
    · rename_i ts hp
      cases h
      exact ⟨ts, hp⟩
    · cases h
  · cases hl
    unfold readAll at h
    rw [ht] at h
    cases h

theorem Stream.endOfText_eq {t : Token} {ts : List Token} (h : Stream P (t :: ts))
    (hl : t.lexeme = .endOfText) : ts = [] := by
  cases h with
  | endOfText => rfl
  | fault ht => exact (ht.2.1 hl).elim
  | word ht => exact (ht.2.1 hl).elim

theorem endOfText_eq_ok {ts : List Token} {r : Unit × List Token} (h : Stream P ts)
    (hr : endOfText ts = .ok r) : ts.map (·.lexeme) = [.endOfText] := by
  cases ts with
  | nil => cases h
  | cons t ts =>
      obtain ⟨a, rest, ha, hb⟩ := bind_eq_ok hr
      cases ha
      by_cases hl : t.lexeme = .endOfText
      · rw [h.endOfText_eq hl, List.map_cons, hl]
        rfl
      · cases hc : t.lexeme with
        | endOfText => contradiction
        | _ =>
            rw [hc] at hb
            cases hb

/-- What holds of a parser holds of the texts that it takes to their ends. -/
theorem Accepts.readAll {Q : List Lexeme → α → Prop} (h : Accepts P p Q) {a : α}
    (hP : Places P source located)
    (hr : Parser.readAll (p <* endOfText) source located = .ok a) :
    ∃ ls, lexemes source.body.toList = ls ++ [.endOfText] ∧ Q ls a := by
  obtain ⟨hs, ts, hp⟩ := readAll_eq_ok hP hr
  rw [seqLeft_eq_bind] at hp
  obtain ⟨a', rest, ha, hb⟩ := bind_eq_ok hp
  obtain ⟨u, rest', he, hc⟩ := bind_eq_ok hb
  cases hc
  rw [← map_tokens source located]
  cases ht : tokens source located with
  | nil => exact (hs.ne_nil ht).elim
  | cons t tail =>
      rw [ht] at hs ha
      obtain ⟨hrest, ls, hl, hq⟩ := h t tail a rest hs ha
      exact ⟨ls, by rw [hl, endOfText_eq_ok hrest he], hq⟩

theorem reads_endOfText : Reads endOfText [] .endOfText True fun _ => True := by
  refine .current fun t ht => ?_
  have ht : t.lexeme = .endOfText := ht
  rw [ht]
  exact .pure trivial

theorem Reads.toEnd {ls : List Lexeme} {fits : Prop} {Q : α → Prop}
    (h : Reads p ls .endOfText fits Q) : Reads (p <* endOfText) ls .endOfText fits Q := by
  rw [seqLeft_eq_bind, ← List.append_nil ls]
  exact (h.bind fun a ha => reads_endOfText.last fun _ _ => ha).mono (by simp) fun _ h => h

/-- What a parser reads it reads from a text of these lexemes. -/
theorem Reads.readAll (source : Source) (located : Bool) {ls : List Lexeme} {fits : Prop} {Q : α → Prop}
    (h : Reads p ls .endOfText fits Q)
    (hl : lexemes source.body.toList = ls ++ [.endOfText]) :
    match Parser.readAll p source located with
    | .ok a => Q a ∧ fits
    | .error _ => ¬fits := by
  rw [← map_tokens source located] at hl
  have hP : Places (fun _ => True) source located := fun _ => trivial
  rcases stream_tokens hP with hs | ⟨t, e, ht, he⟩
  · have hr := h _ [] hl (hs.no_faults hl)
    rw [readAll_stream hs]
    cases hp : p (tokens source located) with
    | ok r =>
        rw [hp] at hr
        exact hr.2
    | error e =>
        rw [hp] at hr
        exact hr
  · have hlast := congrArg List.getLast? hl
    simp [ht, he] at hlast

end ReadAll

end SdlAssembly.Grammar.Parser
