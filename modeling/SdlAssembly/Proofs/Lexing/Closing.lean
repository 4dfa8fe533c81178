import SdlAssembly.Proofs.Lexing.Spelling

/-!
# A brace after a text

A closing brace put after a text is a lexeme of its own unless the text ends in a comment, which it
then belongs to. It never mends a fault.
-/

namespace SdlAssembly.Grammar.Lexer

open Text

/-! ## Faults that a brace cannot mend -/

theorem fourDigits?_close {cs : List Char} {n : Nat}
    (h : Quoted.fourDigits? (cs ++ ['}']) = some n) : Quoted.fourDigits? cs = some n := by
  match cs with
  | [] | [_] | [_, _] => cases h
  | [a, b, c] =>
      have hv : Quoted.hexValue? '}' = none := by decide
      simp [Quoted.fourDigits?, hv] at h
  | a :: b :: c :: d :: rest => exact h

theorem fixedEscape_close {shown : String} (shown' : String) {cs : List Char}
    {found : Char × Nat} (h : fixedEscape shown (cs ++ ['}']) = .ok found) :
    fixedEscape shown' cs = .ok found := by
  unfold fixedEscape at h ⊢
  cases hf : Quoted.fourDigits? (cs ++ ['}']) with
  | none => simp [hf] at h
  | some code =>
      have hc := fourDigits?_close hf
      have hlen := (fourDigits?_append [] hc).2
      simp only [hf] at h
      simp only [hc]
      split at h
      · rename_i hs
        rw [if_pos hs]
        exact h
      · rename_i hs
        rw [if_neg hs]
        rw [List.drop_append_of_le_length hlen] at h
        split at h
        · rename_i more hl hd
          cases ht : (Quoted.fourDigits? more).filter Quoted.isTrailingSurrogate with
          | none => simp [ht] at h
          | some trailing =>
              obtain ⟨hm, htr⟩ := Option.filter_eq_some_iff.mp ht
              obtain ⟨more', hd', hm'⟩ : ∃ more',
                  cs.drop 4 = '\\' :: 'u' :: more' ∧ more = more' ++ ['}'] := by
                match hcs : cs.drop 4 with
                | [] => simp [hcs] at hd
                | [a] => simp [hcs] at hd
                | a :: b :: rest =>
                    rw [hcs] at hd
                    simp only [List.cons_append, List.cons.injEq] at hd
                    exact ⟨rest, by rw [hd.1, hd.2.1], hd.2.2.symm⟩
              rw [hm'] at hm
              have hmc := fourDigits?_close hm
              simp only [ht] at h
              simp only [hd', hl, hmc, Option.filter, htr, ↓reduceIte]
              exact h
        · cases h

/-- A braced escape lies in the part of the text that it takes up. -/
theorem bracedEscape_cut {tail : List Char} {room room' size point : Nat} {cs : List Char}
    {c : Char} {n : Nat} (h : bracedEscape room' size point (cs ++ tail) = .ok (c, n))
    (hlen : n ≤ size + cs.length) (hroom : n ≤ size + room) :
    bracedEscape room size point cs = .ok (c, n) := by
  have hlt := (bracedEscape_append [] (Nat.le_refl _) h).2.1
  induction cs generalizing room room' size point with
  | nil =>
      rw [List.length_nil] at hlen
      omega
  | cons d cs ih =>
      cases room' with
      | zero => cases h
      | succ room' =>
          cases room with
          | zero => omega
          | succ room =>
              simp only [bracedEscape, List.cons_append, List.length_cons] at h hlen ⊢
              split at h
              · rename_i hd
                rw [if_pos hd]
                exact h
              · rename_i hd
                rw [if_neg hd]
                cases hv : Quoted.hexValue? d with
                | none => simp [hv] at h
                | some digit =>
                    simp only [hv] at h
                    have hlt' := (bracedEscape_append [] (Nat.le_refl _) h).2.1
                    exact ih h (by omega) (by omega) hlt'

theorem bracedEscape_room {room size point : Nat} {cs : List Char} {c : Char} {n : Nat}
    (h : bracedEscape room size point cs = .ok (c, n)) : n ≤ size + room := by
  induction room generalizing size point cs with
  | zero => cases cs <;> cases h
  | succ room ih =>
      cases cs with
      | nil => cases h
      | cons d cs =>
          rw [bracedEscape] at h
          split at h
          · split at h
            · cases h
            · cases h
              omega
          · cases hv : Quoted.hexValue? d with
            | none => simp [hv] at h
            | some digit =>
                simp only [hv] at h
                have hn := ih h
                omega

/-- A brace makes an escape of what is none only by ending it. -/
theorem escape_close {cs : List Char} {e : LexicalFault} {c : Char} {n : Nat}
    (he : escape cs = .error e) (h : escape (cs ++ ['}']) = .ok (c, n)) : n = cs.length + 1 := by
  match cs with
  | [] => cases h
  | [b] => cases h
  | b :: d :: rest =>
      by_cases hu : d = 'u'
      · subst hu
        by_cases hb : ∃ braced, rest = '{' :: braced
        · obtain ⟨braced, rfl⟩ := hb
          simp only [List.cons_append, escape] at h he
          cases hr : bracedEscape ((braced ++ ['}']).take 9).length 3 0 (braced ++ ['}']) with
          | error size =>
              rw [hr] at h
              cases h
          | ok found =>
              rw [hr] at h
              cases h
              have hroom := bracedEscape_room hr
              have hlen := (bracedEscape_append [] (Nat.le_refl _) hr).2.2
              simp only [List.length_take, List.length_append, List.length_singleton] at hroom hlen
              by_cases hn : n ≤ 3 + braced.length
              · have hcut : bracedEscape (braced.take 9).length 3 0 braced = .ok (c, n) := by
                  refine bracedEscape_cut hr hn ?_
                  rw [List.length_take]
                  omega
                rw [hcut] at he
                cases he
              · simp only [List.length_cons]
                omega
        · have hne : ∀ braced, rest ≠ '{' :: braced := fun braced he => hb ⟨braced, he⟩
          have hne' : ∀ braced, rest ++ ['}'] ≠ '{' :: braced := by
            intro braced hr
            cases rest with
            | nil => cases hr
            | cons r rest => exact hne rest (by rw [(List.cons.inj hr).1])
          rw [List.cons_append, List.cons_append, escape_fixed hne'] at h
          rw [escape_fixed hne, fixedEscape_close _ h] at he
          cases he
      · rw [List.cons_append, List.cons_append, escape_short hu] at h
        rw [escape_short hu] at he
        cases hs : Quoted.shortEscape? d with
        | none =>
            rw [hs] at h
            cases h
        | some value =>
            rw [hs] at he
            cases he

theorem quoted_close {value : List Char} {length : Nat} {cs : List Char} {l : Lexeme} {n : Nat}
    (h : quoted value length (cs ++ ['}']) = .lexeme l n) :
    ∃ l' n', quoted value length cs = .lexeme l' n' := by
  fun_induction quoted value length cs with
  | case1 value length =>
      rw [List.nil_append, quoted] at h
      simp [quoted, isLineEnd] at h
  | case2 => exact ⟨_, _, rfl⟩
  | case3 value length c rest hc hb e he =>
      rw [List.cons_append, quoted, if_neg hc, if_pos hb, ← List.cons_append] at h
      split at h
      · cases h
      · rename_i value' size hs
        have hn := escape_close he hs
        rw [hn, List.drop_of_length_le (by simp)] at h
        rw [quoted] at h
        cases h
  | case4 value length c rest hc hb value' size he ih =>
      obtain ⟨ha, hlt, hlen⟩ := escape_append ['}'] he
      rw [List.length_cons] at hlen
      rw [List.cons_append, quoted, if_neg hc, if_pos hb, ← List.cons_append, ha] at h
      simp only at h
      rw [List.drop_append_of_le_length (by omega)] at h
      exact ih h
  | case5 value length c rest hc hb hl =>
      rw [List.cons_append, quoted, if_neg hc, if_neg hb, if_pos hl] at h
      cases h
  | case6 value length c rest hc hb hl ih =>
      rw [List.cons_append, quoted, if_neg hc, if_neg hb, if_neg hl] at h
      exact ih h

theorem block_close {done : List (List Char)} {line : List Char} {length : Nat} {cs : List Char}
    {l : Lexeme} {n : Nat} (h : block done line length (cs ++ ['}']) = .lexeme l n) :
    ∃ l' n', block done line length cs = .lexeme l' n' := by
  fun_induction block done line length cs with
  | case1 => cases h
  | case2 => exact ⟨_, _, rfl⟩
  | case3 done line length rest ih | case4 done line length rest ih
  | case6 done line length rest ih =>
      simp only [List.cons_append, block] at h
      exact ih h
  | case5 done line length rest hn ih =>
      have hn' : ∀ tail, rest ++ ['}'] ≠ '\n' :: tail := by
        intro tail he
        cases rest with
        | nil => cases he
        | cons r rest => exact hn rest (by rw [(List.cons.inj he).1])
      rw [List.cons_append, block_return hn'] at h
      exact ih h
  | case7 done line length c rest h1 h2 h3 h4 h5 ih =>
      have hl : isLineEnd c = false := by
        rw [isLineEnd, Bool.or_eq_false_iff, beq_eq_false_iff_ne, beq_eq_false_iff_ne]
        exact ⟨h5, h4⟩
      rw [List.cons_append, block_char ?_ ?_ hl] at h
      · exact ih h
      · intro tail he
        cases rest with
        | nil => simp at he
        | cons a rest =>
            cases rest with
            | nil => simp at he
            | cons b rest => simp_all
      · intro tail he
        cases rest with
        | nil => simp at he
        | cons a rest =>
            cases rest with
            | nil => simp at he
            | cons b rest =>
                cases rest with
                | nil => simp at he
                | cons d rest => simp_all

theorem number_close {cs : List Char} {l : Lexeme} {n : Nat}
    (h : number (cs ++ ['}']) = .lexeme l n) : ∃ l' n', number cs = .lexeme l' n' := by
  obtain ⟨m, rest, he, hr, -, -⟩ := number_eq_lexeme.mp h
  have hb : '}' ∉ m.text := by
    intro hm
    rcases m.mem_text _ hm with hd | hd
    · cases hd
    · revert hd
      decide
  obtain ⟨rest', rfl, rfl⟩ : ∃ rest', cs = m.text ++ rest' ∧ rest = rest' ++ ['}'] := by
    rcases List.append_eq_append_iff.mp he with ⟨more, ht, hm⟩ | ⟨rest', hc, hm⟩
    · cases more with
      | nil => exact ⟨[], by simpa using ht.symm, hm.symm⟩
      | cons c more =>
          obtain rfl := (List.cons.inj hm).1
          exact (hb (by simp [ht])).elim
    · exact ⟨rest', hc, hm⟩
  have hr' : EndsNumber rest' := by
    intro c hc
    cases rest' with
    | nil => cases hc
    | cons d rest' => exact hr c hc
  exact ⟨_, _, number_eq_lexeme.mpr ⟨m, rest', rfl, hr', rfl, rfl⟩⟩

/-- A lexeme that starts a text with a brace after it starts the text without it. -/
theorem Starts.of_close {cs : List Char} {l : Lexeme} {n : Nat} (h : Starts (cs ++ ['}']) l n)
    (hne : cs ≠ []) : ∃ l' n', Starts cs l' n' := by
  cases cs with
  | nil => contradiction
  | cons c cs =>
      rw [List.cons_append] at h
      generalize hrest : cs ++ ['}'] = rest at h
      cases h with
      | @block rest' _ _ hb =>
          match cs with
          | [] | [_] => simp at hrest
          | a :: b :: cs =>
              simp only [List.cons_append, List.cons.injEq] at hrest
              obtain ⟨rfl, rfl, rfl⟩ := hrest
              obtain ⟨l', n', hb'⟩ := block_close hb
              exact ⟨l', n', .block hb'⟩
      | quoted hq hs =>
          subst hrest
          obtain ⟨l', n', hs'⟩ := quoted_close hs
          refine ⟨l', n', .quoted (fun tail ht => ?_) hs'⟩
          subst ht
          exact hq _ rfl
      | spread =>
          match cs with
          | [] | [_] => simp at hrest
          | a :: b :: cs =>
              simp only [List.cons_append, List.cons.injEq] at hrest
              obtain ⟨rfl, rfl, rfl⟩ := hrest
              exact ⟨_, _, .spread⟩
      | punctuator hp => exact ⟨_, _, .punctuator hp⟩
      | number hc hn =>
          subst hrest
          rw [← List.cons_append] at hn
          obtain ⟨l', n', hn'⟩ := number_close hn
          exact ⟨l', n', .number hc hn'⟩
      | name hc => exact ⟨_, _, .name hc⟩

/-! ## Comments at the end -/

/-- Reading lexemes from a text on leads to another text. -/
inductive Reaches : List Char → List Char → Prop where
  | refl {cs : List Char} : Reaches cs cs
  | ignored {c : Char} {cs rest : List Char} (h : isIgnored c) (hr : Reaches cs rest) :
      Reaches (c :: cs) rest
  | comment {cs rest : List Char} (hr : Reaches (cs.dropWhile fun c => !isLineEnd c) rest) :
      Reaches ('#' :: cs) rest
  | lexeme {cs rest : List Char} {l : Lexeme} {n : Nat} (h : Starts cs l n)
      (hl : l ≠ .endOfText) (hr : Reaches (cs.drop n) rest) : Reaches cs rest

/-- The last line of the text ends in a comment, so that what is put after it belongs to that. -/
def EndsInComment (cs : List Char) : Prop :=
  ∃ comment, Reaches cs ('#' :: comment) ∧ ∀ c ∈ comment, isLineEnd c = false

theorem dropWhile_comment {comment : List Char} (h : ∀ c ∈ comment, isLineEnd c = false) :
    (comment.dropWhile fun c => !isLineEnd c) = [] := by
  induction comment with
  | nil => rfl
  | cons c comment ih =>
      rw [List.dropWhile_cons_of_pos (by simp [h c (by simp)])]
      exact ih fun d hd => h d (List.mem_cons_of_mem c hd)

/-- A comment goes on to the end of its line, whatever comes after the text. -/
theorem dropWhile_line (cs tail : List Char) : (∀ c ∈ cs, isLineEnd c = false) ∨
    ((cs ++ tail).dropWhile fun c => !isLineEnd c) =
      (cs.dropWhile fun c => !isLineEnd c) ++ tail := by
  induction cs with
  | nil => simp
  | cons c cs ih =>
      cases hc : isLineEnd c with
      | true => exact .inr (by simp [hc])
      | false => simpa [hc] using ih

/-- A brace after a comment is swallowed. -/
theorem lexemes_close_comment {cs : List Char} (h : EndsInComment cs) :
    lexemes (cs ++ ['}']) = lexemes cs := by
  obtain ⟨comment, hr, hc⟩ := h
  generalize hrest : '#' :: comment = rest at hr
  induction hr with
  | refl =>
      subst hrest
      have hb : ∀ c ∈ comment ++ ['}'], isLineEnd c = false := by
        intro c hm
        rcases List.mem_append.mp hm with hm | hm
        · exact hc c hm
        · obtain rfl := List.mem_singleton.mp hm
          rfl
      rw [List.cons_append, lexemes_comment, lexemes_comment, dropWhile_comment hc,
        dropWhile_comment hb]
  | ignored h hr ih =>
      rw [List.cons_append, lexemes_ignored h, lexemes_ignored h, ih hrest]
  | @comment cs rest hr ih =>
      rw [List.cons_append, lexemes_comment, lexemes_comment]
      rcases dropWhile_line cs ['}'] with hline | hline
      · rw [dropWhile_comment hline] at hr
        cases hr with
        | refl => cases hrest
        | lexeme h hl => exact (hl (h.spec.2.resolve_right (by simp)).1).elim
      · rw [hline, ih hrest]
  | lexeme h hl hr ih =>
      have hap : Apart ['}'] := by decide
      obtain ⟨ha, hn⟩ := h.append hl hap
      rw [ha.lexemes_eq hl, h.lexemes_eq hl, List.drop_append_of_le_length hn, ih hrest]

/-- Where a lexeme starts, a brace at the end changes neither that lexeme nor that there is none. -/
theorem lexemes_close_start {c : Char} {cs : List Char} (hi : isIgnored c = false) (hh : c ≠ '#') :
    (∃ e e', lexemes (c :: cs) = [.fault e] ∧ lexemes (c :: cs ++ ['}']) = [.fault e']) ∨
    ∃ l n, Starts (c :: cs) l n ∧ l ≠ .endOfText ∧ ((c :: cs).drop n).length < (c :: cs).length
      ∧ lexemes (c :: cs) = l :: lexemes ((c :: cs).drop n)
      ∧ lexemes (c :: cs ++ ['}']) = l :: lexemes ((c :: cs).drop n ++ ['}']) := by
  have hn : ∀ rest, next (c :: rest) = c :: rest := fun _ => next_eq_self hh hi
  cases hl : lexeme (next (c :: cs)) with
  | fault e n =>
      cases hl' : lexeme (next (c :: cs ++ ['}'])) with
      | fault e' n' => exact .inl ⟨e, e', lexemes_fault hl, lexemes_fault hl'⟩
      | lexeme l' n' =>
          have hs := Starts.of_lexeme hl'
          rw [List.cons_append, hn, ← List.cons_append] at hs
          obtain ⟨l'', n'', hs'⟩ := hs.of_close (by simp)
          rw [hn, lexeme_of_starts hs'] at hl
          cases hl
  | lexeme l n =>
      have hs := Starts.of_lexeme hl
      rw [hn] at hs
      have hne : l ≠ .endOfText := by
        rintro rfl
        simpa using hs.spec.2
      have hap : Apart ['}'] := by decide
      obtain ⟨ha, hlen⟩ := hs.append hne hap
      have hlt := length_drop_next ((hn cs).symm ▸ hs) hne
      rw [hn] at hlt
      refine .inr ⟨l, n, hs, hne, hlt, hs.lexemes_eq hne, ?_⟩
      rw [ha.lexemes_eq hne, List.drop_append_of_le_length hlen]

/-- A brace after a text that does not end in a comment is one more lexeme, and a fault before it
stays a fault. -/
theorem lexemes_close {cs : List Char} (h : ¬EndsInComment cs) :
    (∃ ls, lexemes cs = ls ++ [.endOfText] ∧
      lexemes (cs ++ ['}']) = ls ++ [.punctuator .braceClose, .endOfText]) ∨
    ∃ ls ls' e e', lexemes cs = ls ++ [.fault e] ∧ lexemes (cs ++ ['}']) = ls' ++ [.fault e'] := by
  induction hlen : cs.length using Nat.strongRecOn generalizing cs with
  | ind length ih =>
      subst hlen
      cases cs with
      | nil =>
          refine .inl ⟨[], lexemes_nil, ?_⟩
          rw [List.nil_append, lexemes_punctuator rfl, lexemes_nil]
          rfl
      | cons c cs =>
          by_cases hi : isIgnored c
          · have hc : ¬EndsInComment cs := fun ⟨comment, hr, hc⟩ => h ⟨comment, .ignored hi hr, hc⟩
            rw [List.cons_append, lexemes_ignored hi, lexemes_ignored hi]
            exact ih cs.length (by simp) hc rfl
          · by_cases hh : c = '#'
            · subst hh
              rcases dropWhile_line cs ['}'] with hline | hline
              · exact (h ⟨cs, .refl, hline⟩).elim
              · have hc : ¬EndsInComment (cs.dropWhile fun c => !isLineEnd c) :=
                  fun ⟨comment, hr, hc⟩ => h ⟨comment, .comment hr, hc⟩
                have hle := (List.dropWhile_suffix (l := cs) fun c => !isLineEnd c).length_le
                rw [List.cons_append, lexemes_comment, lexemes_comment, hline]
                exact ih _ (Nat.lt_succ_of_le hle) hc rfl
            · have hi : isIgnored c = false := by simpa using hi
              rcases lexemes_close_start hi hh with
                ⟨e, e', he, he'⟩ | ⟨l, n, hs, hne, hlt, hl, hl'⟩
              · exact .inr ⟨[], [], e, e', he, he'⟩
              · have hc : ¬EndsInComment ((c :: cs).drop n) :=
                  fun ⟨comment, hr, hc⟩ => h ⟨comment, .lexeme hs hne hr, hc⟩
                rw [hl, hl']
                rcases ih _ hlt hc rfl with ⟨ls, h1, h2⟩ | ⟨ls, ls', e, e', h1, h2⟩
                · exact .inl ⟨l :: ls, by rw [h1]; rfl, by rw [h2]; rfl⟩
                · exact .inr ⟨l :: ls, l :: ls', e, e', by rw [h1]; rfl, by rw [h2]; rfl⟩

end SdlAssembly.Grammar.Lexer
