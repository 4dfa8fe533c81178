import SdlAssembly.Proofs.Lexing.Lexemes

/-!
# Text after a lexeme

A lexeme stays what it is when text is put after it that cannot be taken for its continuation. Main
statement: the lexemes of a text that goes on with such a text are those of both parts.
-/

namespace SdlAssembly.Grammar.Lexer

open Text

/-! ## Skipped characters -/

theorem skipped_ignored {c : Char} {cs : List Char} (h : isIgnored c) :
    skipped (c :: cs) = 1 + skipped cs := by
  rw [skipped]
  · simp [h]
  · rintro rfl
    simp [isIgnored, isLineEnd] at h

theorem next_ignored {c : Char} {cs : List Char} (h : isIgnored c) : next (c :: cs) = next cs := by
  rw [next, skipped_ignored h, Nat.add_comm, List.drop_succ_cons, next]

theorem next_comment (cs : List Char) :
    next ('#' :: cs) = next (cs.dropWhile fun c => !isLineEnd c) := by
  have hd : cs.drop (cs.takeWhile fun c => !isLineEnd c).length =
      cs.dropWhile fun c => !isLineEnd c := by
    induction cs with
    | nil => rfl
    | cons c cs ih => by_cases hc : isLineEnd c <;> simp [hc, ih]
  rw [next, skipped]
  simp only [hd]
  rw [Nat.add_assoc, Nat.add_comm, List.drop_succ_cons, ← List.drop_drop, hd, next]

theorem next_eq_self {c : Char} {rest : List Char} (hh : c ≠ '#') (hi : isIgnored c = false) :
    next (c :: rest) = c :: rest := by
  rw [next, skipped]
  · simp [hi]
  · exact hh

/-- A text whose first lexeme starts at once. -/
theorem Starts.next_eq {cs : List Char} {l : Lexeme} {n : Nat} (h : Starts cs l n) :
    next cs = cs := by
  cases h with
  | endOfText => simp [next]
  | block h => exact next_eq_self (by decide) (by decide)
  | quoted hq h => exact next_eq_self (by decide) (by decide)
  | spread => exact next_eq_self (by decide) (by decide)
  | punctuator h =>
      refine next_eq_self ?_ ?_
      · rintro rfl
        cases h
      · have ht := Punctuator.toList_text h
        rename_i p _
        cases p <;> cases ht <;> decide
  | number hn h =>
      obtain ⟨-, -, -, hh, hi⟩ := wordStart_spec (hn.imp_right Or.inl)
      exact next_eq_self hh hi
  | name hn =>
      obtain ⟨-, -, -, hh, hi⟩ := wordStart_spec (.inr (.inr hn))
      exact next_eq_self hh hi

theorem lexemes_congr {cs cs' : List Char} (h : next cs = next cs') : lexemes cs = lexemes cs' := by
  cases hl : lexeme (next cs) with
  | fault e n => rw [lexemes_fault hl, lexemes_fault (h ▸ hl)]
  | lexeme l n =>
      have hs := Starts.of_lexeme hl
      rcases hs.spec.2 with ⟨rfl, hn⟩ | ⟨hne, -⟩
      · rw [lexemes_of_next_nil hn, lexemes_of_next_nil (h ▸ hn)]
      · have hr := lexemes_cons (h ▸ hs) hne
        rw [lexemes_cons hs hne, hr, h]

theorem lexemes_ignored {c : Char} {cs : List Char} (h : isIgnored c) :
    lexemes (c :: cs) = lexemes cs :=
  lexemes_congr (next_ignored h)

theorem lexemes_comment (cs : List Char) :
    lexemes ('#' :: cs) = lexemes (cs.dropWhile fun c => !isLineEnd c) :=
  lexemes_congr (next_comment cs)

theorem Starts.lexemes_eq {cs : List Char} {l : Lexeme} {n : Nat} (h : Starts cs l n)
    (hl : l ≠ .endOfText) : lexemes cs = l :: lexemes (cs.drop n) := by
  have hn := h.next_eq
  rw [lexemes_cons (hn.symm ▸ h) hl, hn]

/-! ## Text after a string -/

theorem bracedEscape_append (tail : List Char) {room room' size point : Nat} {cs : List Char}
    {c : Char} {n : Nat} (hr : room ≤ room') (h : bracedEscape room size point cs = .ok (c, n)) :
    bracedEscape room' size point (cs ++ tail) = .ok (c, n) ∧ size < n ∧ n ≤ size + cs.length := by
  induction room generalizing room' size point cs with
  | zero => cases cs <;> cases h
  | succ room ih =>
      cases room' with
      | zero => omega
      | succ room' =>
          cases cs with
          | nil => cases h
          | cons d cs =>
              simp only [bracedEscape, List.cons_append, List.length_cons] at h ⊢
              split at h
              · split at h
                · cases h
                · rename_i hd hs
                  cases h
                  exact ⟨by simp [hd, hs], by omega, by omega⟩
              · rename_i hd
                cases hv : Quoted.hexValue? d with
                | none => simp [hv] at h
                | some digit =>
                    simp only [hv] at h
                    obtain ⟨hb, hlt, hle⟩ := ih (Nat.le_of_succ_le_succ hr) h
                    exact ⟨by simp [hd, hb], by omega, by omega⟩

theorem fourDigits?_append (tail : List Char) {cs : List Char} {n : Nat}
    (h : Quoted.fourDigits? cs = some n) :
    Quoted.fourDigits? (cs ++ tail) = some n ∧ 4 ≤ cs.length := by
  match cs with
  | [] | [_] | [_, _] | [_, _, _] => cases h
  | a :: b :: c :: d :: rest => exact ⟨h, by simp⟩

theorem fixedEscape_append (shown' : String) (tail : List Char) {shown : String} {cs : List Char}
    {c : Char} {n : Nat} (h : fixedEscape shown cs = .ok (c, n)) :
    fixedEscape shown' (cs ++ tail) = .ok (c, n) ∧ 6 ≤ n ∧ n ≤ cs.length + 2 := by
  unfold fixedEscape at h ⊢
  cases hf : Quoted.fourDigits? cs with
  | none => simp [hf] at h
  | some code =>
      obtain ⟨ha, hlen⟩ := fourDigits?_append tail hf
      simp only [hf] at h
      simp only [ha]
      split at h
      · rename_i hs
        cases h
        exact ⟨by simp [hs], by omega, by omega⟩
      · rename_i hs
        split at h
        · rename_i more hl hd
          cases ht : (Quoted.fourDigits? more).filter Quoted.isTrailingSurrogate with
          | none => simp [ht] at h
          | some trailing =>
              obtain ⟨hm, htr⟩ := Option.filter_eq_some_iff.mp ht
              obtain ⟨hma, hmlen⟩ := fourDigits?_append tail hm
              have hdlen := congrArg List.length hd
              simp only [ht, Except.ok.injEq, Prod.mk.injEq] at h
              obtain ⟨rfl, rfl⟩ := h
              rw [List.drop_append_of_le_length hlen, hd]
              simp only [List.length_drop, List.length_cons] at hdlen
              refine ⟨?_, by omega, by omega⟩
              rw [if_neg hs, hl]
              simp only [List.cons_append, hma, Option.filter, htr, ↓reduceIte]
        · cases h

theorem escape_fixed {b : Char} {rest : List Char} (h : ∀ tail, rest ≠ '{' :: tail) :
    escape (b :: 'u' :: rest) =
      fixedEscape (String.ofList ((b :: 'u' :: rest).take 6)) rest := by
  unfold escape
  split
  · rename_i he
    exact (h _ (by simpa using (List.cons.inj (List.cons.inj he).2).2)).elim
  · rename_i he
    cases he
    rfl
  · rename_i he
    cases he
    simp_all
  · simp_all

theorem escape_short {b c : Char} {rest : List Char} (h : c ≠ 'u') :
    escape (b :: c :: rest) =
      match Quoted.shortEscape? c with
      | some value => .ok (value, 2)
      | none => .error (.invalidEscape (String.ofList [b, c])) := by
  unfold escape
  split
  · simp_all
  · simp_all
  · rename_i he
    cases he
    rfl
  · simp_all

theorem escape_append (tail : List Char) {cs : List Char} {c : Char} {n : Nat}
    (h : escape cs = .ok (c, n)) :
    escape (cs ++ tail) = .ok (c, n) ∧ 2 ≤ n ∧ n ≤ cs.length := by
  match cs with
  | [] => cases h
  | [_] => cases h
  | b :: d :: rest =>
      by_cases hu : d = 'u'
      · subst hu
        by_cases hb : ∃ braced, rest = '{' :: braced
        · obtain ⟨braced, rfl⟩ := hb
          simp only [List.cons_append, escape] at h ⊢
          cases hr : bracedEscape (braced.take 9).length 3 0 braced with
          | error size =>
              rw [hr] at h
              cases h
          | ok found =>
              rw [hr] at h
              cases h
              have hle : (braced.take 9).length ≤ ((braced ++ tail).take 9).length := by
                simp only [List.length_take, List.length_append]
                omega
              obtain ⟨ha, hlt, hlen⟩ := bracedEscape_append tail hle hr
              rw [ha]
              exact ⟨rfl, by omega, by simp only [List.length_cons]; omega⟩
        · have hne : ∀ braced, rest ≠ '{' :: braced := fun braced he => hb ⟨braced, he⟩
          rw [escape_fixed hne] at h
          obtain ⟨-, hlt, hlen⟩ := fixedEscape_append "" tail h
          cases rest with
          | nil =>
              rw [List.length_nil] at hlen
              omega
          | cons r rest =>
              have hne' : ∀ braced, r :: (rest ++ tail) ≠ '{' :: braced := by
                intro braced he
                exact hne rest (by rw [(List.cons.inj he).1])
              simp only [List.cons_append, List.length_cons] at hlen ⊢
              rw [escape_fixed hne']
              exact ⟨(fixedEscape_append _ tail h).1, by omega, by omega⟩
      · rw [escape_short hu] at h
        rw [List.cons_append, List.cons_append, escape_short hu]
        refine ⟨h, ?_⟩
        cases hs : Quoted.shortEscape? d with
        | none =>
            rw [hs] at h
            cases h
        | some value =>
            rw [hs] at h
            cases h
            simp

theorem quoted_append (tail : List Char) {value : List Char} {length : Nat} {cs : List Char}
    {l : Lexeme} {n : Nat} (h : quoted value length cs = .lexeme l n) :
    quoted value length (cs ++ tail) = .lexeme l n ∧ n ≤ length + cs.length := by
  fun_induction quoted value length cs with
  | case1 => cases h
  | case2 value length c rest hc =>
      cases h
      rw [List.cons_append, quoted, if_pos hc, List.length_cons]
      exact ⟨rfl, by omega⟩
  | case3 => cases h
  | case4 value length c rest hc hb value' size he ih =>
      obtain ⟨ha, hlt, hlen⟩ := escape_append tail he
      rw [List.length_cons] at hlen
      obtain ⟨hq, hn⟩ := ih h
      rw [List.length_drop] at hn
      rw [List.cons_append, quoted, if_neg hc, if_pos hb, ← List.cons_append, ha]
      simp only
      rw [List.drop_append_of_le_length (by omega), List.length_cons]
      exact ⟨hq, by omega⟩
  | case5 => cases h
  | case6 value length c rest hc hb hl ih =>
      obtain ⟨hq, hn⟩ := ih h
      rw [List.cons_append, quoted, if_neg hc, if_neg hb, if_neg hl, List.length_cons]
      exact ⟨hq, by omega⟩

/-- The closing quotes of a block string. -/
theorem block_long {done : List (List Char)} {line : List Char} {length : Nat} {cs : List Char}
    {l : Lexeme} {n : Nat} (h : block done line length cs = .lexeme l n) :
    ∃ a b c rest, cs = a :: b :: c :: rest := by
  have hlen : 3 ≤ cs.length := by
    fun_induction block done line length cs with
    | case1 => cases h
    | case2 => simp
    | case3 _ _ _ _ ih | case4 _ _ _ _ ih | case5 _ _ _ _ _ ih | case6 _ _ _ _ ih
    | case7 _ _ _ _ _ _ _ _ _ _ ih =>
        have hlen := ih h
        simp only [List.length_cons]
        omega
  obtain ⟨a, cs, rfl⟩ := List.exists_cons_of_length_pos (by omega : 0 < cs.length)
  rw [List.length_cons] at hlen
  obtain ⟨b, cs, rfl⟩ := List.exists_cons_of_length_pos (by omega : 0 < cs.length)
  rw [List.length_cons] at hlen
  obtain ⟨c, rest, rfl⟩ := List.exists_cons_of_length_pos (by omega : 0 < cs.length)
  exact ⟨a, b, c, rest, rfl⟩

theorem block_return {done : List (List Char)} {line : List Char} {length : Nat} {rest : List Char}
    (h : ∀ tail, rest ≠ '\n' :: tail) :
    block done line length ('\r' :: rest) = block (line.reverse :: done) [] (length + 1) rest := by
  rw [block]
  exact h

theorem block_char {done : List (List Char)} {line : List Char} {length : Nat} {c : Char}
    {rest : List Char} (hq : ∀ tail, c :: rest ≠ '"' :: '"' :: '"' :: tail)
    (hb : ∀ tail, c :: rest ≠ '\\' :: '"' :: '"' :: '"' :: tail) (hl : isLineEnd c = false) :
    block done line length (c :: rest) = block done (c :: line) (length + 1) rest := by
  rw [isLineEnd, Bool.or_eq_false_iff, beq_eq_false_iff_ne, beq_eq_false_iff_ne] at hl
  rw [block]
  · rintro tail rfl rfl
    exact hq tail rfl
  · rintro tail rfl rfl
    exact hb tail rfl
  · rintro tail rfl
    exact (hl.2 rfl).elim
  · exact hl.2
  · exact hl.1

theorem block_append (tail : List Char) {done : List (List Char)} {line : List Char} {length : Nat}
    {cs : List Char} {l : Lexeme} {n : Nat} (h : block done line length cs = .lexeme l n) :
    block done line length (cs ++ tail) = .lexeme l n ∧ n ≤ length + cs.length := by
  fun_induction block done line length cs with
  | case1 => cases h
  | case2 =>
      cases h
      simp only [List.cons_append, block, List.length_cons]
      exact ⟨rfl, by omega⟩
  | case3 done line length rest ih =>
      obtain ⟨hq, hn⟩ := ih h
      simp only [List.cons_append, block, List.length_cons]
      exact ⟨hq, by omega⟩
  | case4 done line length rest ih =>
      obtain ⟨hq, hn⟩ := ih h
      simp only [List.cons_append, block, List.length_cons]
      exact ⟨hq, by omega⟩
  | case5 done line length rest hn ih =>
      obtain ⟨hq, hlen⟩ := ih h
      obtain ⟨a, b, c, rest, rfl⟩ := block_long h
      rw [List.cons_append, block_return (by simpa using hn), List.length_cons]
      exact ⟨hq, by omega⟩
  | case6 done line length rest ih =>
      obtain ⟨hq, hn⟩ := ih h
      simp only [List.cons_append, block, List.length_cons]
      exact ⟨hq, by omega⟩
  | case7 done line length c rest h1 h2 h3 h4 h5 ih =>
      obtain ⟨hq, hlen⟩ := ih h
      obtain ⟨x, y, z, rest, rfl⟩ := block_long h
      have hl : isLineEnd c = false := by
        rw [isLineEnd, Bool.or_eq_false_iff, beq_eq_false_iff_ne, beq_eq_false_iff_ne]
        exact ⟨h5, h4⟩
      rw [List.cons_append, block_char ?_ ?_ hl, List.length_cons]
      · exact ⟨hq, by omega⟩
      · rintro tail' he
        simp_all
      · rintro tail' he
        simp_all

/-! ## Text after a lexeme -/

/-- Texts that no lexeme before them goes on with. -/
def Apart (tail : List Char) : Prop :=
  ∀ c ∈ tail.head?, isNameChar c = false ∧ c ≠ '.' ∧ c ≠ '"'

theorem Apart.nil : Apart [] := by
  intro c hc
  cases hc

theorem Apart.cons {c : Char} {cs : List Char} (hn : isNameChar c = false) (hp : c ≠ '.')
    (hq : c ≠ '"') : Apart (c :: cs) := by
  intro d hd
  obtain rfl : c = d := by simpa using hd
  exact ⟨hn, hp, hq⟩

instance : DecidablePred Apart := fun cs =>
  match cs with
  | [] => .isTrue .nil
  | c :: _ => decidable_of_iff (isNameChar c = false ∧ c ≠ '.' ∧ c ≠ '"')
      ⟨fun h => .cons h.1 h.2.1 h.2.2, fun h => h c rfl⟩

theorem EndsNumber.append {rest tail : List Char} (h : EndsNumber rest) (ha : Apart tail) :
    EndsNumber (rest ++ tail) := by
  intro c hc
  cases rest with
  | nil => exact ⟨(ha c hc).2.1, (ha c hc).1⟩
  | cons d rest => exact h c hc

theorem Apart.takeWhile_append {rest tail : List Char} (h : Apart tail) :
    (rest ++ tail).takeWhile isNameChar = rest.takeWhile isNameChar := by
  have ht : tail.takeWhile isNameChar = [] := by
    cases tail with
    | nil => rfl
    | cons c tail => simp [(h c rfl).1]
  rw [List.takeWhile_append, ht, List.append_nil]
  split
  · rename_i hlen
    exact ((List.takeWhile_prefix isNameChar).eq_of_length hlen).symm
  · rfl

/-- A lexeme stays what it is when a text comes after it that is apart from it. -/
theorem Starts.append {cs tail : List Char} {l : Lexeme} {n : Nat} (h : Starts cs l n)
    (hl : l ≠ .endOfText) (ha : Apart tail) : Starts (cs ++ tail) l n ∧ n ≤ cs.length := by
  cases h with
  | endOfText => contradiction
  | block h =>
      obtain ⟨hb, hn⟩ := block_append tail h
      exact ⟨.block hb, by simp only [List.length_cons]; omega⟩
  | @quoted rest _ _ hq h =>
      obtain ⟨hb, hn⟩ := quoted_append tail h
      refine ⟨.quoted (fun tail' he => ?_) hb, by simp only [List.length_cons]; omega⟩
      match rest with
      | [] =>
          rw [Lexer.quoted] at h
          cases h
      | [a] =>
          obtain ⟨rfl, ht⟩ := List.cons.inj he
          exact (ha '"' (by simp_all)).2.2 rfl
      | a :: b :: rest => exact hq rest (by simp_all)
  | spread => exact ⟨.spread, by simp⟩
  | punctuator h => exact ⟨.punctuator h, by simp⟩
  | @number c digits _ _ hc h =>
      obtain ⟨m, rest, he, hr, rfl, rfl⟩ := number_eq_lexeme.mp h
      have ht : c :: (digits ++ tail) = m.text ++ (rest ++ tail) := by
        rw [← List.cons_append, he, List.append_assoc]
      refine ⟨.number hc (number_eq_lexeme.mpr ⟨m, _, ht, hr.append ha, rfl, rfl⟩), ?_⟩
      rw [he, List.length_append]
      omega
  | @name c rest hc =>
      have hn := @Starts.name c (rest ++ tail) hc
      rw [ha.takeWhile_append] at hn
      refine ⟨hn, ?_⟩
      have := (List.takeWhile_prefix isNameChar (l := rest)).length_le
      simp only [List.length_cons]
      omega

end SdlAssembly.Grammar.Lexer
