import SdlAssembly.Proofs.Lexing.Append

/-!
# Written strings

What the lexer finds where a string was written. A quoted string is read back whatever its text is;
a block string is read back if its text comes from a block string.
-/

namespace SdlAssembly.Grammar.Lexer

open Text

/-! ## Escapes -/

theorem hexValue?_hexDigit {d : Nat} (h : d < 16) :
    Quoted.hexValue? (Quoted.hexDigit d) = some d := by
  have hall : ∀ d, d < 16 → Quoted.hexValue? (Quoted.hexDigit d) = some d := by decide
  exact hall d h

theorem fourDigits?_hex4 {n : Nat} (h : n < 65536) (tail : List Char) :
    Quoted.fourDigits? (Quoted.hex4 n ++ tail) = some n := by
  have hd : ∀ k, Quoted.hexValue? (Quoted.hexDigit (k % 16)) = some (k % 16) := fun k =>
    hexValue?_hexDigit (Nat.mod_lt k (by decide))
  simp only [Quoted.hex4, List.cons_append, List.nil_append, Quoted.fourDigits?, hd, Option.bind_some,
    bind, pure, Option.some.injEq]
  omega

theorem hexDigit_ne_brace (n : Nat) : Quoted.hexDigit (n % 16) ≠ '{' := by
  have hall : ∀ d, d < 16 → Quoted.hexDigit d ≠ '{' := by decide
  exact hall _ (Nat.mod_lt n (by decide))

theorem quoted_escape (body : List Char) {value : List Char} {length : Nat} {rest : List Char}
    {c : Char} (h : escape ('\\' :: (body ++ rest)) = .ok (c, body.length + 1)) :
    quoted value length ('\\' :: body ++ rest) =
      quoted (c :: value) (length + ('\\' :: body).length) rest := by
  rw [List.cons_append, quoted, if_neg (by decide), if_pos (by decide), h]
  simp

theorem escape_control {c : Char} (h : Quoted.isControl c) (rest : List Char) :
    escape ('\\' :: ('u' :: Quoted.hex4 c.toNat ++ rest)) =
      .ok (c, ('u' :: Quoted.hex4 c.toNat).length + 1) := by
  have hn : c.toNat < 160 := by
    simp only [Quoted.isControl, Bool.or_eq_true, Bool.and_eq_true, decide_eq_true_eq] at h
    omega
  have hs : Quoted.isScalar c.toNat = true := by
    simp only [Quoted.isScalar, Bool.or_eq_true, decide_eq_true_eq]
    omega
  have hb : ∀ tail, Quoted.hex4 c.toNat ++ rest ≠ '{' :: tail := by
    intro tail he
    exact hexDigit_ne_brace _ (List.cons.inj he).1
  rw [List.cons_append, escape_fixed hb, fixedEscape, fourDigits?_hex4 (by omega)]
  simp only [hs, ↓reduceIte, Char.ofNat_toNat]
  rfl

theorem quoted_encodeChar (value : List Char) (length : Nat) (c : Char) (rest : List Char) :
    quoted value length (Quoted.encodeChar c ++ rest) =
      quoted (c :: value) (length + (Quoted.encodeChar c).length) rest := by
  have hshort : ∀ d, d ≠ 'u' → Quoted.shortEscape? d = some c →
      quoted value length (['\\', d] ++ rest) =
        quoted (c :: value) (length + ['\\', d].length) rest := by
    intro d hd hs
    refine quoted_escape [d] ?_
    rw [List.singleton_append, escape_short hd, hs]
    rfl
  unfold Quoted.encodeChar
  split
  · rename_i h
    subst h
    exact hshort _ (by decide) rfl
  · rename_i hq
    split
    · rename_i h
      subst h
      exact hshort _ (by decide) rfl
    · rename_i hb
      split
      · rename_i h
        exact hshort _ (by decide) (by rw [← Char.ofNat_toNat c, h]; rfl)
      · split
        · rename_i h
          subst h
          exact hshort _ (by decide) rfl
        · split
          · rename_i h
            subst h
            exact hshort _ (by decide) rfl
          · rename_i hn
            split
            · rename_i h
              exact hshort _ (by decide) (by rw [← Char.ofNat_toNat c, h]; rfl)
            · split
              · rename_i h
                subst h
                exact hshort _ (by decide) rfl
              · rename_i hr
                split
                · rename_i h
                  exact quoted_escape _ (escape_control h rest)
                · rw [List.singleton_append, quoted]
                  simp [hq, hb, isLineEnd, hn, hr]

theorem quoted_encode (value : List Char) (length : Nat) (cs rest : List Char) :
    quoted value length (Quoted.encode cs ++ '"' :: rest) =
      .lexeme (.string (String.ofList (value.reverse ++ cs)) false)
        (length + (Quoted.encode cs).length + 1) := by
  induction cs generalizing value length with
  | nil => simp [Quoted.encode, quoted]
  | cons c cs ih =>
      have hc : Quoted.encode (c :: cs) = Quoted.encodeChar c ++ Quoted.encode cs := rfl
      rw [hc, List.append_assoc, quoted_encodeChar, ih]
      simp [Nat.add_assoc]

/-! ## Block strings -/

/-- A quote at the start of escaped text is a single one of the text. -/
theorem escapeQuotes_eq_quote {u more tail : List Char} (hne : u ≠ [])
    (h : Block.escapeQuotes u ++ more = '"' :: tail) :
    ∃ u', u = '"' :: u' ∧ tail = Block.escapeQuotes u' ++ more
      ∧ ∀ t, u ≠ '"' :: '"' :: '"' :: t := by
  cases u with
  | nil => contradiction
  | cons c u =>
      by_cases ht : ∃ t, c :: u = '"' :: '"' :: '"' :: t
      · obtain ⟨t, he⟩ := ht
        rw [he, Block.escapeQuotes] at h
        cases (List.cons.inj h).1
      · have hno : ∀ t, c :: u ≠ '"' :: '"' :: '"' :: t := fun t he => ht ⟨t, he⟩
        rw [Block.escapeQuotes_cons hno] at h
        obtain ⟨rfl, he⟩ := List.cons.inj h
        exact ⟨u, rfl, he.symm, hno⟩

/-- Texts that may stand right before closing quotes. -/
def Closes (u : List Char) : Prop := u.getLast? ≠ some '"' ∧ u.getLast? ≠ some '\\'

theorem Closes.tail {c : Char} {u : List Char} (h : Closes (c :: u)) (hc : c = '"' ∨ c = '\\') :
    u ≠ [] ∧ Closes u := by
  cases u with
  | nil =>
      obtain ⟨hq, hb⟩ := h
      rcases hc with rfl | rfl <;> contradiction
  | cons d u => exact ⟨by simp, by simpa [Closes] using h⟩

theorem Closes.of_cons {c : Char} {u : List Char} (h : Closes (c :: u)) : Closes u := by
  cases u with
  | nil => simp [Closes]
  | cons d u => simpa [Closes] using h

theorem block_escapeQuotes {u : List Char} (hr : '\r' ∉ u) (hc : Closes u)
    (done : List (List Char)) (line : List Char) (length : Nat) (rest : List Char) :
    block done line length (Block.escapeQuotes u ++ '"' :: '"' :: '"' :: rest) =
      .lexeme (.string (String.ofList (Block.dedent
        (done.reverse ++ Block.addFirst line.reverse (lines u)))) true)
        (length + (Block.escapeQuotes u).length + 3) := by
  fun_induction Block.escapeQuotes u generalizing done line length with
  | case1 u ih =>
      have hq : ∀ c ∈ ['"', '"', '"'], c ≠ '\n' ∧ c ≠ '\r' := by simp
      have hl := Block.lines_append hq u
      simp only [List.cons_append, List.nil_append] at hl
      have hih := ih (by simpa using hr) hc.of_cons.of_cons.of_cons done
        ('"' :: '"' :: '"' :: line) (length + 4)
      simp only [List.cons_append, block]
      rw [hih, hl, Block.addFirst_addFirst]
      simp only [List.reverse_cons, List.append_assoc, List.cons_append, List.nil_append,
        List.length_cons, Found.lexeme.injEq, true_and]
      omega
  | case2 c u hno ih =>
      have hih := ih (fun h => hr (List.mem_cons_of_mem c h)) hc.of_cons
      by_cases hn : c = '\n'
      · subst hn
        rw [List.cons_append, block, hih, lines, List.reverse_nil,
          Block.addFirst_nil (Block.lines_ne_nil u), Block.addFirst, List.append_nil]
        simp only [List.reverse_cons, List.append_assoc, List.singleton_append, List.length_cons,
          Found.lexeme.injEq, true_and]
        omega
      · have hrc : c ≠ '\r' := fun he => hr (by simp [he])
        rw [List.cons_append, block_char, hih, Block.lines_cons hn hrc, Block.addFirst_addFirst]
        · simp only [List.reverse_cons, List.length_cons, Found.lexeme.injEq, true_and]
          omega
        · rintro tail he
          obtain ⟨rfl, h0⟩ := List.cons.inj he
          obtain ⟨hne, hc⟩ := hc.tail (.inl rfl)
          obtain ⟨u1, rfl, h1, -⟩ := escapeQuotes_eq_quote hne h0
          obtain ⟨hne, hc⟩ := hc.tail (.inl rfl)
          obtain ⟨u2, rfl, -, -⟩ := escapeQuotes_eq_quote hne h1.symm
          exact hno u2 rfl rfl
        · rintro tail he
          obtain ⟨rfl, h0⟩ := List.cons.inj he
          obtain ⟨hne, hc⟩ := hc.tail (.inr rfl)
          obtain ⟨u1, rfl, h1, hno⟩ := escapeQuotes_eq_quote hne h0
          obtain ⟨hne, hc⟩ := hc.tail (.inl rfl)
          obtain ⟨u2, rfl, h2, -⟩ := escapeQuotes_eq_quote hne h1.symm
          obtain ⟨hne, hc⟩ := hc.tail (.inl rfl)
          obtain ⟨u3, rfl, -, -⟩ := escapeQuotes_eq_quote hne h2.symm
          exact hno u3 rfl
        · simp [isLineEnd, hn, hrc]
  | case3 => simp [block, lines, Block.addFirst]

/-! ## Whole strings -/

theorem encodeChar_head (c : Char) : ∃ d rest, Quoted.encodeChar c = d :: rest ∧ d ≠ '"'
    ∧ ∀ x ∈ d :: rest, x ≠ '\n' := by
  have hhex : ∀ n, Quoted.hexDigit (n % 16) ≠ '\n' := by
    intro n
    have hall : ∀ d, d < 16 → Quoted.hexDigit d ≠ '\n' := by decide
    exact hall _ (Nat.mod_lt n (by decide))
  unfold Quoted.encodeChar
  split
  · exact ⟨_, _, rfl, by decide, by simp⟩
  · rename_i hq
    split
    · exact ⟨_, _, rfl, by decide, by simp⟩
    · split
      · exact ⟨_, _, rfl, by decide, by simp⟩
      · split
        · exact ⟨_, _, rfl, by decide, by simp⟩
        · split
          · exact ⟨_, _, rfl, by decide, by simp⟩
          · rename_i hn
            split
            · exact ⟨_, _, rfl, by decide, by simp⟩
            · split
              · exact ⟨_, _, rfl, by decide, by simp⟩
              · split
                · exact ⟨_, _, rfl, by decide, by simp [Quoted.hex4, hhex]⟩
                · exact ⟨c, [], rfl, hq, by simpa using hn⟩

theorem starts_quoted (text : String) {rest : List Char} (ha : Apart rest) :
    Starts ((Quoted.quote text).toList ++ rest) (.string text false)
      (Quoted.quote text).toList.length := by
  have ht : (Quoted.quote text).toList = '"' :: (Quoted.encode text.toList ++ ['"']) := by
    simp [Quoted.quote]
  have hread := quoted_encode [] 1 text.toList rest
  rw [List.reverse_nil, List.nil_append, String.ofList_toList] at hread
  have hlen : (Quoted.quote text).toList.length =
      1 + (Quoted.encode text.toList).length + 1 := by
    rw [ht]
    simp [Nat.add_comm]
  rw [hlen, ht, List.cons_append, List.append_assoc, List.singleton_append]
  refine .quoted ?_ hread
  intro tail he
  cases hc : text.toList with
  | nil =>
      simp only [hc, Quoted.encode, List.flatMap_nil, List.nil_append, List.cons.injEq,
        true_and] at he
      exact (ha '"' (by simp [he])).2.2 rfl
  | cons c cs =>
      obtain ⟨d, more, hd, hne, -⟩ := encodeChar_head c
      simp only [hc, Quoted.encode, List.flatMap_cons, hd, List.cons_append, List.cons.injEq] at he
      exact hne he.1

theorem quote_no_newline (text : String) : ∀ c ∈ (Quoted.quote text).toList, c ≠ '\n' := by
  intro c hc
  simp only [Quoted.quote, String.toList_append, String.toList_ofList, List.mem_append] at hc
  have hq : ∀ x ∈ "\"".toList, x ≠ '\n' := by simp
  rcases hc with (hc | hc) | hc
  · exact hq c hc
  · obtain ⟨d, -, hd⟩ := List.mem_flatMap.mp hc
    obtain ⟨e, more, he, -, hn⟩ := encodeChar_head d
    exact hn c (he ▸ hd)
  · exact hq c hc

theorem getLast?_shiftBy {width : Nat} {u : List Char} {c : Char} (hs : c ≠ ' ') (hn : c ≠ '\n')
    (h : (Block.shiftBy width u).getLast? = some c) : u.getLast? = some c := by
  rcases List.eq_nil_or_concat u with rfl | ⟨init, x, rfl⟩
  · exact h
  · rw [List.concat_eq_append, Block.shiftBy_append] at h
    rw [List.concat_eq_append]
    by_cases hx : x = '\n'
    · subst hx
      rw [Block.shiftBy_newline, Block.shiftBy_nil, List.append_nil, List.getLast?_append] at h
      cases hm : ('\n' :: Block.margin width).getLast? with
      | none => simp at hm
      | some d =>
          obtain rfl : d = c := by simpa [hm] using h
          rcases List.mem_cons.mp (List.mem_of_getLast? hm) with rfl | hmem
          · contradiction
          · exact (hs (List.eq_of_mem_replicate hmem)).elim
    · rw [Block.shiftBy_cons hx, Block.shiftBy_nil] at h
      simpa using h

theorem Closes.shiftBy {width : Nat} {u : List Char} (h : Closes u) :
    Closes (Block.shiftBy width u) :=
  ⟨fun hq => h.1 (getLast?_shiftBy (by decide) (by decide) hq),
    fun hb => h.2 (getLast?_shiftBy (by decide) (by decide) hb)⟩

theorem closes_setOff {value before after : List Char} (h : Block.SetOff value before after) :
    Closes (before ++ value ++ after) := by
  rcases h.isAfter with rfl | rfl
  · rw [List.append_nil]
    cases value with
    | nil => rcases h.isBefore with rfl | rfl <;> simp [Closes]
    | cons c value =>
        have hc := h.closed rfl
        have hl : (before ++ c :: value).getLast? = (c :: value).getLast? := by
          simp [List.getLast?_append, List.getLast?_cons]
        rwa [Closes, hl]
  · simp [Closes]

theorem starts_block {text : String} (hr : '\r' ∉ text.toList) (width : Nat) (rest : List Char) :
    ∃ text', Starts (Block.shiftBy width (Block.quote text).toList ++ rest) (.string text' true)
        (Block.shiftBy width (Block.quote text).toList).length
      ∧ IsBlockText text' ∧ (IsBlockText text → text' = text) := by
  have hs := Block.setOff_quote hr
  rw [Block.toList_quote]
  generalize (if Block.breaksBefore text.toList then ['\n'] else []) = before at hs ⊢
  generalize (if Block.breaksAfter text.toList then ['\n'] else []) = after at hs ⊢
  have hq : ∀ cs, Block.shiftBy width ('"' :: cs) = '"' :: Block.shiftBy width cs := fun cs =>
    Block.shiftBy_cons (by decide)
  have hu : '\r' ∉ Block.shiftBy width (before ++ text.toList ++ after) := by
    intro hc
    obtain ⟨d, hd, hc⟩ := List.mem_flatMap.mp hc
    split at hc
    · rcases List.mem_cons.mp hc with hc | hc
      · cases hc
      · cases List.eq_of_mem_replicate hc
    · obtain rfl := List.mem_singleton.mp hc
      rcases hs.isBefore with rfl | rfl <;> rcases hs.isAfter with rfl | rfl <;>
        simp [hr] at hd
  have hread := block_escapeQuotes hu (closes_setOff hs).shiftBy [] [] 3 rest
  rw [List.reverse_nil, List.nil_append, List.reverse_nil,
    Block.addFirst_nil (Block.lines_ne_nil _), Block.escapeQuotes_shiftBy] at hread
  have hstart := Starts.block hread
  refine ⟨_, ?_, (Starts.spec hstart).1, ?_⟩
  rotate_left
  · rintro ⟨ds, hds, he⟩
    rw [he] at hs ⊢
    rw [Block.dedent_lines_setOff hds hs, ← he, String.ofList_toList]
  · simp only [Block.shiftBy_append, List.append_assoc, List.cons_append, List.nil_append, hq,
      Block.shiftBy_nil] at hstart ⊢
    have hlen : ∀ cs : List Char,
        ('"' :: '"' :: '"' :: (cs ++ ['"', '"', '"'])).length = 3 + cs.length + 3 := by
      intro cs
      simp only [List.length_cons, List.length_append, List.length_nil]
      omega
    rw [hlen]
    exact hstart

end SdlAssembly.Grammar.Lexer
