import SdlAssembly.Proofs.Lexing.Numerals
import SdlAssembly.Proofs.Text.Block

/-!
# The lexemes of a text

The tokens of a text without their places. The bound that the lexer counts with is always enough, so
the lexemes of a text are its first lexeme and the lexemes of what follows it.
-/

namespace SdlAssembly.Grammar

/-! ## Punctuators of one character -/

theorem Punctuator.toList_text {c : Char} {p : Punctuator} (h : ofChar? c = some p) :
    p.text.toList = [c] := by
  unfold ofChar? at h
  split at h <;> cases h <;> rfl

namespace Lexer

open Text

/-! ## The first lexeme -/

/-- How a text starts with a lexeme of some length. -/
inductive Starts : List Char → Lexeme → Nat → Prop where
  | endOfText : Starts [] .endOfText 0
  | block {rest : List Char} {l : Lexeme} {n : Nat} (h : block [] [] 3 rest = .lexeme l n) :
      Starts ('"' :: '"' :: '"' :: rest) l n
  | quoted {rest : List Char} {l : Lexeme} {n : Nat} (hq : ∀ tail, rest ≠ '"' :: '"' :: tail)
      (h : quoted [] 1 rest = .lexeme l n) : Starts ('"' :: rest) l n
  | spread {rest : List Char} : Starts ('.' :: '.' :: '.' :: rest) (.punctuator .spread) 3
  | punctuator {c : Char} {p : Punctuator} {rest : List Char} (h : Punctuator.ofChar? c = some p) :
      Starts (c :: rest) (.punctuator p) 1
  | number {c : Char} {rest : List Char} {l : Lexeme} {n : Nat} (hc : isDigit c ∨ c = '-')
      (h : number (c :: rest) = .lexeme l n) : Starts (c :: rest) l n
  | name {c : Char} {rest : List Char} (hc : isNameStart c) :
      Starts (c :: rest) (.name (String.ofList (c :: rest.takeWhile isNameChar)))
        ((rest.takeWhile isNameChar).length + 1)

/-- Characters that start numbers or names are no punctuators and no quotes. -/
theorem wordStart_spec {c : Char} (h : isDigit c ∨ c = '-' ∨ isNameStart c) :
    Punctuator.ofChar? c = none ∧ c ≠ '"' ∧ c ≠ '.' ∧ c ≠ '#' ∧ isIgnored c = false := by
  refine ⟨?_, ?_, ?_, ?_, ?_⟩
  · unfold Punctuator.ofChar?
    split <;> first | rfl | simp [isDigit, isNameStart, isLetter] at h
  · rintro rfl
    simp [isDigit, isNameStart, isLetter] at h
  · rintro rfl
    simp [isDigit, isNameStart, isLetter] at h
  · rintro rfl
    simp [isDigit, isNameStart, isLetter] at h
  · cases hi : isIgnored c with
    | false => rfl
    | true =>
        simp only [isIgnored, isLineEnd, Bool.or_eq_true, beq_iff_eq] at hi
        rcases hi with (((rfl | rfl) | rfl) | rfl) | (rfl | rfl) <;>
          simp [isDigit, isNameStart, isLetter] at h

theorem isNameStart_spec {c : Char} (h : isNameStart c) :
    isNameChar c ∧ isDigit c = false ∧ c ≠ '-' := by
  refine ⟨by simp [isNameChar, h], ?_, ?_⟩
  · cases hd : isDigit c with
    | false => rfl
    | true =>
        simp only [isNameStart, isLetter, isDigit, Bool.or_eq_true, Bool.and_eq_true,
          decide_eq_true_eq, beq_iff_eq, Char.le_def, UInt32.le_iff_toNat_le] at h hd
        rcases h with (h | h) | rfl
        · simp at h hd
          omega
        · simp at h hd
          omega
        · simp at hd
  · rintro rfl
    simp [isNameStart, isLetter] at h

theorem Starts.of_lexeme {cs : List Char} {l : Lexeme} {n : Nat} (h : lexeme cs = .lexeme l n) :
    Starts cs l n := by
  unfold lexeme at h
  split at h
  · cases h
    exact .endOfText
  · exact .block h
  · rename_i rest hq
    exact .quoted (fun tail he => hq tail he) h
  · cases h
    exact .spread
  · rename_i c rest _ _ _
    cases hp : Punctuator.ofChar? c with
    | some p =>
        simp only [hp, Found.lexeme.injEq] at h
        obtain ⟨rfl, rfl⟩ := h
        exact .punctuator hp
    | none =>
        simp only [hp] at h
        split at h
        · rename_i hc
          exact .number (by simpa using hc) h
        · split at h
          · rename_i hs
            cases h
            simpa [(isNameStart_spec hs).1] using @Starts.name c rest hs
          · split at h <;> cases h

theorem lexeme_quoted {rest : List Char} (hq : ∀ tail, rest ≠ '"' :: '"' :: tail) :
    lexeme ('"' :: rest) = quoted [] 1 rest := by
  unfold lexeme
  split
  · contradiction
  · simp_all
  · simp_all
  · simp_all
  · rename_i he
    cases he
    simp_all

theorem lexeme_cons {c : Char} {rest : List Char} (hq : c ≠ '"') (hp : c ≠ '.') :
    lexeme (c :: rest) =
      match Punctuator.ofChar? c with
      | some p => .lexeme (.punctuator p) 1
      | none =>
        if isDigit c || c == '-' then number (c :: rest)
        else if isNameStart c then name (c :: rest)
        else if c == '\'' then .fault .singleQuote 0
        else .fault (.unexpectedCharacter c) 0 := by
  conv => lhs; unfold lexeme
  split
  · contradiction
  · simp_all
  · simp_all
  · simp_all
  · rename_i he
    cases he
    rfl

theorem lexeme_of_starts {cs : List Char} {l : Lexeme} {n : Nat} (h : Starts cs l n) :
    lexeme cs = .lexeme l n := by
  cases h with
  | endOfText => rfl
  | block h => simpa [lexeme] using h
  | quoted hq h => rw [lexeme_quoted hq, h]
  | spread => rfl
  | punctuator h =>
      rw [lexeme_cons, h]
      · rintro rfl
        cases h
      · rintro rfl
        cases h
  | @number c _ _ _ hc h =>
      obtain ⟨hp, hq, hd, -⟩ := wordStart_spec (hc.imp_right Or.inl)
      have hb : (isDigit c || c == '-') = true := by simpa using hc
      rw [lexeme_cons hq hd, hp]
      simp only [hb, ↓reduceIte, h]
  | name hc =>
      obtain ⟨hp, hq, hd, -⟩ := wordStart_spec (.inr (.inr hc))
      obtain ⟨hn, hnd, hm⟩ := isNameStart_spec hc
      rw [lexeme_cons hq hd, hp]
      simp [hnd, hm, hc, name, hn]

/-! ## Lexemes with a form -/

def IsName (text : String) : Prop :=
  ∃ c rest, text.toList = c :: rest ∧ isNameStart c ∧ ∀ d ∈ rest, isNameChar d

/-- The text of a block string. -/
def IsBlockText (text : String) : Prop := ∃ ds, Block.Dedented ds ∧ text.toList = Block.join ds

/-- The form of the text that a lexeme carries. -/
def Formed : Lexeme → Prop
  | .name text => IsName text
  | l@(.int _) | l@(.float _) => ∃ m : Numeral, m.lexeme = l
  | .string text true => IsBlockText text
  | .string _ false | .punctuator _ | .endOfText | .fault _ => True

theorem block_spec {done : List (List Char)} {line : List Char} {length : Nat} {cs : List Char}
    {l : Lexeme} {n : Nat} (hd : ∀ x ∈ line :: done, ∀ c ∈ x, c ≠ '\n' ∧ c ≠ '\r')
    (h : block done line length cs = .lexeme l n) :
    length < n ∧ ∃ text, l = .string text true ∧ IsBlockText text := by
  fun_induction block done line length cs with
  | case1 => cases h
  | case2 done line =>
      cases h
      have hl : ∀ x ∈ (line.reverse :: done).reverse, ∀ c ∈ x, c ≠ '\n' ∧ c ≠ '\r' := by
        intro x hx c hc
        rcases List.mem_cons.mp (List.mem_reverse.mp hx) with rfl | hx
        · exact hd line (by simp) c (List.mem_reverse.mp hc)
        · exact hd x (by simp [hx]) c hc
      obtain ⟨ds, hds, he⟩ := Block.exists_dedented hl
      exact ⟨by omega, _, rfl, ds, hds, String.toList_ofList.trans he⟩
  | case3 _ _ _ _ ih =>
      obtain ⟨hn, ht⟩ := ih (by simpa using hd) h
      exact ⟨by omega, ht⟩
  | case4 _ _ _ _ ih =>
      obtain ⟨hn, ht⟩ := ih (by simpa using hd) h
      exact ⟨by omega, ht⟩
  | case5 _ _ _ _ _ ih =>
      obtain ⟨hn, ht⟩ := ih (by simpa using hd) h
      exact ⟨by omega, ht⟩
  | case6 _ _ _ _ ih =>
      obtain ⟨hn, ht⟩ := ih (by simpa using hd) h
      exact ⟨by omega, ht⟩
  | case7 _ _ _ c _ _ _ _ hr hn ih =>
      have hc : c ≠ '\n' ∧ c ≠ '\r' := ⟨hn, hr⟩
      obtain ⟨hlt, ht⟩ := ih (by simpa [hc] using hd) h
      exact ⟨by omega, ht⟩

theorem quoted_spec {value : List Char} {length : Nat} {cs : List Char} {l : Lexeme} {n : Nat}
    (h : quoted value length cs = .lexeme l n) : length < n ∧ ∃ text, l = .string text false := by
  fun_induction quoted value length cs with
  | case1 => cases h
  | case2 =>
      cases h
      exact ⟨by omega, _, rfl⟩
  | case3 => cases h
  | case4 _ _ _ _ _ _ _ _ _ ih =>
      obtain ⟨hn, ht⟩ := ih h
      exact ⟨by omega, ht⟩
  | case5 => cases h
  | case6 _ _ _ _ _ _ _ ih =>
      obtain ⟨hn, ht⟩ := ih h
      exact ⟨by omega, ht⟩

theorem Numeral.text_ne_nil (m : Numeral) : m.text ≠ [] := by
  obtain ⟨s, w, f, e, -, ⟨⟨hne, -⟩, -⟩, -, -⟩ := m
  simp [Numeral.text, hne]

theorem Numeral.formed (m : Numeral) : Formed m.lexeme ∧ m.lexeme ≠ .endOfText := by
  cases hl : m.lexeme with
  | int _ => exact ⟨⟨m, hl⟩, by simp⟩
  | float _ => exact ⟨⟨m, hl⟩, by simp⟩
  | _ =>
      unfold Numeral.lexeme at hl
      split at hl <;> cases hl

/-- A lexeme has its form, and it takes a character unless it is the end of the text. -/
theorem Starts.spec {cs : List Char} {l : Lexeme} {n : Nat} (h : Starts cs l n) :
    Formed l ∧ (l = .endOfText ∧ cs = [] ∨ l ≠ .endOfText ∧ cs ≠ [] ∧ 0 < n) := by
  cases h with
  | endOfText => exact ⟨trivial, .inl ⟨rfl, rfl⟩⟩
  | block h =>
      obtain ⟨hn, text, rfl, ht⟩ := block_spec (by simp) h
      exact ⟨ht, .inr ⟨by simp, by simp, by omega⟩⟩
  | quoted _ h =>
      obtain ⟨hn, text, rfl⟩ := quoted_spec h
      exact ⟨trivial, .inr ⟨by simp, by simp, by omega⟩⟩
  | spread => exact ⟨trivial, .inr ⟨by simp, by simp, by omega⟩⟩
  | punctuator => exact ⟨trivial, .inr ⟨by simp, by simp, by omega⟩⟩
  | number _ h =>
      obtain ⟨m, rest, -, -, rfl, rfl⟩ := number_eq_lexeme.mp h
      exact ⟨m.formed.1, .inr ⟨m.formed.2, by simp, List.length_pos_iff.mpr m.text_ne_nil⟩⟩
  | name hc =>
      refine ⟨⟨_, _, String.toList_ofList, hc, fun d hd => ?_⟩, .inr ⟨by simp, by simp, by omega⟩⟩
      exact List.all_eq_true.mp List.all_takeWhile d hd

/-! ## The lexemes one by one -/

/-- The lexemes of a text. -/
def lexemes (cs : List Char) : List Lexeme :=
  (tokensFrom (fun _ => none) (' ' :: cs) 0 cs).map (·.lexeme)

/-- A text from its next lexeme on. -/
def next (cs : List Char) : List Char := cs.drop (skipped cs)

theorem tokensFrom_cons {mark : Nat → Option Position} {b : Char} {bound : List Char}
    {offset : Nat} {cs : List Char} {l : Lexeme} {n : Nat} (h : Starts (next cs) l n)
    (hl : l ≠ .endOfText) :
    tokensFrom mark (b :: bound) offset cs =
      ⟨l, offset + skipped cs, mark (offset + skipped cs)⟩
        :: tokensFrom mark bound (offset + skipped cs + n) ((next cs).drop n) := by
  have hx := lexeme_of_starts h
  unfold next at hx ⊢
  rw [tokensFrom]
  simp only [hx]

/-- What follows a lexeme is shorter than the text. -/
theorem length_drop_next {cs : List Char} {l : Lexeme} {n : Nat} (h : Starts (next cs) l n)
    (hl : l ≠ .endOfText) : ((next cs).drop n).length < cs.length := by
  rcases h.spec.2 with ⟨rfl, -⟩ | ⟨-, hcs, hn⟩
  · contradiction
  · have hlen := List.length_pos_iff.mpr hcs
    simp only [next, List.length_drop] at hlen ⊢
    omega

theorem map_tokensFrom {mark mark' : Nat → Option Position} {bound bound' : List Char}
    {offset offset' : Nat} {cs : List Char} (h : cs.length < bound.length)
    (h' : cs.length < bound'.length) :
    (tokensFrom mark bound offset cs).map (·.lexeme) =
      (tokensFrom mark' bound' offset' cs).map (·.lexeme) := by
  induction bound generalizing bound' offset offset' cs with
  | nil => cases h
  | cons b bound ih =>
      cases bound' with
      | nil => cases h'
      | cons b' bound' =>
          rw [List.length_cons] at h h'
          cases hl : lexeme (next cs) with
          | fault e n =>
              unfold next at hl
              simp [tokensFrom, hl]
          | lexeme l n =>
              have hs := Starts.of_lexeme hl
              by_cases he : l = .endOfText
              · subst he
                unfold next at hl
                simp [tokensFrom, hl]
              · have hlen := length_drop_next hs he
                rw [tokensFrom_cons hs he, tokensFrom_cons hs he, List.map_cons, List.map_cons]
                exact congrArg _ (ih (by omega) (by omega))

/-- The lexemes of the tokens of a source, with or without places. -/
theorem map_tokens (source : Source) (located : Bool) :
    (tokens source located).map (·.lexeme) = lexemes source.body.toList :=
  map_tokensFrom (by simp) (by simp)

theorem lexemes_fault {cs : List Char} {e : LexicalFault} {n : Nat}
    (h : lexeme (next cs) = .fault e n) : lexemes cs = [.fault e] := by
  unfold next at h
  simp [lexemes, tokensFrom, h]

theorem lexemes_of_next_nil {cs : List Char} (h : next cs = []) : lexemes cs = [.endOfText] := by
  have hl : lexeme (cs.drop (skipped cs)) = .lexeme .endOfText 0 := by
    rw [← next, h]
    rfl
  simp [lexemes, tokensFrom, hl]

theorem lexemes_nil : lexemes [] = [.endOfText] := lexemes_of_next_nil List.drop_nil

theorem lexemes_cons {cs : List Char} {l : Lexeme} {n : Nat} (h : Starts (next cs) l n)
    (hl : l ≠ .endOfText) : lexemes cs = l :: lexemes ((next cs).drop n) := by
  have hlen := length_drop_next h hl
  rw [lexemes, tokensFrom_cons h hl, List.map_cons]
  congr 1
  exact map_tokensFrom (by omega) (by simp)

end Lexer

end SdlAssembly.Grammar
