import SdlAssembly.Grammar.Lexer

/-!
# Written numbers

The form of a number: a sign, a whole part without needless zeros, a fraction and an exponent. Main
statement: the lexer reads a number exactly if the text starts with such a form and neither a name
nor a point follows it.
-/

namespace SdlAssembly.Grammar.Lexer

open Text

/-! ## The form of a number -/

def IsDigits (ds : List Char) : Prop := ds ≠ [] ∧ ∀ d ∈ ds, isDigit d

def IsSign (s : List Char) : Prop := s = [] ∨ s = ['-']

/-- A zero alone, or digits that do not start with one. -/
def IsWhole (ds : List Char) : Prop := IsDigits ds ∧ (ds.head? = some '0' → ds = ['0'])

def IsFraction (cs : List Char) : Prop := cs = [] ∨ ∃ ds, IsDigits ds ∧ cs = '.' :: ds

def IsExponentSign (s : List Char) : Prop := s = [] ∨ s = ['+'] ∨ s = ['-']

def IsExponent (cs : List Char) : Prop :=
  cs = [] ∨ ∃ mark sign ds, (mark = 'e' ∨ mark = 'E') ∧ IsExponentSign sign ∧ IsDigits ds
    ∧ cs = mark :: (sign ++ ds)

/-- A written number by its parts. -/
structure Numeral where
  sign : List Char
  whole : List Char
  fraction : List Char
  exponent : List Char
  isSign : IsSign sign
  isWhole : IsWhole whole
  isFraction : IsFraction fraction
  isExponent : IsExponent exponent

namespace Numeral

def text (m : Numeral) : List Char := m.sign ++ m.whole ++ m.fraction ++ m.exponent

/-- A number with a fraction or an exponent is a floating point number. -/
def lexeme (m : Numeral) : Lexeme :=
  if m.fraction = [] ∧ m.exponent = [] then .int (String.ofList m.text)
  else .float (String.ofList m.text)

theorem text_eq_cons (m : Numeral) : ∃ c cs, m.text = c :: cs ∧ (isDigit c ∨ c = '-') := by
  obtain ⟨s, w, f, e, hs, ⟨⟨hne, hd⟩, -⟩, -, -⟩ := m
  rcases hs with rfl | rfl
  · cases w with
    | nil => contradiction
    | cons c w => exact ⟨c, w ++ f ++ e, rfl, .inl (hd c (by simp))⟩
  · exact ⟨'-', w ++ f ++ e, rfl, .inr rfl⟩

theorem mem_text (m : Numeral) : ∀ c ∈ m.text, isDigit c ∨ c ∈ ['-', '+', '.', 'e', 'E'] := by
  obtain ⟨s, w, f, e, hs, ⟨hw, -⟩, hf, he⟩ := m
  intro c h
  have hdigits : ∀ ds, IsDigits ds → c ∈ ds → isDigit c := fun ds hd hc => hd.2 c hc
  simp only [text, List.mem_append] at h
  rcases h with ((h | h) | h) | h
  · rcases hs with rfl | rfl
    · cases h
    · exact .inr (by simp [List.mem_singleton.mp h])
  · exact .inl (hdigits w hw h)
  · rcases hf with rfl | ⟨ds, hd, rfl⟩
    · cases h
    · rcases List.mem_cons.mp h with rfl | h
      · exact .inr (by simp)
      · exact .inl (hdigits ds hd h)
  · rcases he with rfl | ⟨mark, sign, ds, hm, hsign, hd, rfl⟩
    · cases h
    · rcases List.mem_cons.mp h with rfl | h
      · rcases hm with rfl | rfl <;> exact .inr (by simp)
      · rcases List.mem_append.mp h with h | h
        · rcases hsign with rfl | rfl | rfl
          · cases h
          · exact .inr (by simp [List.mem_singleton.mp h])
          · exact .inr (by simp [List.mem_singleton.mp h])
        · exact .inl (hdigits ds hd h)

end Numeral

/-- What may follow a number. -/
def EndsNumber (rest : List Char) : Prop := ∀ c ∈ rest.head?, c ≠ '.' ∧ isNameChar c = false

/-! ## Digits -/

/-- Texts that do not go on with a digit. -/
def NoDigit (rest : List Char) : Prop := ∀ c ∈ rest.head?, isDigit c = false

theorem EndsNumber.noDigit {rest : List Char} (h : EndsNumber rest) : NoDigit rest := by
  intro c hc
  have hn := (h c hc).2
  simp only [isNameChar, Bool.or_eq_false_iff] at hn
  exact hn.2

theorem noDigit_dropWhile (cs : List Char) : NoDigit (cs.dropWhile isDigit) := by
  intro c hc
  have h := List.head?_dropWhile_not isDigit cs
  rw [Option.mem_def] at hc
  simpa [hc] using h

theorem takeWhile_digits {ds rest : List Char} (hd : ∀ d ∈ ds, isDigit d) (hr : NoDigit rest) :
    (ds ++ rest).takeWhile isDigit = ds ∧ (ds ++ rest).dropWhile isDigit = rest := by
  rw [List.takeWhile_append_of_pos hd, List.dropWhile_append_of_pos hd]
  cases rest with
  | nil => simp
  | cons c rest => simp [hr c rfl]

theorem digits_ok {cs ds rest : List Char} :
    digits cs = .ok (ds, rest) ↔ IsDigits ds ∧ NoDigit rest ∧ cs = ds ++ rest := by
  constructor
  · intro h
    unfold digits at h
    split at h
    · cases h
    · rename_i hne
      cases h
      refine ⟨⟨hne, fun d hd => ?_⟩, noDigit_dropWhile cs, ?_⟩
      · exact List.all_eq_true.mp List.all_takeWhile d hd
      · exact (List.takeWhile_append_dropWhile ..).symm
  · rintro ⟨⟨hne, hd⟩, hr, rfl⟩
    obtain ⟨ht, hdr⟩ := takeWhile_digits hd hr
    unfold digits
    rw [ht, hdr]
    split
    · contradiction
    · rfl

theorem wholePart_ok {cs ds rest : List Char} :
    wholePart cs = .ok (ds, rest) ↔ IsWhole ds ∧ NoDigit rest ∧ cs = ds ++ rest := by
  unfold wholePart
  split
  · rename_i tail
    constructor
    · intro h
      split at h
      · cases h
      · rename_i hn
        cases h
        refine ⟨⟨⟨by simp, by simp [isDigit]⟩, by simp⟩, fun c hc => ?_, rfl⟩
        rw [Option.mem_def] at hc
        simpa [hc] using hn
    · rintro ⟨⟨⟨hne, hd⟩, hz⟩, hr, he⟩
      cases ds with
      | nil => contradiction
      | cons d ds =>
          simp only [List.cons_append, List.cons.injEq] at he
          obtain ⟨rfl, rfl⟩ := he
          obtain rfl : ds = [] := by simpa using hz rfl
          cases rest with
          | nil => rfl
          | cons c rest =>
              have hc := hr c rfl
              simp [hc]
  · rename_i hz
    rw [digits_ok]
    constructor
    · rintro ⟨hd, hr, rfl⟩
      refine ⟨⟨hd, fun hh => ?_⟩, hr, rfl⟩
      cases ds with
      | nil => cases hh
      | cons d ds =>
          obtain rfl : d = '0' := by simpa using hh
          exact (hz _ rfl).elim
    · rintro ⟨⟨hd, -⟩, hr, rfl⟩
      exact ⟨hd, hr, rfl⟩

/-! ## The parts of a number -/

theorem after_ok {read skipped cs text rest : List Char}
    {part : List Char → Except LexicalFault (List Char × List Char)} :
    after read skipped cs part = .ok (text, rest) ↔
      ∃ t, part cs = .ok (t, rest) ∧ text = read ++ skipped ++ t := by
  unfold after
  cases hp : part cs with
  | error e => simp
  | ok found =>
      obtain ⟨t, rest'⟩ := found
      simp only [Except.ok.injEq, Prod.mk.injEq]
      constructor
      · rintro ⟨rfl, rfl⟩
        exact ⟨t, ⟨rfl, rfl⟩, rfl⟩
      · rintro ⟨t', ⟨rfl, rfl⟩, rfl⟩
        exact ⟨rfl, rfl⟩

theorem IsWhole.not_cons {ds rest tail : List Char} {c : Char} (h : IsWhole ds)
    (hc : isDigit c = false) (he : c :: tail = ds ++ rest) : False := by
  obtain ⟨⟨hne, hd⟩, -⟩ := h
  cases ds with
  | nil => contradiction
  | cons d ds =>
      obtain rfl : c = d := (List.cons.inj he).1
      rw [hd c (by simp)] at hc
      cases hc

theorem integerPart_ok {cs text rest : List Char} :
    integerPart cs = .ok (text, rest) ↔
      ∃ s w, IsSign s ∧ IsWhole w ∧ NoDigit rest ∧ text = s ++ w ∧ cs = s ++ w ++ rest := by
  unfold integerPart
  split
  · rename_i tail
    rw [after_ok]
    constructor
    · rintro ⟨t, ht, rfl⟩
      obtain ⟨hw, hr, rfl⟩ := wholePart_ok.mp ht
      exact ⟨['-'], t, .inr rfl, hw, hr, rfl, rfl⟩
    · rintro ⟨s, w, hs, hw, hr, rfl, he⟩
      rcases hs with rfl | rfl
      · exact (hw.not_cons (by decide) he).elim
      · refine ⟨w, wholePart_ok.mpr ⟨hw, hr, ?_⟩, rfl⟩
        simpa using he
  · rename_i hm
    rw [after_ok]
    constructor
    · rintro ⟨w, ht, rfl⟩
      obtain ⟨hw, hr, rfl⟩ := wholePart_ok.mp ht
      exact ⟨[], _, .inl rfl, hw, hr, rfl, rfl⟩
    · rintro ⟨s, w, hs, hw, hr, rfl, rfl⟩
      rcases hs with rfl | rfl
      · exact ⟨w, wholePart_ok.mpr ⟨hw, hr, rfl⟩, rfl⟩
      · exact (hm _ rfl).elim

theorem fractionPart_ok {read cs text rest : List Char} {found : Bool} (hn : NoDigit cs) :
    fractionPart read cs = .ok (found, text, rest) ↔
      ∃ f, IsFraction f ∧ found = !f.isEmpty ∧ text = read ++ f ∧ cs = f ++ rest ∧ NoDigit rest
        ∧ (f = [] → rest.head? ≠ some '.') := by
  unfold fractionPart
  split
  · rename_i tail
    cases ha : after read ['.'] tail digits with
    | error e =>
        simp only [Except.map, reduceCtorEq, false_iff]
        rintro ⟨f, hf, -, -, he, hr, hp⟩
        rcases hf with rfl | ⟨ds, hd, rfl⟩
        · exact hp rfl (by rw [← List.nil_append rest, ← he]; rfl)
        · rw [List.cons_append, List.cons.injEq] at he
          rw [after_ok.mpr ⟨ds, digits_ok.mpr ⟨hd, hr, he.2⟩, rfl⟩] at ha
          cases ha
    | ok result =>
        obtain ⟨text', rest'⟩ := result
        obtain ⟨ds, hs, rfl⟩ := after_ok.mp ha
        obtain ⟨hd, hr, rfl⟩ := digits_ok.mp hs
        simp only [Except.map, Except.ok.injEq, Prod.mk.injEq]
        constructor
        · rintro ⟨rfl, rfl, rfl⟩
          exact ⟨'.' :: ds, .inr ⟨ds, hd, rfl⟩, rfl, by simp, rfl, hr, by simp⟩
        · rintro ⟨f, hf, rfl, rfl, he, hr', hp⟩
          rcases hf with rfl | ⟨ds', hd', rfl⟩
          · exact (hp rfl (by rw [← List.nil_append rest, ← he]; rfl)).elim
          · rw [List.cons_append, List.cons.injEq] at he
            have h := digits_ok.mpr ⟨hd', hr', he.2⟩
            rw [digits_ok.mpr ⟨hd, hr, rfl⟩, Except.ok.injEq, Prod.mk.injEq] at h
            obtain ⟨rfl, rfl⟩ := h
            exact ⟨rfl, by simp, rfl⟩
  · rename_i hp
    simp only [Except.ok.injEq, Prod.mk.injEq]
    constructor
    · rintro ⟨rfl, rfl, rfl⟩
      refine ⟨[], .inl rfl, rfl, by simp, rfl, hn, fun _ hh => ?_⟩
      cases cs with
      | nil => cases hh
      | cons c cs =>
          obtain rfl : c = '.' := by simpa using hh
          exact hp _ rfl
    · rintro ⟨f, hf, rfl, rfl, rfl, -, -⟩
      rcases hf with rfl | ⟨ds, -, rfl⟩
      · exact ⟨rfl, by simp, rfl⟩
      · exact (hp _ rfl).elim

/-- What follows a number without an exponent. -/
def NoMark (rest : List Char) : Prop := ∀ c ∈ rest.head?, c ≠ 'e' ∧ c ≠ 'E'

theorem IsDigits.not_sign {ds rest tail : List Char} {c : Char} (h : IsDigits ds)
    (he : c :: tail = ds ++ rest) : c ≠ '+' ∧ c ≠ '-' := by
  obtain ⟨hne, hd⟩ := h
  cases ds with
  | nil => contradiction
  | cons d ds =>
      obtain rfl : c = d := (List.cons.inj he).1
      have hc := hd c (by simp)
      constructor <;> rintro rfl <;> cases hc

theorem map_found_ok {x : Except (LexicalFault × Nat) (List Char × List Char)} {found : Bool}
    {text rest : List Char} :
    x.map (true, ·) = .ok (found, text, rest) ↔ found = true ∧ x = .ok (text, rest) := by
  cases x with
  | error e => simp [Except.map]
  | ok pair =>
      obtain ⟨text', rest'⟩ := pair
      simp only [Except.map, Except.ok.injEq, Prod.mk.injEq]
      constructor
      · rintro ⟨rfl, rfl, rfl⟩
        exact ⟨rfl, rfl, rfl⟩
      · rintro ⟨rfl, rfl, rfl⟩
        exact ⟨rfl, rfl, rfl⟩

theorem exponentPart_mark {read cs text rest : List Char} {mark : Char} {found : Bool}
    (hm : mark = 'e' ∨ mark = 'E') :
    exponentPart read (mark :: cs) = .ok (found, text, rest) ↔
      found = true ∧ ∃ sign ds, IsExponentSign sign ∧ IsDigits ds ∧ NoDigit rest
        ∧ text = read ++ mark :: (sign ++ ds) ∧ cs = sign ++ ds ++ rest := by
  have hb : (mark == 'e' || mark == 'E') = true := by rcases hm with rfl | rfl <;> rfl
  cases cs with
  | nil =>
      simp only [exponentPart, hb, ↓reduceIte, map_found_ok, after_ok, digits_ok]
      constructor
      · rintro ⟨-, t, ⟨⟨hne, -⟩, -, he⟩, -⟩
        exact (hne (List.append_eq_nil_iff.mp he.symm).1).elim
      · rintro ⟨-, sign, ds, -, ⟨hne, -⟩, -, -, he⟩
        exact (hne (List.append_eq_nil_iff.mp (List.append_eq_nil_iff.mp he.symm).1).2).elim
  | cons c tail =>
      by_cases hc : c = '+' ∨ c = '-'
      · have hs : (c == '+' || c == '-') = true := by rcases hc with rfl | rfl <;> rfl
        simp only [exponentPart, hb, hs, ↓reduceIte, map_found_ok, after_ok, digits_ok]
        constructor
        · rintro ⟨hf, ds, ⟨hd, hr, rfl⟩, rfl⟩
          refine ⟨hf, [c], ds, ?_, hd, hr, by simp, rfl⟩
          rcases hc with rfl | rfl
          · exact .inr (.inl rfl)
          · exact .inr (.inr rfl)
        · rintro ⟨hf, sign, ds, hsign, hd, hr, rfl, he⟩
          have hne : sign ≠ [] := by
            rintro rfl
            obtain ⟨hp, hm⟩ := hd.not_sign he
            exact hc.elim hp hm
          obtain ⟨rfl, rfl⟩ : sign = [c] ∧ tail = ds ++ rest := by
            rcases hsign with rfl | rfl | rfl
            · contradiction
            · obtain ⟨rfl, rfl⟩ := List.cons.inj he
              exact ⟨rfl, rfl⟩
            · obtain ⟨rfl, rfl⟩ := List.cons.inj he
              exact ⟨rfl, rfl⟩
          exact ⟨hf, ds, ⟨hd, hr, rfl⟩, by simp⟩
      · have hs : (c == '+' || c == '-') = false := by simpa [not_or] using hc
        simp only [exponentPart, hb, hs, Bool.false_eq_true, ↓reduceIte, map_found_ok, after_ok,
          digits_ok]
        constructor
        · rintro ⟨hf, ds, ⟨hd, hr, he⟩, rfl⟩
          exact ⟨hf, [], ds, .inl rfl, hd, hr, by simp, he⟩
        · rintro ⟨hf, sign, ds, hsign, hd, hr, rfl, he⟩
          rcases hsign with rfl | rfl | rfl
          · exact ⟨hf, ds, ⟨hd, hr, he⟩, by simp⟩
          · exact (hc (.inl (List.cons.inj he).1)).elim
          · exact (hc (.inr (List.cons.inj he).1)).elim

theorem exponentPart_ok {read cs text rest : List Char} {found : Bool} (hn : NoDigit cs) :
    exponentPart read cs = .ok (found, text, rest) ↔
      ∃ e, IsExponent e ∧ found = !e.isEmpty ∧ text = read ++ e ∧ cs = e ++ rest ∧ NoDigit rest
        ∧ (e = [] → NoMark rest) := by
  by_cases hm : ∃ mark tail, cs = mark :: tail ∧ (mark = 'e' ∨ mark = 'E')
  · obtain ⟨mark, tail, rfl, hm⟩ := hm
    rw [exponentPart_mark hm]
    constructor
    · rintro ⟨rfl, sign, ds, hs, hd, hr, rfl, rfl⟩
      exact ⟨mark :: (sign ++ ds), .inr ⟨mark, sign, ds, hm, hs, hd, rfl⟩, rfl, rfl, by simp, hr,
        by simp⟩
    · rintro ⟨e, he, rfl, rfl, hc, hr, hno⟩
      rcases he with rfl | ⟨mark', sign, ds, hm', hs, hd, rfl⟩
      · obtain ⟨h1, h2⟩ := hno rfl mark (by rw [← List.nil_append rest, ← hc]; rfl)
        exact (hm.elim h1 h2).elim
      · obtain ⟨rfl, rfl⟩ := List.cons.inj hc
        exact ⟨rfl, sign, ds, hs, hd, hr, rfl, rfl⟩
  · have hno : NoMark cs := by
      intro c hc
      cases cs with
      | nil => cases hc
      | cons d tail =>
          obtain rfl : d = c := by simpa using hc
          constructor <;> rintro rfl <;> exact hm ⟨_, tail, rfl, by simp⟩
    have hx : exponentPart read cs = .ok (false, read, cs) := by
      unfold exponentPart
      split
      · rename_i c sign tail
        obtain ⟨h1, h2⟩ := hno c rfl
        simp [h1, h2]
      · rename_i c
        obtain ⟨h1, h2⟩ := hno c rfl
        simp [h1, h2]
      · rfl
    rw [hx]
    simp only [Except.ok.injEq, Prod.mk.injEq]
    constructor
    · rintro ⟨rfl, rfl, rfl⟩
      exact ⟨[], .inl rfl, rfl, by simp, rfl, hn, fun _ => hno⟩
    · rintro ⟨e, he, rfl, rfl, rfl, -, -⟩
      rcases he with rfl | ⟨mark, sign, ds, hm', -, -, rfl⟩
      · exact ⟨rfl, by simp, rfl⟩
      · exact (hm ⟨mark, _, rfl, hm'⟩).elim

/-! ## Whole numbers -/

theorem endsNumber_iff {rest : List Char} : EndsNumber rest ↔ NoDigit rest ∧
    (rest.head?.map fun c => c == '.' || isNameStart c).getD false = false := by
  cases rest with
  | nil => simp [EndsNumber, NoDigit]
  | cons c rest =>
      simp only [EndsNumber, NoDigit, isNameChar, List.head?_cons, Option.mem_def,
        Option.some.injEq, forall_eq', Option.map_some, Option.getD_some, Bool.or_eq_false_iff,
        beq_eq_false_iff_ne, ne_eq]
      constructor
      · rintro ⟨hp, hs, hd⟩
        exact ⟨hd, hp, hs⟩
      · rintro ⟨hd, hp, hs⟩
        exact ⟨hp, hs, hd⟩

theorem IsFraction.noDigit_append {f rest : List Char} (h : IsFraction f) (hr : NoDigit rest) :
    NoDigit (f ++ rest) := by
  rcases h with rfl | ⟨ds, -, rfl⟩
  · exact hr
  · intro c hc
    obtain rfl : '.' = c := by simpa using hc
    rfl

theorem IsExponent.noDigit_append {e rest : List Char} (h : IsExponent e) (hr : NoDigit rest) :
    NoDigit (e ++ rest) := by
  rcases h with rfl | ⟨mark, sign, ds, hm, -, -, rfl⟩
  · exact hr
  · intro c hc
    obtain rfl : mark = c := by simpa using hc
    rcases hm with rfl | rfl <;> rfl

theorem EndsNumber.noMark {rest : List Char} (h : EndsNumber rest) : NoMark rest := by
  intro c hc
  have hn := (h c hc).2
  constructor <;> rintro rfl <;> cases hn

/-- What follows the whole part does not go on with a point unless a fraction is read. -/
theorem IsExponent.head_ne_point {e rest : List Char} (h : IsExponent e) (hr : EndsNumber rest) :
    (e ++ rest).head? ≠ some '.' := by
  rcases h with rfl | ⟨mark, sign, ds, hm, -, -, rfl⟩
  · intro hc
    exact (hr '.' hc).1 rfl
  · rcases hm with rfl | rfl <;> simp

theorem number_eq_lexeme {cs : List Char} {l : Lexeme} {n : Nat} :
    number cs = .lexeme l n ↔ ∃ (m : Numeral) (rest : List Char),
      cs = m.text ++ rest ∧ EndsNumber rest ∧ l = m.lexeme ∧ n = m.text.length := by
  constructor
  · intro h
    unfold number at h
    cases hi : integerPart cs with
    | error e => simp only [hi, bind, Except.bind, reduceCtorEq] at h
    | ok whole =>
        obtain ⟨read, afterWhole⟩ := whole
        obtain ⟨s, w, hs, hw, hn, rfl, rfl⟩ := integerPart_ok.mp hi
        cases hf : fractionPart (s ++ w) afterWhole with
        | error e => simp only [hi, hf, bind, Except.bind, reduceCtorEq] at h
        | ok fraction =>
            obtain ⟨hasPoint, read, afterFraction⟩ := fraction
            obtain ⟨f, hfr, rfl, rfl, rfl, hn, -⟩ := (fractionPart_ok hn).mp hf
            cases he : exponentPart (s ++ w ++ f) afterFraction with
            | error e => simp only [hi, hf, he, bind, Except.bind, reduceCtorEq] at h
            | ok exponent =>
                obtain ⟨hasExponent, read, rest⟩ := exponent
                obtain ⟨e, hex, rfl, rfl, rfl, hn, -⟩ := (exponentPart_ok hn).mp he
                cases hr : (rest.head?.map fun c => c == '.' || isNameStart c).getD false with
                | true =>
                    simp only [hi, hf, he, hr, bind, Except.bind, throw, throwThe,
                      MonadExceptOf.throw, ↓reduceIte, reduceCtorEq] at h
                | false =>
                    simp only [hi, hf, he, hr, bind, Except.bind, pure, Except.pure,
                      Bool.false_eq_true, ↓reduceIte, Found.lexeme.injEq] at h
                    obtain ⟨rfl, rfl⟩ := h
                    refine ⟨⟨s, w, f, e, hs, hw, hfr, hex⟩, rest, by simp [Numeral.text],
                      endsNumber_iff.mpr ⟨hn, hr⟩, ?_, rfl⟩
                    cases f <;> cases e <;> simp [Numeral.lexeme, Numeral.text]
  · rintro ⟨⟨s, w, f, e, hs, hw, hfr, hex⟩, rest, rfl, hr, rfl, rfl⟩
    have hd := hr.noDigit
    have hi : integerPart (s ++ w ++ f ++ e ++ rest) = .ok (s ++ w, f ++ (e ++ rest)) :=
      integerPart_ok.mpr ⟨s, w, hs, hw, hfr.noDigit_append (hex.noDigit_append hd), rfl, by simp⟩
    have hf : fractionPart (s ++ w) (f ++ (e ++ rest)) =
        .ok (!f.isEmpty, s ++ w ++ f, e ++ rest) :=
      (fractionPart_ok (hfr.noDigit_append (hex.noDigit_append hd))).mpr
        ⟨f, hfr, rfl, rfl, rfl, hex.noDigit_append hd, fun _ => hex.head_ne_point hr⟩
    have he : exponentPart (s ++ w ++ f) (e ++ rest) =
        .ok (!e.isEmpty, s ++ w ++ f ++ e, rest) :=
      (exponentPart_ok (hex.noDigit_append hd)).mpr
        ⟨e, hex, rfl, rfl, rfl, hd, fun _ => hr.noMark⟩
    have hm := (endsNumber_iff.mp hr).2
    simp only [number, Numeral.text, hi, hf, he, hm, bind, Except.bind, pure, Except.pure,
      Bool.false_eq_true, ↓reduceIte, Found.lexeme.injEq, and_true]
    cases f <;> cases e <;> simp [Numeral.lexeme, Numeral.text]

end SdlAssembly.Grammar.Lexer
