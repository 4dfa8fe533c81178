import SdlAssembly.Number.Shortest
import SdlAssembly.Proofs.Lexing.Numerals
import SdlAssembly.Schema.Literal
import Mathlib.Tactic.Ring

/-!
# Texts of numbers

The texts of whole numbers and of finite floating point numbers are written numbers, and so is the
text of a floating point number without a fraction of zero. What is read from a written number is
told by its digits and by the place of its point.
-/

namespace SdlAssembly.Number

open Grammar Lexer Text Schemas

/-- Texts that are written numbers. -/
def IsNumeral (text : List Char) : Prop := ∃ m : Numeral, m.text = text

/-! ## Decimals -/

/-- The power of ten that an exponent tells. -/
def exponentPower (exponent : List Char) : Int :=
  let exponent := exponent.drop 1
  let exponent := if exponent.head? == some '+' then exponent.drop 1 else exponent
  if exponent.isEmpty then 0 else readInt (String.ofList exponent)

/-- The digits of a number, as a whole number. -/
def digitsOf (m : Numeral) : Nat := Nat.ofDigitChars 10 (m.whole ++ m.fraction.drop 1) 0

/-- The power of ten that the last digit of a number counts. -/
def powerOf (m : Numeral) : Int := exponentPower m.exponent - (m.fraction.drop 1).length

/-- No part of a number before its exponent has the mark of one. -/
theorem mantissa_marks (m : Numeral) :
    ∀ c ∈ m.whole ++ m.fraction, (!(c == 'e' || c == 'E')) = true := by
  have hdigit : ∀ c : Char, isDigit c → (!(c == 'e' || c == 'E')) = true := by
    intro c hc
    have he : c ≠ 'e' := by rintro rfl; cases hc
    have hE : c ≠ 'E' := by rintro rfl; cases hc
    simp [he, hE]
  intro c hc
  rcases List.mem_append.mp hc with hc | hc
  · exact hdigit c (m.isWhole.1.2 c hc)
  · rcases m.isFraction with hf | ⟨ds, hd, hf⟩
    · rw [hf] at hc
      cases hc
    · rw [hf] at hc
      rcases List.mem_cons.mp hc with rfl | hc
      · decide
      · exact hdigit c (hd.2 c hc)

/-- A written number is read as the decimal that it shows. -/
theorem readFloat_numeral (m : Numeral) : readFloat (String.ofList m.text) =
    .ofDecimal (m.sign == ['-']) (digitsOf m) (powerOf m) := by
  have hmarks := mantissa_marks m
  have hsigned : (m.text.head? == some '-') = (m.sign == ['-'])
      ∧ (if m.sign == ['-'] then m.text.drop 1 else m.text) =
        m.whole ++ m.fraction ++ m.exponent := by
    obtain ⟨hne, hd⟩ := m.isWhole.1
    obtain ⟨c, cs, hc⟩ := List.exists_cons_of_ne_nil hne
    have hminus : c ≠ '-' := by
      rintro rfl
      exact absurd (hd '-' (hc ▸ List.mem_cons_self)) (by decide)
    rcases m.isSign with hs | hs <;> simp [Numeral.text, hs, hc, hminus]
  have hexponent : (m.whole ++ m.fraction ++ m.exponent).takeWhile (fun c => !(c == 'e' || c == 'E')) =
        m.whole ++ m.fraction
      ∧ (m.whole ++ m.fraction ++ m.exponent).dropWhile (fun c => !(c == 'e' || c == 'E')) =
        m.exponent := by
    rw [List.takeWhile_append_of_pos hmarks, List.dropWhile_append_of_pos hmarks]
    rcases m.isExponent with he | ⟨mark, sign, ds, hm, -, -, he⟩
    · simp [he]
    · rcases hm with rfl | rfl <;> simp [he]
  have hpoint : (m.whole ++ m.fraction).takeWhile (· != '.') = m.whole
      ∧ (m.whole ++ m.fraction).dropWhile (· != '.') = m.fraction := by
    have hdigits : ∀ c ∈ m.whole, (c != '.') = true := by
      intro c hc
      have hd := m.isWhole.1.2 c hc
      have hne : c ≠ '.' := by rintro rfl; cases hd
      simpa using hne
    rw [List.takeWhile_append_of_pos hdigits, List.dropWhile_append_of_pos hdigits]
    rcases m.isFraction with hf | ⟨ds, -, hf⟩ <;> simp [hf]
  unfold readFloat
  simp only [String.toList_ofList, hsigned.1, hsigned.2, hexponent.1, hexponent.2, hpoint.1,
    hpoint.2]
  rfl

/-! ## Digits of whole numbers -/

theorem toDigits_digits {n : Nat} : ∀ c ∈ Nat.toDigits 10 n, isDigit c :=
  fun _ hc => Nat.isDigit_of_mem_toDigits (by decide) (by decide) hc

theorem head_toDigits {n : Nat} (h : 0 < n) : (Nat.toDigits 10 n).head? ≠ some '0' := by
  induction n using Nat.strongRecOn with
  | ind n ih =>
      rw [Nat.toDigits_eq_if (by decide)]
      split
      · rename_i hn
        have hc : ∀ k < 10, 0 < k → k.digitChar ≠ '0' := by decide
        simpa using hc n hn h
      · rename_i hn
        have hd := ih (n / 10) (by omega) (by omega)
        obtain ⟨c, cs, hcs⟩ := List.exists_cons_of_ne_nil (@Nat.toDigits_ne_nil (n / 10) 10)
        rw [hcs] at hd ⊢
        exact hd

theorem isDigits_toDigits (n : Nat) : IsDigits (Nat.toDigits 10 n) :=
  ⟨Nat.toDigits_ne_nil, toDigits_digits⟩

theorem isWhole_toDigits (n : Nat) : IsWhole (Nat.toDigits 10 n) := by
  refine ⟨isDigits_toDigits n, fun h => ?_⟩
  cases n with
  | zero => rfl
  | succ n => exact (head_toDigits (Nat.succ_pos n) h).elim

theorem digitChar_of_isDigit {c : Char} (h : isDigit c) :
    c.toNat - '0'.toNat < 10 ∧ (c.toNat - '0'.toNat).digitChar = c := by
  have hb : 48 ≤ c.toNat ∧ c.toNat ≤ 57 := by
    simpa [isDigit, Char.le_def, UInt32.le_iff_toNat_le] using h
  have hz : '0'.toNat = 48 := rfl
  have hlt : c.toNat - '0'.toNat < 10 := by omega
  refine ⟨hlt, Char.toNat_inj.mp ?_⟩
  rw [Nat.toNat_digitChar_of_lt_ten hlt]
  omega

/-- Digits after a number that is not zero are its last digits. -/
theorem toDigits_ofDigitChars {ds : List Char} (hd : ∀ d ∈ ds, isDigit d) {start : Nat}
    (hs : 0 < start) : Nat.toDigits 10 (Nat.ofDigitChars 10 ds start) =
      Nat.toDigits 10 start ++ ds := by
  induction ds generalizing start with
  | nil => simp
  | cons c ds ih =>
      obtain ⟨hfirst, hd⟩ := List.forall_mem_cons.mp hd
      obtain ⟨hlt, hc⟩ := digitChar_of_isDigit hfirst
      rw [Nat.ofDigitChars_cons, ih hd (by omega),
        ← Nat.toDigits_append_toDigits (by decide) hs hlt, Nat.toDigits_of_lt_base hlt, hc]
      simp

/-- A whole number that is not zero has the digits that it is written with. -/
theorem toDigits_whole {ds : List Char} (h : IsWhole ds) :
    (ds ≠ ['0'] → 0 < Nat.ofDigitChars 10 ds 0)
      ∧ Nat.toDigits 10 (Nat.ofDigitChars 10 ds 0) = ds := by
  obtain ⟨⟨hne, hd⟩, hz⟩ := h
  obtain ⟨c, ds, rfl⟩ := List.exists_cons_of_ne_nil hne
  by_cases hc : c = '0'
  · rw [hz (by rw [hc]; rfl)]
    exact ⟨fun h => (h rfl).elim, rfl⟩
  · obtain ⟨hfirst, hd⟩ := List.forall_mem_cons.mp hd
    obtain ⟨hlt, hchar⟩ := digitChar_of_isDigit hfirst
    have hpos : 0 < c.toNat - '0'.toNat := by
      refine Nat.pos_of_ne_zero fun h0 => hc ?_
      rw [← hchar, h0]
      rfl
    have hdigits := toDigits_ofDigitChars hd hpos
    rw [Nat.ofDigitChars_cons, Nat.mul_zero, Nat.zero_add]
    refine ⟨fun _ => Nat.pos_of_ne_zero fun h0 => ?_, ?_⟩
    · rw [h0, Nat.toDigits_of_lt_base hlt, hchar] at hdigits
      exact hc (List.cons.inj hdigits).1.symm
    · rw [hdigits, Nat.toDigits_of_lt_base hlt, hchar]
      rfl

/-- Texts that are whole numbers. -/
def IsInteger (text : List Char) : Prop :=
  ∃ sign whole, IsSign sign ∧ IsWhole whole ∧ text = sign ++ whole

/-- A sign and a whole part, as a number. -/
def integer {sign whole : List Char} (hs : IsSign sign) (hw : IsWhole whole) : Numeral :=
  ⟨sign, whole, [], [], hs, hw, .inl rfl, .inl rfl⟩

theorem text_integer {sign whole : List Char} (hs : IsSign sign) (hw : IsWhole whole) :
    (integer hs hw).text = sign ++ whole := by simp [integer, Numeral.text]

theorem isInteger_int (n : Int) : IsInteger (toString n).toList := by
  rw [Int.toString_eq_repr, Int.repr_eq_if]
  split
  · rw [Nat.toList_repr]
    exact ⟨[], _, .inl rfl, isWhole_toDigits _, rfl⟩
  · rw [String.toList_append, Nat.toList_repr]
    exact ⟨['-'], _, .inr rfl, isWhole_toDigits _, rfl⟩

/-! ## Shortest decimals -/

/-- Digits that do not start with a zero. -/
def IsLeading (ds : List Char) : Prop := IsDigits ds ∧ ds.head? ≠ some '0'

theorem isLeading_toDigits {n : Nat} (h : 0 < n) : IsLeading (Nat.toDigits 10 n) :=
  ⟨isDigits_toDigits n, head_toDigits h⟩

theorem IsLeading.trimmed {ds : List Char} (h : IsLeading ds) :
    IsLeading (ds.reverse.dropWhile (· == '0')).reverse := by
  obtain ⟨⟨hne, hd⟩, hz⟩ := h
  have hsplit := List.takeWhile_append_dropWhile (p := (· == '0')) (l := ds.reverse)
  have hds : ds = (ds.reverse.dropWhile (· == '0')).reverse
      ++ (ds.reverse.takeWhile (· == '0')).reverse := by
    rw [← List.reverse_append, hsplit, List.reverse_reverse]
  have hzeros : ∀ c ∈ (ds.reverse.takeWhile (· == '0')).reverse, c = '0' := by
    intro c hc
    have hall := List.all_eq_true.mp List.all_takeWhile c (List.mem_reverse.mp hc)
    simpa using hall
  generalize (ds.reverse.dropWhile (· == '0')).reverse = kept at hds
  generalize (ds.reverse.takeWhile (· == '0')).reverse = zeros at hds hzeros
  subst hds
  cases kept with
  | nil =>
      cases zeros with
      | nil => exact (hne rfl).elim
      | cons c zeros => exact (hz (congrArg some (hzeros c (by simp)))).elim
  | cons c kept => exact ⟨⟨by simp, fun d hm => hd d (List.mem_append_left _ hm)⟩, hz⟩

theorem onGrid?_pos {mantissa digits : Nat} {exponent power : Int}
    (h : onGrid? mantissa exponent power = some digits) : 0 < digits := by
  have hr := List.find?_some h
  rcases Nat.eq_zero_or_pos digits with rfl | hd
  · have hs : (Binary64.scale 10 power 0 1).1 = 0 := by
      unfold Binary64.scale
      split
      · exact Nat.zero_mul _
      · rfl
    simp [readsAs, hs] at hr
  · exact hd

theorem isLeading_shortestDigits {mantissa : Nat} (h : 0 < mantissa) (exponent : Int) :
    IsLeading (shortestDigits mantissa exponent).1 := by
  unfold shortestDigits
  dsimp only
  split
  · rename_i digits power hf
    obtain ⟨i, -, hi⟩ := List.exists_of_findSome?_eq_some hf
    obtain ⟨found, hg, he⟩ := Option.map_eq_some_iff.mp hi
    cases he
    exact (isLeading_toDigits (onGrid?_pos hg)).trimmed
  · exact isLeading_toDigits h

/-! ## Texts of finite numbers -/

theorem isDigits_append {as bs : List Char} (ha : IsDigits as) (hb : ∀ d ∈ bs, isDigit d) :
    IsDigits (as ++ bs) :=
  ⟨by simp [ha.1], fun d hd => (List.mem_append.mp hd).elim (ha.2 d) (hb d)⟩

theorem zeros_digits (n : Nat) : ∀ d ∈ List.replicate n '0', isDigit d := by
  intro d hd
  obtain rfl := (List.mem_replicate.mp hd).2
  decide

theorem IsLeading.isWhole {ds zeros : List Char} (h : IsLeading ds) {n : Nat} (hn : 0 < n)
    (hz : ∀ d ∈ zeros, isDigit d) : IsWhole (ds.take n ++ zeros) := by
  obtain ⟨⟨hne, hd⟩, hz0⟩ := h
  obtain ⟨c, cs, rfl⟩ := List.exists_cons_of_ne_nil hne
  obtain ⟨n, rfl⟩ := Nat.exists_eq_succ_of_ne_zero (Nat.ne_of_gt hn)
  refine ⟨isDigits_append ⟨by simp, fun d hm => hd d (List.mem_of_mem_take hm)⟩ hz, fun hh => ?_⟩
  exact (hz0 hh).elim

theorem isExponent_exponentText (e : Int) : IsExponent (exponentText e).toList := by
  have hsign : IsExponentSign (if e < 0 then "-" else "+").toList := by
    split
    · exact .inr (.inr rfl)
    · exact .inr (.inl rfl)
  have hdigits : IsDigits (if (toString e.natAbs).length < 2 then "0" ++ toString e.natAbs
      else toString e.natAbs).toList := by
    have hd : IsDigits (toString e.natAbs).toList := by
      rw [Nat.toString_eq_ofList_toDigits, String.toList_ofList]
      exact isDigits_toDigits _
    split
    · rw [String.toList_append]
      exact ⟨by simp, fun d hm => (List.mem_append.mp hm).elim (by simp; rintro rfl; decide) (hd.2 d)⟩
    · exact hd
  refine .inr ⟨'e', _, _, .inl rfl, hsign, hdigits, ?_⟩
  simp [exponentText]

theorem readInt_digits {ds : List Char} (h : IsDigits ds) :
    readInt (String.ofList ds) = Nat.ofDigitChars 10 ds 0 := by
  unfold readInt
  rw [String.toList_ofList]
  split
  · exact absurd (h.2 '-' (by simp)) (by decide)
  · rfl

theorem readInt_minus (ds : List Char) :
    readInt (String.ofList ('-' :: ds)) = -(Nat.ofDigitChars 10 ds 0 : Int) := by
  unfold readInt
  rw [String.toList_ofList]
  rfl

/-- A whole number is written as it was read, but for the sign of zero. -/
theorem toString_readInt {sign whole : List Char} (hs : IsSign sign) (hw : IsWhole whole)
    (hz : sign = [] ∨ whole ≠ ['0']) :
    toString (readInt (String.ofList (sign ++ whole))) = String.ofList (sign ++ whole) := by
  obtain ⟨hpos, hdigits⟩ := toDigits_whole hw
  rcases hs with rfl | rfl
  · rw [List.nil_append, readInt_digits hw.1, Int.toString_eq_repr, Int.repr_eq_if,
      if_pos (Int.natCast_nonneg _), Int.toNat_natCast, Nat.repr_eq_ofList_toDigits, hdigits]
  · have hpos := hpos (hz.resolve_left (by simp))
    rw [List.singleton_append, readInt_minus, Int.toString_eq_repr, Int.repr_eq_if,
      if_neg (by omega), Int.neg_neg, Int.toNat_natCast, Nat.repr_eq_ofList_toDigits, hdigits,
      ← String.toList_inj]
    simp

theorem exponentPower_exponentText (e : Int) : exponentPower (exponentText e).toList = e := by
  have hdigits : ∃ ds : List Char, (if (toString e.natAbs).length < 2 then "0" ++ toString e.natAbs
      else toString e.natAbs).toList = ds ∧ IsDigits ds ∧ Nat.ofDigitChars 10 ds 0 = e.natAbs := by
    rw [Nat.toString_eq_ofList_toDigits]
    refine ⟨_, rfl, ?_⟩
    have hd := isDigits_toDigits e.natAbs
    split
    · rw [String.toList_append, String.toList_ofList, String.toList_ofList]
      refine ⟨⟨by simp, fun d hm => (List.mem_append.mp hm).elim (by simp; rintro rfl; decide) (hd.2 d)⟩,
        ?_⟩
      rw [List.singleton_append, Nat.ofDigitChars_cons]
      exact Nat.ofDigitChars_ten_toDigits
    · rw [String.toList_ofList]
      exact ⟨hd, Nat.ofDigitChars_ten_toDigits⟩
  obtain ⟨ds, hds, hd, hvalue⟩ := hdigits
  have hminus : exponentPower ('e' :: '-' :: ds) = -(Nat.ofDigitChars 10 ds 0 : Int) :=
    readInt_minus ds
  have hplus : exponentPower ('e' :: '+' :: ds) = Nat.ofDigitChars 10 ds 0 := by
    simpa [exponentPower, hd.1] using readInt_digits hd
  unfold exponentText
  simp only [String.toList_append, hds]
  by_cases he : e < 0
  · rw [if_pos he]
    refine hminus.trans ?_
    omega
  · rw [if_neg he]
    refine hplus.trans ?_
    omega

theorem isWhole_digit {d : Char} (h : isDigit d) : IsWhole [d] :=
  ⟨⟨by simp, by simpa using h⟩, by simp⟩

/-- A number shows digits with a point at a place; zeros may follow the digits. -/
structure Shows (m : Numeral) (sign ds : List Char) (place : Int) : Prop where
  sign : m.sign = sign
  short : m.whole.length ≤ positionalBelow.toNat
  value : ∃ zeros : Nat, digitsOf m = Nat.ofDigitChars 10 ds 0 * 10 ^ zeros
    ∧ powerOf m = place - ds.length - zeros

section PlacePoint

variable {sign ds : List Char} {place : Int}

/-- Digits after the point, with zeros between. -/
theorem exists_numeral_fraction (hs : IsSign sign) (h : IsLeading ds) (hp : place ≤ 0) :
    ∃ m : Numeral, m.text = sign ++ '0' :: '.' :: (List.replicate (-place).toNat '0' ++ ds)
      ∧ Shows m sign ds place := by
  have hone : 1 ≤ positionalBelow.toNat := by decide
  have hf : IsDigits (List.replicate (-place).toNat '0' ++ ds) :=
    ⟨by simp [h.1.1], fun d hm => (List.mem_append.mp hm).elim (zeros_digits _ d) (h.1.2 d)⟩
  refine ⟨⟨sign, ['0'], '.' :: _, [], hs, isWhole_digit (by decide), .inr ⟨_, hf, rfl⟩, .inl rfl⟩,
    by simp [Numeral.text], rfl, hone, 0, ?_, ?_⟩
  · simp [digitsOf, Nat.ofDigitChars_append, Nat.ofDigitChars_replicate_zero,
      Nat.ofDigitChars_cons]
  · simp [powerOf, exponentPower]
    omega

/-- Digits before the point, with zeros up to it. -/
theorem exists_numeral_whole (hs : IsSign sign) (h : IsLeading ds) (hp : 0 < place)
    (hbelow : place ≤ positionalBelow) (hrest : ds.length ≤ place.toNat) :
    ∃ m : Numeral, m.text = sign ++ (ds ++ List.replicate (place.toNat - ds.length) '0')
        ++ ['.', '0'] ∧ Shows m sign ds place := by
  have hbelow : place ≤ 16 := hbelow
  have hw : IsWhole (ds.take place.toNat ++ List.replicate (place.toNat - ds.length) '0') :=
    h.isWhole (by omega) (zeros_digits _)
  rw [List.take_of_length_le hrest] at hw
  refine ⟨⟨sign, _, ['.', '0'], [], hs, hw, .inr ⟨['0'], (isWhole_digit (by decide)).1, rfl⟩,
    .inl rfl⟩, by simp [Numeral.text], rfl, ?_, place.toNat - ds.length + 1, ?_, ?_⟩
  · change (_ : List Char).length ≤ 16
    simp
    omega
  · simp only [digitsOf, List.drop_succ_cons, List.drop_zero, Nat.ofDigitChars_append,
      Nat.ofDigitChars_replicate_zero, Nat.ofDigitChars_cons, Nat.ofDigitChars_nil,
      Nat.pow_succ]
    ac_rfl
  · simp [powerOf, exponentPower]
    omega

/-- Digits on both sides of the point. -/
theorem exists_numeral_both (hs : IsSign sign) (h : IsLeading ds) (hp : 0 < place)
    (hbelow : place ≤ positionalBelow) (hrest : place.toNat < ds.length) :
    ∃ m : Numeral, m.text = sign ++ ds.take place.toNat ++ '.' :: ds.drop place.toNat
      ∧ Shows m sign ds place := by
  have hbelow : place ≤ 16 := hbelow
  have hw : IsWhole (ds.take place.toNat ++ []) := h.isWhole (by omega) (by simp)
  have hf : IsDigits (ds.drop place.toNat) :=
    ⟨by simpa using hrest, fun d hm => h.1.2 d (List.mem_of_mem_drop hm)⟩
  refine ⟨⟨sign, _, '.' :: _, [], hs, hw, .inr ⟨_, hf, rfl⟩, .inl rfl⟩, by simp [Numeral.text], rfl,
    ?_, 0, ?_, ?_⟩
  · change (_ : List Char).length ≤ 16
    simp
    omega
  · simp [digitsOf]
  · simp [powerOf, exponentPower]
    omega

/-- One digit before the point, and an exponent. -/
theorem exists_numeral_exponent (hs : IsSign sign) (h : IsLeading ds) (place : Int) :
    ∃ m : Numeral, m.text = sign ++ ds.take 1 ++ (if (ds.drop 1).isEmpty then [] else
        '.' :: ds.drop 1) ++ (exponentText (place - 1)).toList ∧ Shows m sign ds place := by
  have hone : 1 ≤ positionalBelow.toNat := by decide
  obtain ⟨⟨hne, hd⟩, -⟩ := h
  obtain ⟨c, cs, rfl⟩ := List.exists_cons_of_ne_nil hne
  have hpower := exponentPower_exponentText (place - 1)
  have hw : IsWhole [c] := isWhole_digit (hd c (by simp))
  have he := isExponent_exponentText (place - 1)
  by_cases hcs : cs = []
  · subst hcs
    refine ⟨⟨sign, [c], [], _, hs, hw, .inl rfl, he⟩, by simp [Numeral.text], rfl, hone, 0, ?_, ?_⟩
    · simp [digitsOf]
    · simp [powerOf, hpower]
  · have hf : IsDigits cs := ⟨hcs, fun d hm => hd d (List.mem_cons_of_mem _ hm)⟩
    refine ⟨⟨sign, [c], '.' :: cs, _, hs, hw, .inr ⟨cs, hf, rfl⟩, he⟩,
      by simp [Numeral.text, hcs], rfl, hone, 0, ?_, ?_⟩
    · simp [digitsOf]
    · simp [powerOf, hpower]
      omega

/-- A sign and digits with a point at a place are a number. -/
theorem exists_numeral_placePoint (hs : IsSign sign) (h : IsLeading ds) (place : Int) :
    ∃ m : Numeral, m.text = sign ++ (placePoint ds place).toList ∧ Shows m sign ds place := by
  unfold placePoint
  dsimp only
  split
  · rename_i hplace
    have hbelow : place ≤ positionalBelow := of_decide_eq_true (Bool.and_eq_true_iff.mp hplace).2
    split
    · rename_i hp
      obtain ⟨m, ht, hm⟩ := exists_numeral_fraction hs h hp
      exact ⟨m, ht.trans (by simp), hm⟩
    · rename_i hp
      have hp : 0 < place := by omega
      rcases Nat.lt_or_ge place.toNat ds.length with hrest | hrest
      · obtain ⟨m, ht, hm⟩ := exists_numeral_both hs h hp hbelow hrest
        have hzeros : place.toNat - ds.length = 0 := by omega
        have hdrop : (ds.drop place.toNat).isEmpty = false := by simpa using hrest
        exact ⟨m, ht.trans (by simp [hzeros, hdrop]), hm⟩
      · obtain ⟨m, ht, hm⟩ := exists_numeral_whole hs h hp hbelow hrest
        have htake : ds.take place.toNat = ds := List.take_of_length_le hrest
        have hdrop : ds.drop place.toNat = [] := List.drop_of_length_le hrest
        exact ⟨m, ht.trans (by simp [htake, hdrop]), hm⟩
  · obtain ⟨m, ht, hm⟩ := exists_numeral_exponent hs h place
    refine ⟨m, ht.trans ?_, hm⟩
    split <;> simp

end PlacePoint

theorem isSign_negative (negative : Bool) : IsSign (if negative then "-" else "").toList := by
  cases negative with
  | true => exact .inr rfl
  | false => exact .inl rfl

theorem isNumeral_text {value : Binary64} (h : value.isFinite) : IsNumeral value.text.toList := by
  cases value with
  | infinite negative => cases h
  | nan => cases h
  | finite negative mantissa exponent =>
      have hs := isSign_negative negative
      rw [Binary64.text, String.toList_append]
      by_cases hm : mantissa = 0
      · rw [if_pos hm]
        exact ⟨⟨_, ['0'], ['.', '0'], [], hs, isWhole_digit (by decide),
          .inr ⟨['0'], (isWhole_digit (by decide)).1, rfl⟩, .inl rfl⟩, by simp [Numeral.text]⟩
      · rw [if_neg hm]
        obtain ⟨m, hm, -⟩ := exists_numeral_placePoint hs
          (isLeading_shortestDigits (Nat.pos_of_ne_zero hm) exponent) _
        exact ⟨m, hm⟩

/-! ## Numbers without their fraction -/

theorem digits_no_point {ds : List Char} (h : IsDigits ds) : '.' ∉ ds :=
  fun hm => absurd (h.2 _ hm) (by decide)

theorem exponent_no_point {cs : List Char} (h : IsExponent cs) : '.' ∉ cs := by
  rcases h with rfl | ⟨mark, sign, ds, hm, hs, hd, rfl⟩
  · simp
  · have hmark : '.' ≠ mark := by rcases hm with rfl | rfl <;> decide
    have hsign : '.' ∉ sign := by rcases hs with rfl | rfl | rfl <;> decide
    simp [hmark, hsign, digits_no_point hd]

theorem append_point_inj {as bs cs ds : List Char} (hb : '.' ∉ bs) (hd : '.' ∉ ds)
    (h : as ++ '.' :: bs = cs ++ '.' :: ds) : as = cs := by
  rcases List.append_eq_append_iff.mp h with ⟨more, rfl, he⟩ | ⟨more, rfl, he⟩
  · cases more with
    | nil => exact (List.append_nil as).symm
    | cons c more =>
        obtain ⟨-, rfl⟩ := List.cons.inj he
        simp at hb
  · cases more with
    | nil => exact List.append_nil cs
    | cons c more =>
        obtain ⟨-, rfl⟩ := List.cons.inj he
        simp at hd

/-- A number that ends in a fraction of zero has no exponent. -/
theorem parts_of_zero {m : Numeral} {cs : List Char} (h : m.text = cs ++ ['.', '0']) :
    m.sign ++ m.whole = cs ∧ m.fraction = ['.', '0'] ∧ m.exponent = [] := by
  have hsign : '.' ∉ m.sign := by rcases m.isSign with hs | hs <;> simp [hs]
  have hwhole := digits_no_point m.isWhole.1
  have hexponent := exponent_no_point m.isExponent
  rcases m.isFraction with hf | ⟨ds, hd, hf⟩
  · have hpoint : '.' ∈ m.text := by simp [h]
    simp [Numeral.text, hf, hsign, hwhole, hexponent] at hpoint
  · rw [Numeral.text, hf, List.append_assoc, List.cons_append] at h
    obtain rfl := append_point_inj (by simp [digits_no_point hd, hexponent]) (by decide) h
    obtain ⟨-, hrest⟩ := List.cons.inj (List.append_cancel_left h)
    rcases List.append_eq_singleton_iff.mp hrest with ⟨rfl, -⟩ | ⟨rfl, he⟩
    · exact (hd.1 rfl).elim
    · exact ⟨rfl, hf, he⟩

/-- A number that ends in a fraction of zero is whole without the fraction. -/
theorem IsNumeral.without_zero {cs : List Char} (h : IsNumeral (cs ++ ['.', '0'])) :
    IsInteger cs := by
  obtain ⟨m, hm⟩ := h
  obtain ⟨rfl, -, -⟩ := parts_of_zero hm
  exact ⟨_, _, m.isSign, m.isWhole, rfl⟩

end SdlAssembly.Number
