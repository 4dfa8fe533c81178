import SdlAssembly.Proofs.Number.Numerals
import SdlAssembly.Proofs.Number.Rounding
import SdlAssembly.Schema.Literal

/-!
# Numbers that are read back

The text of a finite number is a decimal that is rounded to it. Seventeen digits are enough for
every number, since the grid of decimals with so many digits is finer than the numbers are apart.
-/

namespace SdlAssembly.Number

open Binary64 Grammar Lexer

variable {num den m digits digits' : Nat} {e power power' : Int}

/-! ## Places -/

theorem toDigits_bounds {n : Nat} (h : 0 < n) :
    (10 : ℚ) ^ ((Nat.toDigits 10 n).length - 1 : Int) ≤ n
      ∧ (n : ℚ) < 10 ^ ((Nat.toDigits 10 n).length : Int) := by
  generalize hl : (Nat.toDigits 10 n).length = length
  have hpos : 0 < length := hl ▸ List.length_pos_iff.mpr Nat.toDigits_ne_nil
  obtain ⟨k, rfl⟩ := Nat.exists_eq_succ_of_ne_zero hpos.ne'
  have hhigh : n < 10 ^ (k + 1) :=
    (Nat.length_toDigits_le_iff (by decide) (Nat.succ_pos k)).mp hl.le
  have hlow : 10 ^ k ≤ n := by
    rcases Nat.eq_zero_or_pos k with rfl | hk
    · exact h
    · by_contra hlt
      have hle := (Nat.length_toDigits_le_iff (b := 10) (by decide) hk).mpr (not_le.mp hlt)
      omega
  constructor
  · rw [Nat.cast_succ, add_sub_cancel_right]
    exact_mod_cast hlow
  · exact_mod_cast hhigh

/-- A value between powers of ten. -/
theorem pointPlace_bounds (hn : 0 < num) (hd : 0 < den) :
    (10 : ℚ) ^ (pointPlace num den - 1) ≤ num / den
      ∧ (num : ℚ) / den < 10 ^ pointPlace num den := by
  obtain ⟨hnl, hnh⟩ := toDigits_bounds hn
  obtain ⟨hdl, hdh⟩ := toDigits_bounds hd
  have hdq : (0 : ℚ) < den := by exact_mod_cast hd
  unfold pointPlace
  dsimp only
  generalize hg : ((Nat.toDigits 10 num).length : Int) - (Nat.toDigits 10 den).length = guess
  obtain ⟨-, hsd⟩ := scale_pos (b := 10) (p := -guess) (by decide) hn hd
  have hvalue := scale_value (b := 10) (by decide) num den (-guess)
  have htest : (scale 10 (-guess) num den).1 < (scale 10 (-guess) num den).2 ↔
      (num : ℚ) / den < 10 ^ guess := by
    have hsd : (0 : ℚ) < (scale 10 (-guess) num den).2 := by exact_mod_cast hsd
    have hpow : (0 : ℚ) < 10 ^ guess := by positivity
    rw [← Nat.cast_lt (α := ℚ), ← div_lt_one hsd, hvalue, Nat.cast_ofNat, zpow_neg,
      ← div_eq_mul_inv, div_lt_one hpow]
  have hlow : (10 : ℚ) ^ (guess - 1) ≤ num / den := by
    rw [le_div_iff₀ hdq]
    calc (10 : ℚ) ^ (guess - 1) * den ≤ 10 ^ (guess - 1) * 10 ^ ((Nat.toDigits 10 den).length : Int) := by
          gcongr
      _ = 10 ^ ((Nat.toDigits 10 num).length - 1 : Int) := by
          rw [← zpow_add₀ (by norm_num)]; congr 1; omega
      _ ≤ num := hnl
  have hhigh : (num : ℚ) / den < 10 ^ (guess + 1) := by
    rw [div_lt_iff₀ hdq]
    calc (num : ℚ) < 10 ^ ((Nat.toDigits 10 num).length : Int) := hnh
      _ = 10 ^ (guess + 1) * 10 ^ ((Nat.toDigits 10 den).length - 1 : Int) := by
          rw [← zpow_add₀ (by norm_num)]; congr 1; omega
      _ ≤ 10 ^ (guess + 1) * den := by gcongr
  by_cases h : (num : ℚ) / den < 10 ^ guess
  · rw [if_pos (htest.mpr h)]
    exact ⟨hlow, h⟩
  · rw [if_neg fun hn => h (htest.mp hn), add_sub_cancel_right]
    exact ⟨not_lt.mp h, hhigh⟩

/-! ## Shortest decimals -/

/-- A decimal that is rounded to a number. -/
structure RoundsTo (digits : Nat) (power : Int) (m : Nat) (e : Int) : Prop where
  pos : 0 < digits
  nearest : nearest (scale 10 power digits 1).1 (scale 10 power digits 1).2 = some (m, e)

theorem decimal_value (digits : Nat) (power : Int) :
    ((scale 10 power digits 1).1 : ℚ) / (scale 10 power digits 1).2 = digits * 10 ^ power := by
  rw [scale_value (by decide), Nat.cast_one, div_one, Nat.cast_ofNat]

theorem readsAs_iff : readsAs m e digits power = true ↔ RoundsTo digits power m e := by
  have hz : (scale 10 power digits 1).1 ≠ 0 ↔ 0 < digits := by
    constructor
    · intro h
      rcases Nat.eq_zero_or_pos digits with rfl | hd
      · unfold scale at h
        split at h <;> simp at h
      · exact hd
    · intro h
      exact (scale_pos (by decide) h Nat.one_pos).1.ne'
  unfold readsAs
  dsimp only
  rw [Bool.and_eq_true, bne_iff_ne, hz, beq_iff_eq]
  exact ⟨fun ⟨h, h'⟩ => ⟨h, h'⟩, fun ⟨h, h'⟩ => ⟨h, h'⟩⟩

/-- Decimals of one value are rounded to the same number. -/
theorem RoundsTo.congr (h : RoundsTo digits power m e) (hd : 0 < digits')
    (hv : (digits : ℚ) * 10 ^ power = digits' * 10 ^ power') : RoundsTo digits' power' m e := by
  refine ⟨hd, ?_⟩
  obtain ⟨hn, hp⟩ := scale_pos (b := 10) (p := power) (by decide) h.pos Nat.one_pos
  obtain ⟨hn', hp'⟩ := scale_pos (b := 10) (p := power') (by decide) hd Nat.one_pos
  rw [← h.nearest]
  refine nearest_congr hn' hp' hn hp ?_
  rw [decimal_value, decimal_value, hv]

/-- On a grid of seventeen digits the nearest decimal is rounded to the number. -/
theorem onGrid?_isSome (h : IsNormal m e) (hm : 0 < m)
    (hp : (10 : ℚ) ^ (power + 16) ≤ m * 2 ^ e) : (onGrid? m e power).isSome := by
  obtain ⟨hn, hd⟩ := scale_pos (b := 2) (p := e) (by decide) hm Nat.one_pos
  have hvalue : ((scale 2 e m 1).1 : ℚ) / (scale 2 e m 1).2 = m * 2 ^ e := by
    rw [scale_value (by decide), Nat.cast_one, div_one, Nat.cast_ofNat]
  generalize hs : scale 2 e m 1 = fraction at hn hd hvalue
  obtain ⟨n, d⟩ := fraction
  obtain ⟨hn', hd'⟩ := scale_pos (b := 10) (p := -power) (by decide) hn hd
  have hvalue' := scale_value (b := 10) (by decide) n d (-power)
  rw [hvalue] at hvalue'
  unfold onGrid?
  rw [hs]
  dsimp only
  rw [List.find?_isSome]
  refine ⟨_, List.mem_cons_self, readsAs_iff.mpr ?_⟩
  obtain ⟨hlow, hhigh⟩ := roundDiv_bounds (scale 10 (-power) n d).1 hd'
  generalize roundDiv (scale 10 (-power) n d).1 (scale 10 (-power) n d).2 = closer at *
  rw [hvalue'] at hlow hhigh
  have hpow : (0 : ℚ) < 10 ^ power := by positivity
  have hscaled : (m : ℚ) * 2 ^ e * ((10 : Nat) : ℚ) ^ (-power) * 10 ^ power = m * 2 ^ e := by
    rw [Nat.cast_ofNat, mul_assoc, ← zpow_add₀ (by norm_num), neg_add_cancel, zpow_zero, mul_one]
  generalize (m : ℚ) * 2 ^ e * ((10 : Nat) : ℚ) ^ (-power) = v at *
  rw [zpow_add₀ (by norm_num)] at hp
  norm_num at hp
  have hvge : (10000000000000000 : ℚ) ≤ v := by
    rw [← hscaled, mul_comm] at hp
    exact le_of_mul_le_mul_right hp hpow
  have hclose : 0 < closer := by
    have hlt : (0 : ℚ) < closer := by linarith
    exact_mod_cast hlt
  refine ⟨hclose, ?_⟩
  obtain ⟨hsn, hsd⟩ := scale_pos (b := 10) (p := power) (by decide) hclose Nat.one_pos
  refine nearest_of_close h hm hsn hsd ?_ ?_ <;> rw [decimal_value, ← hscaled]
  · nlinarith
  · nlinarith

/-- Digits without the zeros at their end. -/
def withoutZeros (ds : List Char) : List Char := (ds.reverse.dropWhile (· == '0')).reverse

/-- The shortest decimal of a number is rounded to it. -/
theorem shortestDigits_spec (h : IsNormal m e) (hm : 0 < m) : ∃ digits power,
    RoundsTo digits power m e ∧ shortestDigits m e =
      (withoutZeros (Nat.toDigits 10 digits), power + (Nat.toDigits 10 digits).length) := by
  obtain ⟨hn, hd⟩ := scale_pos (b := 2) (p := e) (by decide) hm Nat.one_pos
  have hvalue : ((scale 2 e m 1).1 : ℚ) / (scale 2 e m 1).2 = m * 2 ^ e := by
    rw [scale_value (by decide), Nat.cast_one, div_one, Nat.cast_ofNat]
  obtain ⟨hlow, -⟩ := pointPlace_bounds hn hd
  rw [hvalue] at hlow
  unfold shortestDigits
  dsimp only
  generalize pointPlace (scale 2 e m 1).1 (scale 2 e m 1).2 = place at hlow
  have hlast : (onGrid? m e (place - (16 + 1 : Nat))).isSome := by
    refine onGrid?_isSome h hm ?_
    rwa [show place - ((16 + 1 : Nat) : Int) + 16 = place - 1 by omega]
  have hfound : ((List.range mostDigits).findSome? fun i =>
      (onGrid? m e (place - (i + 1 : Nat))).map fun digits =>
        (digits, place - ((i + 1 : Nat) : Int))).isSome := by
    rw [List.findSome?_isSome_iff]
    exact ⟨16, by decide, by rw [Option.isSome_map]; exact hlast⟩
  obtain ⟨⟨digits, power⟩, hf⟩ := Option.isSome_iff_exists.mp hfound
  rw [hf]
  obtain ⟨i, -, hi⟩ := List.exists_of_findSome?_eq_some hf
  obtain ⟨found, hg, he⟩ := Option.map_eq_some_iff.mp hi
  cases he
  have hr := List.find?_some hg
  exact ⟨_, _, readsAs_iff.mp hr, rfl⟩

/-! ## Reading decimals -/

/-- Values that are rounded to a number other than zero. -/
theorem nearest_bounds (hn : 0 < num) (hd : 0 < den) (h : nearest num den = some (m, e))
    (hm : 0 < m) : (2 : ℚ) ^ (-1075 : Int) ≤ num / den ∧ (num : ℚ) / den < 2 ^ (1024 : Int) := by
  obtain ⟨hleast, hbelow, hfull⟩ := exponentOf_hasExponent hn hd
  generalize he : exponentOf num den = start at *
  obtain ⟨-, hsd⟩ := scale_pos (b := 2) (p := -start) (by decide) hn hd
  obtain ⟨-, hhigh⟩ := roundDiv_bounds (scale 2 (-start) num den).1 hsd
  have hvalue := scaled_value num den start
  generalize hr : roundDiv (scale 2 (-start) num den).1 (scale 2 (-start) num den).2 = r at *
  generalize ((scale 2 (-start) num den).1 : ℚ) / (scale 2 (-start) num den).2 = v at *
  rw [nearest_eq he hr] at h
  have hround : 0 < r ∧ start ≤ greatestExponent := by
    split_ifs at h with htop hover hover
    · exact ⟨by rw [htop]; decide, by omega⟩
    · cases h
      exact ⟨hm, by omega⟩
  have hone : (1 : ℚ) ≤ r := by exact_mod_cast hround.1
  constructor
  · have hpow : (2 : ℚ) ^ leastExponent ≤ 2 ^ start := zpow_le_zpow_right₀ (by norm_num) hleast
    have hsplit : (2 : ℚ) ^ leastExponent = 2 * 2 ^ (-1075 : Int) := by
      rw [← zpow_one_add₀ (by norm_num)]
      rfl
    have hv : (1 / 2 : ℚ) ≤ v := by linarith
    have hpos : (0 : ℚ) < 2 ^ start := by positivity
    rw [← hvalue]
    nlinarith
  · exact hbelow.trans_le (zpow_le_zpow_right₀ (by norm_num) (by
      have hg := hround.2
      unfold greatestExponent at hg
      omega))

theorem two_zpow_le : (2 : ℚ) ^ (1200 : Int) ≤ 10 ^ (400 : Int) := by
  calc (2 : ℚ) ^ (1200 : Int) = (2 ^ (3 : Int)) ^ (400 : Int) := by rw [← zpow_mul]; rfl
    _ ≤ 10 ^ (400 : Int) := zpow_le_zpow_left₀ (by norm_num) (by norm_num) (by norm_num)

/-- A decimal is read as the number that it is rounded to. -/
theorem RoundsTo.ofDecimal (h : RoundsTo digits power m e) (hm : 0 < m) (negative : Bool) :
    Binary64.ofDecimal negative digits power = .finite negative m e := by
  obtain ⟨hn, hd⟩ := scale_pos (b := 10) (p := power) (by decide) h.pos Nat.one_pos
  obtain ⟨hleast, hgreatest⟩ := nearest_bounds hn hd h.nearest hm
  rw [decimal_value] at hleast hgreatest
  obtain ⟨hlow, hhigh⟩ := toDigits_bounds h.pos
  generalize hl : ((Nat.toDigits 10 digits).length : Int) = length at hlow hhigh
  have hpow : (0 : ℚ) < 10 ^ power := by positivity
  have hsmall : -decimalBound ≤ length + power := by
    by_contra hlt
    have hlt : (digits : ℚ) * 10 ^ power < 2 ^ (-1075 : Int) := by
      calc (digits : ℚ) * 10 ^ power < 10 ^ length * 10 ^ power := by gcongr
        _ = 10 ^ (length + power) := (zpow_add₀ (by norm_num) _ _).symm
        _ ≤ 10 ^ (-400 : Int) := zpow_le_zpow_right₀ (by norm_num) (by
            unfold decimalBound at hlt; omega)
        _ ≤ 2 ^ (-1200 : Int) := by
            rw [zpow_neg, zpow_neg]
            exact inv_anti₀ (by positivity) two_zpow_le
        _ ≤ 2 ^ (-1075 : Int) := zpow_le_zpow_right₀ (by norm_num) (by norm_num)
    exact absurd hleast (not_le.mpr hlt)
  have hgreat : length + power ≤ decimalBound := by
    by_contra hlt
    have hlt : (2 : ℚ) ^ (1024 : Int) ≤ digits * 10 ^ power := by
      calc (2 : ℚ) ^ (1024 : Int) ≤ 2 ^ (1200 : Int) :=
            zpow_le_zpow_right₀ (by norm_num) (by norm_num)
        _ ≤ 10 ^ (400 : Int) := two_zpow_le
        _ ≤ 10 ^ (length - 1 + power) := zpow_le_zpow_right₀ (by norm_num) (by
            unfold decimalBound at hlt; omega)
        _ = 10 ^ (length - 1) * 10 ^ power := zpow_add₀ (by norm_num) _ _
        _ ≤ digits * 10 ^ power := by gcongr
    exact absurd hgreatest (not_lt.mpr hlt)
  rw [← hl] at hsmall hgreat
  rw [Binary64.ofDecimal, if_neg (by simpa [h.pos.ne'] using hsmall), if_neg (by omega)]
  dsimp only
  rw [h.nearest]
  rfl

/-- What is read of a decimal is in its normal form. -/
theorem ofDecimal_isNormal {negative negative' : Bool}
    (h : Binary64.ofDecimal negative digits power = .finite negative' m e) : IsNormal m e := by
  unfold Binary64.ofDecimal at h
  dsimp only at h
  split at h
  · cases h
    exact ⟨by decide, fun hlt => (lt_irrefl _ hlt).elim, le_refl _, by decide⟩
  · rename_i hz
    split at h
    · cases h
    · have hd : 0 < digits := Nat.pos_of_ne_zero fun h0 => hz (by simp [h0])
      obtain ⟨hn, hp⟩ := scale_pos (b := 10) (p := power) (by decide) hd Nat.one_pos
      generalize hr : nearest _ _ = rounded at h
      cases rounded with
      | none => cases h
      | some pair =>
          cases h
          exact nearest_isNormal hn hp hr

/-! ## Texts -/

/-- A written number is read as a number. -/
inductive Means (n : Numeral) : Binary64 → Prop
  | zero (digits : digitsOf n = 0) : Means n (.finite (n.sign == ['-']) 0 leastExponent)
  | rounded {m : Nat} {e : Int} (pos : 0 < m) (rounds : RoundsTo (digitsOf n) (powerOf n) m e) :
    Means n (.finite (n.sign == ['-']) m e)

section Texts

variable {n : Numeral} {x : Binary64}

theorem Means.readFloat (h : Means n x) : Schemas.readFloat (String.ofList n.text) = x := by
  rw [readFloat_numeral]
  cases h with
  | zero hd => rw [hd, Binary64.ofDecimal, if_pos (by simp)]
  | rounded hm hr => exact hr.ofDecimal hm _

theorem withoutZeros_append (ds : List Char) :
    ∃ zeros, ds = withoutZeros ds ++ List.replicate zeros '0' := by
  have hsplit := List.takeWhile_append_dropWhile (p := (· == '0')) (l := ds.reverse)
  have hzeros : (ds.reverse.takeWhile (· == '0')).reverse =
      List.replicate (ds.reverse.takeWhile (· == '0')).reverse.length '0' := by
    refine List.eq_replicate_of_mem fun c hc => ?_
    have hall := List.all_eq_true.mp List.all_takeWhile c (List.mem_reverse.mp hc)
    simpa using hall
  refine ⟨(ds.reverse.takeWhile (· == '0')).reverse.length, ?_⟩
  rw [← hzeros, withoutZeros, ← List.reverse_append, hsplit, List.reverse_reverse]

/-- The text of a number is read as the number. -/
theorem exists_means (h : IsNormal m e) (negative : Bool) : ∃ n : Numeral,
    n.text = (Binary64.finite negative m e).text.toList
      ∧ n.whole.length ≤ positionalBelow.toNat ∧ Means n (.finite negative m e) := by
  have hs := isSign_negative negative
  have hsign : ((if negative then "-" else "").toList == ['-']) = negative := by
    cases negative <;> rfl
  rw [Binary64.text, String.toList_append]
  by_cases hm : m = 0
  · subst hm
    obtain rfl : e = leastExponent :=
      le_antisymm (not_lt.mp fun hlt => absurd (h.full hlt) (by decide)) h.least
    refine ⟨⟨_, ['0'], ['.', '0'], [], hs, isWhole_digit (by decide),
      .inr ⟨['0'], (isWhole_digit (by decide)).1, rfl⟩, .inl rfl⟩, by simp [Numeral.text],
      (show 1 ≤ 16 by decide), ?_⟩
    have hz := Means.zero (n := ⟨_, ['0'], ['.', '0'], [], hs, isWhole_digit (by decide),
      .inr ⟨['0'], (isWhole_digit (by decide)).1, rfl⟩, .inl rfl⟩) rfl
    rwa [hsign] at hz
  · have hpos : 0 < m := Nat.pos_of_ne_zero hm
    obtain ⟨digits, power, hr, hshortest⟩ := shortestDigits_spec h hpos
    have hleading := isLeading_shortestDigits hpos e
    rw [if_neg hm]
    dsimp only
    rw [hshortest] at hleading ⊢
    obtain ⟨n, ht, hsigned, hshort, zeros, hdigits, hpower⟩ :=
      exists_numeral_placePoint hs hleading (power + (Nat.toDigits 10 digits).length)
    obtain ⟨more, hmore⟩ := withoutZeros_append (Nat.toDigits 10 digits)
    have hlength := congrArg List.length hmore
    rw [List.length_append, List.length_replicate] at hlength
    have hvalue : digits = Nat.ofDigitChars 10 (withoutZeros (Nat.toDigits 10 digits)) 0 * 10 ^ more := by
      conv_lhs => rw [← Nat.ofDigitChars_ten_toDigits (n := digits), hmore, Nat.ofDigitChars_append,
        Nat.ofDigitChars_replicate_zero, Nat.mul_comm]
    dsimp only at hdigits hpower
    generalize Nat.ofDigitChars 10 (withoutZeros (Nat.toDigits 10 digits)) 0 = kept at *
    have hkept : 0 < kept := by
      refine Nat.pos_of_ne_zero fun h0 => hr.pos.ne' ?_
      rw [hvalue, h0, Nat.zero_mul]
    have hrounds : RoundsTo (digitsOf n) (powerOf n) m e := by
      refine hr.congr (hdigits ▸ Nat.mul_pos hkept (by positivity)) ?_
      rw [hdigits, hvalue, show powerOf n = more + power - zeros by omega]
      push_cast
      rw [zpow_sub₀ (by norm_num), zpow_add₀ (by norm_num), zpow_natCast, zpow_natCast]
      field_simp
    have hmeans := Means.rounded hpos hrounds
    rw [hsigned, hsign] at hmeans
    exact ⟨n, ht, hshort, hmeans⟩

/-- A number without its fraction of zero is read as the same number. -/
theorem Means.without_zero (h : Means n x) {cs : List Char} (ht : n.text = cs ++ ['.', '0']) :
    ∃ n' : Numeral, n'.text = cs ∧ n'.whole = n.whole ∧ n'.fraction = [] ∧ n'.exponent = []
      ∧ Means n' x := by
  obtain ⟨rfl, hf, he⟩ := parts_of_zero ht
  have hdigits : digitsOf n = 10 * Nat.ofDigitChars 10 n.whole 0 := by
    simp [digitsOf, hf, Nat.ofDigitChars_append, Nat.ofDigitChars_cons]
  have hpower : powerOf n = -1 := by simp [powerOf, hf, he, exponentPower]
  let n' := integer n.isSign n.isWhole
  have hdigits' : digitsOf n' = Nat.ofDigitChars 10 n.whole 0 := by simp [n', integer, digitsOf]
  have hpower' : powerOf n' = 0 := by simp [n', integer, powerOf, exponentPower]
  refine ⟨n', text_integer n.isSign n.isWhole, rfl, rfl, rfl, ?_⟩
  cases h with
  | zero hd => exact .zero (n := n') (by omega)
  | rounded hm hr =>
      have hpos := hr.pos
      refine .rounded (n := n') hm (hr.congr (by omega) ?_)
      rw [hdigits, hpower, hdigits', hpower']
      push_cast
      rw [zpow_neg_one]
      field_simp

end Texts

end SdlAssembly.Number
