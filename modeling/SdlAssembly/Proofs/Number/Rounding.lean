import SdlAssembly.Number.Binary64
import Mathlib.Algebra.Order.Field.Power
import Mathlib.Algebra.Order.Field.Rat
import Mathlib.Tactic.FieldSimp
import Mathlib.Tactic.Linarith
import Mathlib.Tactic.NormNum
import Mathlib.Tactic.Positivity
import Mathlib.Tactic.Ring

/-!
# Rounding to the nearest number

Rounding depends on the value of a fraction only, gives a mantissa and exponent in their normal
form, and gives back every number to which the fraction is close enough.
-/

namespace SdlAssembly.Number.Binary64

variable {b num den num' den' m k : Nat} {p e e' : Int} {q : ℚ}

/-! ## Fractions -/

theorem scale_pos (hb : 0 < b) (hn : 0 < num) (hd : 0 < den) :
    0 < (scale b p num den).1 ∧ 0 < (scale b p num den).2 := by
  unfold scale
  split
  · exact ⟨Nat.mul_pos hn (Nat.pow_pos hb), hd⟩
  · exact ⟨hn, Nat.mul_pos hd (Nat.pow_pos hb)⟩

theorem scale_value (hb : 0 < b) (num den : Nat) (p : Int) : ((scale b p num den).1 : ℚ) / (scale b p num den).2 =
    num / den * (b : ℚ) ^ p := by
  have hb : (b : ℚ) ≠ 0 := by positivity
  unfold scale
  split
  · rename_i hp
    obtain ⟨n, rfl⟩ := Int.eq_ofNat_of_zero_le hp
    simp only [Int.toNat_natCast, Nat.pow_eq, Nat.cast_mul, Nat.cast_pow, zpow_natCast]
    ring
  · rename_i hp
    obtain ⟨n, hn⟩ := Int.eq_ofNat_of_zero_le (show 0 ≤ -p by omega)
    obtain rfl : p = -(n : Int) := by omega
    simp only [neg_neg, Int.toNat_natCast, Nat.pow_eq, Nat.cast_mul, Nat.cast_pow, zpow_neg,
      zpow_natCast]
    rw [div_mul_eq_div_div, div_eq_mul_inv]

/-! ## Rounded quotients -/

theorem roundDiv_bounds (num : Nat) (hd : 0 < den) :
    (num : ℚ) / den - 1 / 2 ≤ roundDiv num den ∧ (roundDiv num den : ℚ) ≤ num / den + 1 / 2 := by
  have hdq : (0 : ℚ) < den := by exact_mod_cast hd
  have hsum : num = den * (num / den) + num % den := (Nat.div_add_mod num den).symm
  have hlt : num % den < den := Nat.mod_lt _ hd
  have hnear : 2 * num ≤ (2 * roundDiv num den + 1) * den
      ∧ 2 * roundDiv num den * den ≤ 2 * num + den := by
    unfold roundDiv
    dsimp only
    generalize num / den = quotient at *
    generalize num % den = rest at *
    subst hsum
    split_ifs <;> constructor <;> nlinarith
  have hnear : (2 * num : ℚ) ≤ (2 * roundDiv num den + 1) * den
      ∧ (2 * roundDiv num den * den : ℚ) ≤ 2 * num + den := by exact_mod_cast hnear
  constructor
  · rw [sub_le_iff_le_add, div_le_iff₀ hdq]
    linarith
  · rw [← sub_le_iff_le_add, le_div_iff₀ hdq]
    linarith

/-- A quotient is rounded to a whole number that is less than a half away. -/
theorem roundDiv_eq (hd : 0 < den) (hl : (k : ℚ) - 1 / 2 < num / den)
    (hr : (num : ℚ) / den < k + 1 / 2) : roundDiv num den = k := by
  obtain ⟨hlow, hhigh⟩ := roundDiv_bounds num hd
  have h1 : (roundDiv num den : ℚ) < k + 1 := by linarith
  have h2 : (k : ℚ) < roundDiv num den + 1 := by linarith
  have h1 : roundDiv num den < k + 1 := by exact_mod_cast h1
  have h2 : k < roundDiv num den + 1 := by exact_mod_cast h2
  omega

theorem roundDiv_scaled (hk : 0 < k) : roundDiv (k * num) (k * den) = roundDiv num den := by
  have hmul (a b : Nat) : k * a < k * b ↔ a < b := Nat.mul_lt_mul_left hk
  have hleft (a b : Nat) : 2 * (k * a) < k * b ↔ 2 * a < b := by rw [← hmul (2 * a) b]; ring_nf
  have hright (a b : Nat) : k * b < 2 * (k * a) ↔ b < 2 * a := by rw [← hmul b (2 * a)]; ring_nf
  unfold roundDiv
  simp only [Nat.mul_div_mul_left _ _ hk, Nat.mul_mod_mul_left, gt_iff_lt, hleft, hright]

theorem roundDiv_congr (hd : 0 < den) (hd' : 0 < den') (h : (num : ℚ) / den = num' / den') :
    roundDiv num den = roundDiv num' den' := by
  have hdq : (den : ℚ) ≠ 0 := by exact_mod_cast hd.ne'
  have hdq' : (den' : ℚ) ≠ 0 := by exact_mod_cast hd'.ne'
  have hcross : den' * num = den * num' := by
    rw [div_eq_div_iff hdq hdq'] at h
    have h : den' * num = den * num' := by exact_mod_cast (by linarith : (den' : ℚ) * num = den * num')
    exact h
  rw [← roundDiv_scaled hd', hcross, Nat.mul_comm den' den, roundDiv_scaled hd]

/-! ## Exponents -/

/-- The exponent at which a value has a mantissa of 53 digits, or the least one. -/
structure HasExponent (q : ℚ) (e : Int) : Prop where
  least : leastExponent ≤ e
  below : q < 2 ^ (e + 53)
  full : leastExponent < e → 2 ^ (e + 52) ≤ q

theorem HasExponent.le (h : HasExponent q e) (h' : HasExponent q e') : e' ≤ e := by
  by_contra hlt
  have hfull := h'.full (by have := h.least; omega)
  have hpow : (2 : ℚ) ^ (e' + 52) < 2 ^ (e + 53) := hfull.trans_lt h.below
  have := (zpow_lt_zpow_iff_right₀ (by norm_num : (1 : ℚ) < 2)).mp hpow
  omega

theorem HasExponent.unique (h : HasExponent q e) (h' : HasExponent q e') : e = e' :=
  Int.le_antisymm (h'.le h) (h.le h')

theorem log2_bounds (hn : 0 < num) :
    (2 : ℚ) ^ (num.log2 : Int) ≤ num ∧ (num : ℚ) < 2 ^ ((num.log2 : Int) + 1) := by
  have hlow : 2 ^ num.log2 ≤ num := Nat.log2_self_le hn.ne'
  have hhigh : num < 2 ^ (num.log2 + 1) := Nat.lt_log2_self
  constructor
  · exact_mod_cast hlow
  · exact_mod_cast hhigh

theorem exponentOf_hasExponent (hn : 0 < num) (hd : 0 < den) :
    HasExponent ((num : ℚ) / den) (exponentOf num den) := by
  obtain ⟨hnl, hnh⟩ := log2_bounds hn
  obtain ⟨hdl, hdh⟩ := log2_bounds hd
  have hdq : (0 : ℚ) < den := by exact_mod_cast hd
  generalize hg : (Nat.log2 num : Int) - Nat.log2 den - 52 = guess
  have hlow : (2 : ℚ) ^ (guess + 51) ≤ num / den := by
    rw [le_div_iff₀ hdq]
    calc (2 : ℚ) ^ (guess + 51) * den ≤ 2 ^ (guess + 51) * 2 ^ ((den.log2 : Int) + 1) := by gcongr
      _ = 2 ^ (num.log2 : Int) := by rw [← zpow_add₀ (by norm_num)]; congr 1; omega
      _ ≤ num := hnl
  have hhigh : (num : ℚ) / den < 2 ^ (guess + 53) := by
    rw [div_lt_iff₀ hdq]
    calc (num : ℚ) < 2 ^ ((num.log2 : Int) + 1) := hnh
      _ = 2 ^ (guess + 53) * 2 ^ (den.log2 : Int) := by
        rw [← zpow_add₀ (by norm_num)]; congr 1; omega
      _ ≤ 2 ^ (guess + 53) * den := by gcongr
  obtain ⟨-, hsd⟩ := scale_pos (b := 2) (p := -guess) (by decide) hn hd
  have hvalue := scale_value (b := 2) (by decide) num den (-guess)
  have htest : (scale 2 (-guess) num den).1 < (scale 2 (-guess) num den).2 * leastFull ↔
      (num : ℚ) / den < 2 ^ (guess + 52) := by
    have hsd : (0 : ℚ) < (scale 2 (-guess) num den).2 := by exact_mod_cast hsd
    have hfull : (leastFull : ℚ) = 2 ^ (52 : Int) := by norm_num [leastFull]
    have hpow : (0 : ℚ) < 2 ^ guess := by positivity
    rw [← Nat.cast_lt (α := ℚ), Nat.cast_mul, mul_comm, ← div_lt_iff₀ hsd, hvalue, hfull,
      Nat.cast_ofNat, zpow_neg, ← div_eq_mul_inv, div_lt_iff₀ hpow, ← zpow_add₀ (by norm_num),
      add_comm guess 52]
  have hstart : ∃ start : Int, exponentOf num den = max leastExponent start
      ∧ (2 : ℚ) ^ (start + 52) ≤ num / den ∧ (num : ℚ) / den < 2 ^ (start + 53) := by
    by_cases h : (num : ℚ) / den < 2 ^ (guess + 52)
    · refine ⟨guess - 1, ?_, ?_, ?_⟩
      · unfold exponentOf
        simp only [hg]
        rw [if_pos (htest.mpr h)]
      · rwa [show guess - 1 + 52 = guess + 51 by ring]
      · rwa [show guess - 1 + 53 = guess + 52 by ring]
    · refine ⟨guess, ?_, not_lt.mp h, hhigh⟩
      unfold exponentOf
      simp only [hg]
      rw [if_neg fun hn => h (htest.mp hn)]
  obtain ⟨start, he, hl, hr⟩ := hstart
  rw [he]
  refine ⟨le_max_left _ _, hr.trans_le ?_, fun hlt => ?_⟩
  · exact zpow_le_zpow_right₀ (by norm_num) (by have := le_max_right leastExponent start; omega)
  · rw [max_eq_right_of_lt ((lt_max_iff.mp hlt).resolve_left (lt_irrefl _))]
    exact hl

theorem exponentOf_eq (hn : 0 < num) (hd : 0 < den) (h : HasExponent ((num : ℚ) / den) e) :
    exponentOf num den = e :=
  (exponentOf_hasExponent hn hd).unique h

/-! ## Normal forms -/

/-- The mantissa and exponent of a finite number. -/
structure IsNormal (m : Nat) (e : Int) : Prop where
  mantissa : m < 2 * leastFull
  full : leastExponent < e → leastFull ≤ m
  least : leastExponent ≤ e
  greatest : e ≤ greatestExponent

theorem leastFull_cast : (leastFull : ℚ) = 2 ^ 52 := by norm_num [leastFull]

/-- The result of rounding by the rounded mantissa. -/
theorem nearest_eq (he : exponentOf num den = e) (hm : roundDiv (scale 2 (-e) num den).1
    (scale 2 (-e) num den).2 = m) : nearest num den =
      if m = 2 * leastFull then if e + 1 > greatestExponent then none else some (leastFull, e + 1)
      else if e > greatestExponent then none else some (m, e) := by
  rw [nearest, he, roundAt]
  simp only [hm]
  by_cases h : m = 2 * leastFull
  · rw [if_pos h, if_pos h]
  · rw [if_neg h, if_neg h]

theorem scaled_value (num den : Nat) (e : Int) :
    ((scale 2 (-e) num den).1 : ℚ) / (scale 2 (-e) num den).2 * 2 ^ e = num / den := by
  rw [scale_value (by decide), Nat.cast_ofNat, mul_assoc, ← zpow_add₀ (by norm_num),
    neg_add_cancel, zpow_zero, mul_one]

/-- The power of an exponent, as a multiple of another. -/
theorem two_zpow_add (e n : Int) : (2 : ℚ) ^ (e + n) = 2 ^ n * 2 ^ e := by
  rw [zpow_add₀ (by norm_num), mul_comm]

theorem nearest_isNormal (hn : 0 < num) (hd : 0 < den) (h : nearest num den = some (m, e)) :
    IsNormal m e := by
  obtain ⟨hleast, hbelow, hfull⟩ := exponentOf_hasExponent hn hd
  generalize he : exponentOf num den = start at *
  obtain ⟨-, hsd⟩ := scale_pos (b := 2) (p := -start) (by decide) hn hd
  obtain ⟨hlow, hhigh⟩ := roundDiv_bounds (scale 2 (-start) num den).1 hsd
  have hvalue := scaled_value num den start
  generalize hr : roundDiv (scale 2 (-start) num den).1 (scale 2 (-start) num den).2 = r at *
  generalize ((scale 2 (-start) num den).1 : ℚ) / (scale 2 (-start) num den).2 = v at *
  have hpow : (0 : ℚ) < 2 ^ start := by positivity
  have hv : v < 2 * leastFull := by
    rw [← hvalue, two_zpow_add] at hbelow
    rw [leastFull_cast]
    exact (lt_of_mul_lt_mul_right hbelow hpow.le).trans_eq (by norm_num)
  have hrle : r ≤ 2 * leastFull := by
    have hlt : (r : ℚ) < (2 * leastFull + 1 : Nat) := by push_cast; linarith
    have hlt : r < 2 * leastFull + 1 := by exact_mod_cast hlt
    omega
  have hrfull : leastExponent < start → leastFull ≤ r := by
    intro hlt
    have hge := hfull hlt
    rw [← hvalue, two_zpow_add] at hge
    have hge : (leastFull : ℚ) ≤ v := by
      rw [leastFull_cast]
      exact le_of_eq_of_le (by norm_num) (le_of_mul_le_mul_right hge hpow)
    have hlt : (leastFull : ℚ) < (r + 1 : Nat) := by push_cast; linarith
    have hlt : leastFull < r + 1 := by exact_mod_cast hlt
    omega
  rw [nearest_eq he hr] at h
  split_ifs at h with htop hover hover
  · cases h
    exact ⟨by decide, fun _ => le_refl _, by omega, by omega⟩
  · cases h
    exact ⟨by omega, hrfull, hleast, by omega⟩

/-- Rounding depends on the value of a fraction only. -/
theorem nearest_congr (hn : 0 < num) (hd : 0 < den) (hn' : 0 < num') (hd' : 0 < den')
    (h : (num : ℚ) / den = num' / den') : nearest num den = nearest num' den' := by
  have he : exponentOf num den = exponentOf num' den' :=
    exponentOf_eq hn hd (h ▸ exponentOf_hasExponent hn' hd')
  generalize hs : exponentOf num' den' = start at he
  have hsd := (scale_pos (b := 2) (p := -start) (by decide) hn hd).2
  have hsd' := (scale_pos (b := 2) (p := -start) (by decide) hn' hd').2
  rw [nearest_eq he rfl, nearest_eq hs rfl, roundDiv_congr hsd hsd' ?_]
  rw [scale_value (by decide), scale_value (by decide), h]

/-! ## Close fractions -/

/-- The mantissa of a fraction at an exponent, if it is less than a half away. -/
theorem mantissa_eq (hn : 0 < num) (hd : 0 < den) (hl : ((m : ℚ) - 1 / 2) * 2 ^ e < num / den)
    (hr : (num : ℚ) / den < (m + 1 / 2) * 2 ^ e) :
    roundDiv (scale 2 (-e) num den).1 (scale 2 (-e) num den).2 = m := by
  have hpow : (0 : ℚ) < 2 ^ e := by positivity
  have hsd := (scale_pos (b := 2) (p := -e) (by decide) hn hd).2
  rw [← scaled_value num den e] at hl hr
  exact roundDiv_eq hsd (lt_of_mul_lt_mul_right hl hpow.le) (lt_of_mul_lt_mul_right hr hpow.le)

theorem IsNormal.mantissa_le (h : IsNormal m e) : (m : ℚ) ≤ 2 ^ 53 - 1 := by
  have hle : m + 1 ≤ 2 * leastFull := h.mantissa
  have hle : ((m + 1 : Nat) : ℚ) ≤ (2 * leastFull : Nat) := by exact_mod_cast hle
  push_cast [leastFull_cast] at hle
  linarith

/-- A fraction close to a number is rounded to it where they have the same exponent. -/
theorem nearest_of_above (h : IsNormal m e) (hm : 0 < m) (hn : 0 < num) (hd : 0 < den)
    (hfull : leastExponent < e → (2 : ℚ) ^ (e + 52) ≤ num / den)
    (hl : (m : ℚ) * 2 ^ e - num / den ≤ m * 2 ^ e / (2 * 10 ^ 16))
    (hr : (num : ℚ) / den - m * 2 ^ e ≤ m * 2 ^ e / (2 * 10 ^ 16)) :
    nearest num den = some (m, e) := by
  have hpow : (0 : ℚ) < 2 ^ e := by positivity
  have hmle := h.mantissa_le
  have hmge : (1 : ℚ) ≤ m := by exact_mod_cast hm
  have he : exponentOf num den = e := by
    refine exponentOf_eq hn hd ⟨h.least, ?_, hfull⟩
    rw [two_zpow_add]
    norm_num
    nlinarith
  have hround : roundDiv (scale 2 (-e) num den).1 (scale 2 (-e) num den).2 = m :=
    mantissa_eq hn hd (by nlinarith) (by nlinarith)
  rw [nearest_eq he hround, if_neg h.mantissa.ne, if_neg h.greatest.not_gt]

/-- A fraction just below the least number of an exponent is rounded up to it. -/
theorem nearest_of_below (h : IsNormal leastFull e) (hn : 0 < num) (hd : 0 < den)
    (hleast : leastExponent < e) (hlt : (num : ℚ) / den < 2 ^ (e + 52))
    (hl : (leastFull : ℚ) * 2 ^ e - num / den ≤ leastFull * 2 ^ e / (2 * 10 ^ 16)) :
    nearest num den = some (leastFull, e) := by
  have hpow : (0 : ℚ) < 2 ^ (e - 1) := by positivity
  have hhalf : (2 : ℚ) ^ e = 2 * 2 ^ (e - 1) := by
    have hsplit := two_zpow_add (e - 1) 1
    rwa [sub_add_cancel, zpow_one] at hsplit
  rw [leastFull_cast, hhalf] at hl
  have hlt : (num : ℚ) / den < 2 ^ 53 * 2 ^ (e - 1) := by
    rw [two_zpow_add, hhalf] at hlt
    norm_num at hlt ⊢
    linarith
  have he : exponentOf num den = e - 1 := by
    refine exponentOf_eq hn hd ⟨by omega, ?_, fun _ => ?_⟩
    · rw [two_zpow_add]
      exact_mod_cast hlt
    · rw [two_zpow_add]
      norm_num
      linarith
  have hround : roundDiv (scale 2 (-(e - 1)) num den).1 (scale 2 (-(e - 1)) num den).2 =
      2 * leastFull := by
    refine mantissa_eq hn hd ?_ ?_ <;> push_cast [leastFull_cast] <;> linarith
  have hgreatest := h.greatest
  rw [nearest_eq he hround, if_pos rfl, if_neg (by omega), sub_add_cancel]

/-- A fraction is rounded to a number from which it differs by less than one part in two times
`10 ^ 16`. -/
theorem nearest_of_close (h : IsNormal m e) (hm : 0 < m) (hn : 0 < num) (hd : 0 < den)
    (hl : (m : ℚ) * 2 ^ e - num / den ≤ m * 2 ^ e / (2 * 10 ^ 16))
    (hr : (num : ℚ) / den - m * 2 ^ e ≤ m * 2 ^ e / (2 * 10 ^ 16)) :
    nearest num den = some (m, e) := by
  by_cases hfull : leastExponent < e → (2 : ℚ) ^ (e + 52) ≤ num / den
  · exact nearest_of_above h hm hn hd hfull hl hr
  · obtain ⟨hleast, hlt⟩ := Classical.not_imp.mp hfull
    have hlt := not_le.mp hlt
    -- a greater mantissa would be too far above the fraction
    have hmfull := h.full hleast
    obtain rfl : m = leastFull := by
      by_contra hne
      have hge : leastFull + 1 ≤ m := by omega
      have hge : ((leastFull + 1 : Nat) : ℚ) ≤ m := by exact_mod_cast hge
      have hpow : (0 : ℚ) < 2 ^ e := by positivity
      have hmle := h.mantissa_le
      push_cast [leastFull_cast] at hge
      rw [two_zpow_add] at hlt
      norm_num at hlt
      nlinarith
    exact nearest_of_below h hn hd hleast hlt hl

end SdlAssembly.Number.Binary64
