import EventSim.Number.Binary64
import Mathlib.Algebra.Order.Field.Power
import Mathlib.Algebra.Order.Ring.Unbundled.Rat
import Mathlib.Data.Rat.Cast.Order
import Mathlib.Tactic.FieldSimp
import Mathlib.Tactic.Linarith
import Mathlib.Tactic.NormNum
import Mathlib.Tactic.Positivity
import Mathlib.Tactic.Ring

/-!
# Rounding

Every operation on binary64 numbers rounds an exact quotient once.  `Nearest` says what it is for a
natural number to be nearest to a rational one, and `RoundsTo` what it is for a binary64 number: the
quotient is brought to a significand of 53 bits by a power of two, and the significand is the
nearest natural number.  `roundsTo_ofRatio` shows that `ofRatio` does this.

What is needed about rounding follows from the specification: **a greater number is not rounded to a
smaller one** (`RoundsTo.le`), a natural number below `2 ^ 53` is kept (`RoundsTo.eq_natCast`), and
the error is small, as a part of the number (`RoundsTo.abs_sub_le`) and below a power of two
(`RoundsTo.abs_sub_le_of_lt`).
-/

namespace EventSim

/-! ### Natural numbers -/

/-- The natural number `q` is nearest to `x`, and even if another one is as near. -/
def Nearest (x : ℚ) (q : Nat) : Prop := |x - q| < 1 / 2 ∨ |x - q| = 1 / 2 ∧ Even q

section Nearest

variable {x x' : ℚ} {q q' : Nat}

theorem Nearest.abs_sub_le (h : Nearest x q) : |x - q| ≤ 1 / 2 := by
  rcases h with h | ⟨h, -⟩
  · exact h.le
  · exact h.le

theorem nearest_natCast (n : Nat) : Nearest n n := by
  left
  rw [sub_self, abs_zero]
  norm_num

/-- A greater number has no smaller nearest number. -/
theorem Nearest.le (h : Nearest x q) (h' : Nearest x' q') (hx : x ≤ x') : q ≤ q' := by
  by_contra hlt
  have hlt : q' + 1 ≤ q := by omega
  have hcast : (q' : ℚ) + 1 ≤ q := by exact_mod_cast hlt
  have hq := (abs_le.1 h.abs_sub_le).1
  have hq' := (abs_le.1 h'.abs_sub_le).2
  -- both are half way between the two numbers, which cannot both be even
  have htie : |x - q| = 1 / 2 := by
    rw [abs_eq (by norm_num)]
    right
    linarith
  have htie' : |x' - q'| = 1 / 2 := by
    rw [abs_eq (by norm_num)]
    left
    linarith
  have hnext : (q : ℚ) = q' + 1 := by linarith
  have hnext : q = q' + 1 := by exact_mod_cast hnext
  have heven : Even q := (h.resolve_left (by rw [htie]; exact lt_irrefl _)).2
  have heven' : Even q' := (h'.resolve_left (by rw [htie']; exact lt_irrefl _)).2
  rw [Nat.even_iff] at heven heven'
  omega

theorem Nearest.eq (h : Nearest x q) (h' : Nearest x q') : q = q' :=
  Nat.le_antisymm (h.le h' le_rfl) (h'.le h le_rfl)

theorem nearest_divNearest (num : Nat) {den : Nat} (hd : 0 < den) :
    Nearest ((num : ℚ) / den) (divNearest num den) := by
  have hden : (0 : ℚ) < den := by exact_mod_cast hd
  have hx : (num : ℚ) / den = (num / den : Nat) + ((num % den : Nat) : ℚ) / den := by
    have h : (den : ℚ) * (num / den : Nat) + (num % den : Nat) = num := by
      exact_mod_cast Nat.div_add_mod num den
    field_simp
    linarith
  unfold divNearest
  dsimp only
  generalize num / den = q at hx
  have hr : num % den < den := Nat.mod_lt _ hd
  generalize num % den = r at hx hr
  have hr0 : (0 : ℚ) ≤ (r : ℚ) / den := by positivity
  have hr1 : (r : ℚ) / den < 1 := by
    rw [div_lt_one hden]
    exact_mod_cast hr
  rw [hx]
  by_cases hlow : 2 * r < den
  · rw [if_pos hlow]
    have h : (r : ℚ) / den < 1 / 2 := by
      rw [div_lt_div_iff₀ hden (by norm_num)]
      have : (2 : ℚ) * r < den := by exact_mod_cast hlow
      linarith
    left
    rw [abs_lt]
    constructor <;> linarith
  rw [if_neg hlow]
  by_cases hhigh : den < 2 * r
  · rw [if_pos hhigh]
    have h : 1 / 2 < (r : ℚ) / den := by
      rw [div_lt_div_iff₀ (by norm_num) hden]
      have : (den : ℚ) < 2 * r := by exact_mod_cast hhigh
      linarith
    left
    push_cast
    rw [abs_lt]
    constructor <;> linarith
  · rw [if_neg hhigh]
    have h : (r : ℚ) / den = 1 / 2 := by
      rw [div_eq_div_iff hden.ne' (by norm_num)]
      have : (2 : ℚ) * r = den := by exact_mod_cast (by omega : 2 * r = den)
      linarith
    right
    rw [h]
    rcases Nat.mod_two_eq_zero_or_one q with hq | hq
    · rw [hq, Nat.add_zero]
      refine ⟨?_, Nat.even_iff.2 hq⟩
      rw [abs_eq (by norm_num)]
      left
      ring
    · rw [hq]
      refine ⟨?_, Nat.even_iff.2 (by omega)⟩
      push_cast
      rw [abs_eq (by norm_num)]
      right
      ring

end Nearest

/-! ### Binary64 numbers -/

namespace Binary64

/-- The number without its sign. -/
def magnitude (x : Binary64) : ℚ := x.significand * 2 ^ x.exponent

/-- The number is the nearest to `x` that has a significand of 53 bits, or of fewer ones at the
least exponent. -/
def RoundsTo (x : ℚ) (y : Binary64) : Prop :=
  ∃ (q : Nat) (e : Int), leastExponent ≤ e ∧ (e = leastExponent ∨ 2 ^ 52 ≤ x / 2 ^ e) ∧
    x / 2 ^ e < 2 ^ 53 ∧ Nearest (x / 2 ^ e) q ∧ y.magnitude = q * 2 ^ e

variable {x x' : ℚ} {y y' : Binary64} {num den : Nat}

/-- A power of two with an exponent that is not negative is a natural number. -/
theorem two_zpow_toNat {e : Int} (h : 0 ≤ e) : (2 : ℚ) ^ e = ((2 ^ e.toNat : Nat) : ℚ) := by
  conv_lhs => rw [← Int.toNat_of_nonneg h]
  rw [zpow_natCast]
  push_cast
  rfl

theorem two_zpow_neg_toNat {e : Int} (h : e ≤ 0) :
    (2 : ℚ) ^ e = ((2 ^ (-e).toNat : Nat) : ℚ)⁻¹ := by
  rw [← two_zpow_toNat (by omega), zpow_neg, inv_inv]

theorem ratio_pos (x : Binary64) : 0 < x.ratio.2 := by
  unfold ratio
  split
  · exact Nat.one_pos
  · exact Nat.pow_pos (by norm_num)

theorem ratio_eq (x : Binary64) : (x.ratio.1 : ℚ) / x.ratio.2 = x.magnitude := by
  unfold ratio magnitude
  split
  · rename_i h
    rw [two_zpow_toNat h, Nat.pow_eq]
    push_cast
    rw [div_one]
  · rename_i h
    rw [two_zpow_neg_toNat (by omega), div_eq_mul_inv]
    rfl

theorem scaled_pos (num : Nat) (hd : 0 < den) (e : Int) : 0 < (scaled num den e).2 := by
  unfold scaled
  split
  · exact Nat.mul_pos hd (Nat.pow_pos (by norm_num))
  · exact hd

theorem scaled_eq (num den : Nat) (e : Int) :
    ((scaled num den e).1 : ℚ) / (scaled num den e).2 = num / den / 2 ^ e := by
  unfold scaled
  split
  · rename_i h
    rw [two_zpow_toNat h, div_div, Nat.pow_eq]
    push_cast
    rfl
  · rename_i h
    rw [two_zpow_neg_toNat (by omega), div_inv_eq_mul, div_mul_eq_mul_div, Nat.pow_eq]
    push_cast
    rfl

/-- The whole part of the scaled quotient has at most 53 bits if the quotient has. -/
theorem scaled_div_lt (hd : 0 < den) (e : Int) :
    (scaled num den e).1 / (scaled num den e).2 < Nat.pow 2 53 ↔
      (num : ℚ) / den / 2 ^ e < 2 ^ 53 := by
  have hpos := scaled_pos num hd e
  rw [← scaled_eq, Nat.div_lt_iff_lt_mul hpos, div_lt_iff₀ (by exact_mod_cast hpos)]
  constructor
  · intro h
    exact_mod_cast h
  · intro h
    exact_mod_cast h

theorem two_zpow_pos (e : Int) : (0 : ℚ) < 2 ^ e := zpow_pos (by norm_num) e

/-- One more in the exponent is half of the quotient. -/
theorem div_two_zpow_succ (x : ℚ) (e : Int) : x / 2 ^ (e + 1) = x / 2 ^ e / 2 := by
  rw [zpow_add_one₀ (by norm_num), div_div]

/-- The logarithms tell the exponent up to one. -/
theorem scaled_low (hn : 0 < num) (hd : 0 < den) :
    (2 : ℚ) ^ 52 ≤ num / den / 2 ^ ((Nat.log2 num : Int) - Nat.log2 den - 53) ∧
      (num : ℚ) / den / 2 ^ ((Nat.log2 num : Int) - Nat.log2 den - 53) < 2 ^ 54 := by
  have hnum := Nat.log2_self_le hn.ne'
  have hnum' := Nat.lt_log2_self (n := num)
  have hden := Nat.log2_self_le hd.ne'
  have hden' := Nat.lt_log2_self (n := den)
  generalize Nat.log2 num = a at *
  generalize Nat.log2 den = b at *
  have hnum : (2 : ℚ) ^ a ≤ num := by exact_mod_cast hnum
  have hnum' : (num : ℚ) < 2 ^ a * 2 := by exact_mod_cast hnum'
  have hden : (2 : ℚ) ^ b ≤ den := by exact_mod_cast hden
  have hden' : (den : ℚ) < 2 ^ b * 2 := by exact_mod_cast hden'
  have ha : (0 : ℚ) < 2 ^ a := by positivity
  have hb : (0 : ℚ) < 2 ^ b := by positivity
  have hpos : (0 : ℚ) < den := by exact_mod_cast hd
  have hpow : (2 : ℚ) ^ ((a : Int) - b - 53) = 2 ^ a / 2 ^ b / 2 ^ 53 := by
    rw [zpow_sub₀ (by norm_num), zpow_sub₀ (by norm_num), zpow_natCast, zpow_natCast]
    norm_num
  have hform : (num : ℚ) / den / (2 ^ a / 2 ^ b / 2 ^ 53) =
      num * 2 ^ b * 2 ^ 53 / (den * 2 ^ a) := by
    field_simp
  rw [hpow, hform, le_div_iff₀ (by positivity), div_lt_iff₀ (by positivity)]
  constructor
  · have h₁ := mul_le_mul hnum hden'.le hpos.le (by positivity)
    nlinarith
  · have h₁ := mul_lt_mul'' hnum' (lt_of_le_of_lt hden (lt_add_one _)) (by positivity) hb.le
    have h₂ := mul_le_mul hnum'.le hden hb.le (by positivity)
    nlinarith

theorem roundsTo_ofRatio (negative : Bool) (hn : 0 < num) (hd : 0 < den) :
    RoundsTo (num / den) (ofRatio negative num den) := by
  obtain ⟨hlow, hhigh⟩ := scaled_low hn hd
  unfold ofRatio
  rw [if_neg hn.ne']
  dsimp only
  generalize (Nat.log2 num : Int) - Nat.log2 den - 53 = low at hlow hhigh ⊢
  generalize hfit : (if (scaled num den low).1 / (scaled num den low).2 < Nat.pow 2 53 then low
    else low + 1) = fit
  have hbounds : (2 : ℚ) ^ 52 ≤ num / den / 2 ^ fit ∧ (num : ℚ) / den / 2 ^ fit < 2 ^ 53 := by
    rw [← hfit]
    split
    · rename_i h
      exact ⟨hlow, (scaled_div_lt hd low).1 h⟩
    · rename_i h
      rw [scaled_div_lt hd low, not_lt] at h
      rw [div_two_zpow_succ]
      constructor <;> linarith
  generalize he : max fit leastExponent = e
  have hle : leastExponent ≤ e := by omega
  have hfits : e = leastExponent ∨ (2 : ℚ) ^ 52 ≤ num / den / 2 ^ e := by
    rcases le_total fit leastExponent with h | h
    · left
      omega
    · right
      rw [← he, max_eq_left h]
      exact hbounds.1
  have hlt : (num : ℚ) / den / 2 ^ e < 2 ^ 53 := by
    refine lt_of_le_of_lt ?_ hbounds.2
    have hmono : (2 : ℚ) ^ fit ≤ 2 ^ e := zpow_le_zpow_right₀ (by norm_num) (by omega)
    exact div_le_div_of_nonneg_left (by positivity) (two_zpow_pos fit) hmono
  have hnear := nearest_divNearest (scaled num den e).1 (scaled_pos num hd e)
  rw [scaled_eq] at hnear
  refine ⟨_, e, hle, hfits, hlt, hnear, ?_⟩
  generalize divNearest (scaled num den e).1 (scaled num den e).2 = q
  split
  · rename_i hq
    rw [hq]
    show ((Nat.pow 2 52 : Nat) : ℚ) * 2 ^ (e + 1) = (Nat.pow 2 53 : Nat) * 2 ^ e
    rw [zpow_add_one₀ (by norm_num)]
    norm_num
    ring
  · rfl

/-! ### What follows for rounded numbers -/

/-- **A greater number is not rounded to a smaller one.** -/
theorem RoundsTo.le (h : RoundsTo x y) (h' : RoundsTo x' y') (hx : x ≤ x') :
    y.magnitude ≤ y'.magnitude := by
  obtain ⟨q, e, hle, hfit, hlt, hq, hy⟩ := h
  obtain ⟨q', e', hle', hfit', hlt', hq', hy'⟩ := h'
  rw [hy, hy']
  have hpos := two_zpow_pos e
  have hpos' := two_zpow_pos e'
  rcases lt_trichotomy e e' with he | rfl | he
  · -- the significand of the one is at most 2 ^ 53, that of the other at least 2 ^ 52
    have hmost : Nearest ((2 ^ 53 : Nat) : ℚ) (2 ^ 53) := nearest_natCast _
    have hleast : Nearest ((2 ^ 52 : Nat) : ℚ) (2 ^ 52) := nearest_natCast _
    have hlow := hfit'.resolve_left (by omega)
    have hqle : q ≤ 2 ^ 53 := hq.le hmost (by push_cast; exact hlt.le)
    have hqge : 2 ^ 52 ≤ q' := hleast.le hq' (by push_cast; exact hlow)
    have hmono : (2 : ℚ) ^ (e + 1) ≤ 2 ^ e' := zpow_le_zpow_right₀ (by norm_num) (by omega)
    rw [zpow_add_one₀ (by norm_num)] at hmono
    have hqle : (q : ℚ) ≤ 2 ^ 53 := by exact_mod_cast hqle
    have hqge : (2 : ℚ) ^ 52 ≤ q' := by exact_mod_cast hqge
    calc (q : ℚ) * 2 ^ e ≤ 2 ^ 53 * 2 ^ e := mul_le_mul_of_nonneg_right hqle hpos.le
      _ = 2 ^ 52 * (2 ^ e * 2) := by ring
      _ ≤ 2 ^ 52 * 2 ^ e' := mul_le_mul_of_nonneg_left hmono (by positivity)
      _ ≤ q' * 2 ^ e' := mul_le_mul_of_nonneg_right hqge hpos'.le
  · have hqq : q ≤ q' := hq.le hq' (div_le_div_of_nonneg_right hx hpos.le)
    exact mul_le_mul_of_nonneg_right (by exact_mod_cast hqq) hpos.le
  · have hlow := hfit.resolve_left (by omega)
    rw [le_div_iff₀ hpos] at hlow
    rw [div_lt_iff₀ hpos'] at hlt'
    have hmono : (2 : ℚ) ^ (e' + 1) ≤ 2 ^ e := zpow_le_zpow_right₀ (by norm_num) (by omega)
    rw [zpow_add_one₀ (by norm_num)] at hmono
    nlinarith

/-- The error is at most half of the distance to the next number of the same exponent. -/
theorem RoundsTo.exists_abs_sub_le (h : RoundsTo x y) :
    ∃ e : Int, leastExponent ≤ e ∧ (e = leastExponent ∨ 2 ^ 52 ≤ x / 2 ^ e) ∧
      |y.magnitude - x| ≤ 2 ^ e / 2 := by
  obtain ⟨q, e, hle, hfit, -, hq, hy⟩ := h
  refine ⟨e, hle, hfit, ?_⟩
  have hpos := two_zpow_pos e
  have hform : y.magnitude - x = -((x / 2 ^ e - q) * 2 ^ e) := by
    rw [hy]
    field_simp
    ring
  rw [hform, abs_neg, abs_mul, abs_of_pos hpos]
  have := mul_le_mul_of_nonneg_right hq.abs_sub_le hpos.le
  linarith

/-- **The error is at most the `2 ^ 53`th part**, unless the number is very small. -/
theorem RoundsTo.abs_sub_le (h : RoundsTo x y) (hx : (2 : ℚ) ^ (-1022 : Int) ≤ x) :
    |y.magnitude - x| ≤ x / 2 ^ 53 := by
  obtain ⟨e, hle, hfit, herr⟩ := h.exists_abs_sub_le
  refine herr.trans ?_
  have hbig : (2 : ℚ) ^ 52 ≤ x / 2 ^ e := by
    rcases hfit with rfl | hfit
    · rw [le_div_iff₀ (two_zpow_pos _)]
      refine le_trans (le_of_eq ?_) hx
      rw [leastExponent, ← zpow_natCast, ← zpow_add₀ (by norm_num)]
      norm_num
    · exact hfit
  rw [le_div_iff₀ (two_zpow_pos _)] at hbig
  rw [le_div_iff₀ (by positivity)]
  linarith

/-- **Below `2 ^ k` the error is at most `2 ^ (k - 54)`**, unless this is very small. -/
theorem RoundsTo.abs_sub_le_of_lt (h : RoundsTo x y) {k : Int} (hx : x < 2 ^ k)
    (hk : leastExponent + 53 ≤ k) : |y.magnitude - x| ≤ 2 ^ (k - 54) := by
  obtain ⟨e, hle, hfit, herr⟩ := h.exists_abs_sub_le
  refine herr.trans ?_
  have hsmall : e ≤ k - 53 := by
    rcases hfit with rfl | hfit
    · omega
    · rw [le_div_iff₀ (two_zpow_pos _), ← zpow_natCast, ← zpow_add₀ (by norm_num)] at hfit
      have := (zpow_lt_zpow_iff_right₀ (by norm_num : (1 : ℚ) < 2)).1 (hfit.trans_lt hx)
      push_cast at this
      omega
  have hmono : (2 : ℚ) ^ e ≤ 2 ^ (k - 54 + 1) := zpow_le_zpow_right₀ (by norm_num) (by omega)
  rw [zpow_add_one₀ (by norm_num)] at hmono
  linarith

/-- **A natural number of at most 53 bits is kept.** -/
theorem RoundsTo.eq_natCast {n : Nat} (h : RoundsTo n y) (hn : n < 2 ^ 53) : y.magnitude = n := by
  obtain ⟨q, e, -, hfit, -, hq, hy⟩ := h
  have he : e ≤ 0 := by
    by_contra hpos
    rcases hfit with rfl | hfit
    · exact hpos (by decide)
    · rw [le_div_iff₀ (two_zpow_pos e)] at hfit
      have hmono : (2 : ℚ) ^ (1 : Int) ≤ 2 ^ e := zpow_le_zpow_right₀ (by norm_num) (by omega)
      have hn : (n : ℚ) < 2 ^ 53 := by exact_mod_cast hn
      norm_num at hmono
      linarith
  have hwhole : (n : ℚ) / 2 ^ e = (n * 2 ^ (-e).toNat : Nat) := by
    rw [two_zpow_neg_toNat he, div_inv_eq_mul]
    push_cast
    rfl
  rw [hwhole] at hq
  rw [hy, hq.eq (nearest_natCast _), ← hwhole, div_mul_cancel₀ _ (two_zpow_pos e).ne']

end Binary64

end EventSim
