import Mathlib.Tactic
import ChatStream.Decimal.Binary

/-!
# Rounding to a binary format

What a float is computed from is a ratio of natural numbers, and every step on the way is in natural
numbers too. Here the steps are read as what they do to the ratio, a rational: it is counted in
places of the size that the format has for numbers like it, `Binary.lastPlace`, and the count is
rounded.

How far the nearest number of the format is from a ratio is not asked. What is asked is on which
side of a power of two it comes to lie, and there `two_pow_le_rounded_iff` leaves nothing open: a
power of two is reached from the middle between it and the number of the format below it, the middle
included, since there the power is the even one of the two. And of two ratios the larger one is not
rounded to the smaller number (`rounded_le_rounded`).
-/

namespace ChatStream.Decimal

/-! ## Ratios -/

section
variable {n d b : Nat} {e : Int}

theorem scaled_fst_pos (hn : 0 < n) (hb : 0 < b) (e : Int) : 0 < (scaled n b e).1 := by
  rw [scaled]
  split_ifs
  · exact Nat.mul_pos hn (Nat.pow_pos hb)
  · exact hn

theorem scaled_snd_pos (n : Nat) (hb : 0 < b) (e : Int) : 0 < (scaled n b e).2 := by
  rw [scaled]
  split_ifs
  · exact Nat.one_pos
  · exact Nat.pow_pos hb

theorem scaled_div (n : Nat) (hb : 0 < b) (e : Int) :
    ((scaled n b e).1 : ℚ) / (scaled n b e).2 = n * (b : ℚ) ^ e := by
  have hb' : (b : ℚ) ≠ 0 := by positivity
  rw [scaled]
  by_cases he : 0 ≤ e
  · obtain ⟨k, rfl⟩ := Int.eq_ofNat_of_zero_le he
    rw [if_pos he]
    simp
  · obtain ⟨k, hk⟩ := Int.eq_ofNat_of_zero_le (Int.le_of_lt (Int.neg_pos_of_neg (not_le.mp he)))
    obtain rfl : e = -k := by omega
    rw [if_neg he]
    simp [div_eq_mul_inv]

/-- A power counts in units of a smaller one. -/
theorem pow_toNat_mul_zpow (hb : 0 < b) {j : Int} (h : e ≤ j) :
    ((b ^ (j - e).toNat : Nat) : ℚ) * (b : ℚ) ^ e = (b : ℚ) ^ j := by
  have hj : ((j - e).toNat : Int) = j - e := Int.toNat_of_nonneg (Int.sub_nonneg_of_le h)
  have hb' : (b : ℚ) ≠ 0 := by exact_mod_cast hb.ne'
  rw [Nat.cast_pow, ← zpow_natCast, hj, ← zpow_add₀ hb', sub_add_cancel]

theorem den_scaled_pos (hb : 0 < b) (hd : 0 < d) (e : Int) : 0 < d * (scaled 1 b e).1 :=
  Nat.mul_pos hd (scaled_fst_pos Nat.one_pos hb e)

/-- Dividing a ratio by a power, without a division. -/
theorem ratio_scaled (n : Nat) (hb : 0 < b) (hd : 0 < d) (e : Int) :
    ((n * (scaled 1 b e).2 : Nat) : ℚ) / (d * (scaled 1 b e).1 : Nat) = n / d / (b : ℚ) ^ e := by
  have hpow := scaled_div 1 hb e
  have hp : ((scaled 1 b e).1 : ℚ) ≠ 0 := by exact_mod_cast (scaled_fst_pos Nat.one_pos hb e).ne'
  have hq : ((scaled 1 b e).2 : ℚ) ≠ 0 := by exact_mod_cast (scaled_snd_pos 1 hb e).ne'
  have hd' : (d : ℚ) ≠ 0 := by exact_mod_cast hd.ne'
  rw [Nat.cast_one, one_mul] at hpow
  rw [← hpow]
  push_cast
  field_simp

theorem pow_le_div_iff (hb : 0 < b) (hd : 0 < d) :
    (scaled 1 b e).1 * d ≤ n * (scaled 1 b e).2 ↔ (b : ℚ) ^ e ≤ n / d := by
  have hpow := scaled_div 1 hb e
  rw [Nat.cast_one, one_mul] at hpow
  have hq : (0 : ℚ) < (scaled 1 b e).2 := by exact_mod_cast scaled_snd_pos 1 hb e
  have hd' : (0 : ℚ) < d := by exact_mod_cast hd
  rw [← hpow, div_le_div_iff₀ hq hd']
  norm_cast

/-- The exponent of the greatest power that a ratio reaches is known up to one from those of its
terms. -/
theorem pow_le_div_and_div_lt {k l : Nat} (hb : 1 < b) (hn : b ^ k ≤ n) (hn' : n < b ^ (k + 1))
    (hd : b ^ l ≤ d) (hd' : d < b ^ (l + 1)) (he : e = k - l) :
    let m := if (scaled 1 b e).1 * d ≤ n * (scaled 1 b e).2 then e else e - 1
    (b : ℚ) ^ m ≤ n / d ∧ (n / d : ℚ) < (b : ℚ) ^ (m + 1) := by
  have hb₀ : (0 : ℚ) < b := by exact_mod_cast Nat.zero_lt_of_lt hb
  have hd₀ : 0 < d := Nat.lt_of_lt_of_le (Nat.pow_pos (Nat.zero_lt_of_lt hb)) hd
  have hd₁ : (0 : ℚ) < d := by exact_mod_cast hd₀
  have hlow : (b : ℚ) ^ (e - 1) ≤ n / d := by
    rw [le_div_iff₀ hd₁]
    calc (b : ℚ) ^ (e - 1) * d ≤ (b : ℚ) ^ (e - 1) * b ^ (l + 1) := by
          gcongr
          exact_mod_cast hd'.le
      _ = b ^ k := by
          rw [← zpow_natCast, ← zpow_add₀ hb₀.ne', ← zpow_natCast, he]
          congr 1
          push_cast
          ring
      _ ≤ n := by exact_mod_cast hn
  have hhigh : (n / d : ℚ) < (b : ℚ) ^ (e + 1) := by
    rw [div_lt_iff₀ hd₁]
    calc (n : ℚ) < b ^ (k + 1) := by exact_mod_cast hn'
      _ = (b : ℚ) ^ (e + 1) * b ^ l := by
          rw [← zpow_natCast, ← zpow_natCast, ← zpow_add₀ hb₀.ne', he]
          congr 1
          push_cast
          ring
      _ ≤ (b : ℚ) ^ (e + 1) * d := by
          gcongr
          exact_mod_cast hd
  dsimp only
  by_cases htest : (scaled 1 b e).1 * d ≤ n * (scaled 1 b e).2
  · rw [if_pos htest]
    exact ⟨(pow_le_div_iff (Nat.zero_lt_of_lt hb) hd₀).mp htest, hhigh⟩
  · rw [if_neg htest, sub_add_cancel]
    rw [pow_le_div_iff (Nat.zero_lt_of_lt hb) hd₀, not_le] at htest
    exact ⟨hlow, htest⟩

theorem floorLog2_bounds (hn : 0 < n) (hd : 0 < d) :
    (2 : ℚ) ^ floorLog2 n d ≤ n / d ∧ (n / d : ℚ) < 2 ^ (floorLog2 n d + 1) := by
  have hbounds := pow_le_div_and_div_lt (b := 2) (e := (Nat.log2 n : Int) - Nat.log2 d)
    Nat.one_lt_two (Nat.log2_self_le hn.ne') Nat.lt_log2_self (Nat.log2_self_le hd.ne')
    Nat.lt_log2_self rfl
  rw [Nat.cast_ofNat] at hbounds
  exact hbounds

end

/-! ## Rounding to an integer -/

section
variable {n d k : Nat}

theorem roundHalfEven_cases (n d : Nat) :
    roundHalfEven n d = n / d ∧ 2 * (n % d) ≤ d ∧ (2 * (n % d) = d → n / d % 2 = 0) ∨
      roundHalfEven n d = n / d + 1 ∧ d ≤ 2 * (n % d) ∧ (2 * (n % d) = d → n / d % 2 = 1) := by
  rw [roundHalfEven]
  split_ifs <;> omega

theorem roundHalfEven_le (hd : 0 < d) (h : n ≤ k * d) : roundHalfEven n d ≤ k := by
  have hmod := Nat.mod_lt n hd
  have hdiv := Nat.div_add_mod n d
  rcases roundHalfEven_cases n d with ⟨hround, -⟩ | ⟨hround, hhalf, -⟩
  · rw [hround]
    exact Nat.div_le_of_le_mul (Nat.mul_comm k d ▸ h)
  · rw [hround, Nat.succ_le_iff, Nat.div_lt_iff_lt_mul hd]
    refine Nat.lt_of_le_of_ne h fun heq ↦ ?_
    rw [heq, Nat.mul_mod_left] at hhalf
    omega

theorem le_roundHalfEven (hd : 0 < d) (h : k * d ≤ n) : k ≤ roundHalfEven n d := by
  have hdiv : k ≤ n / d := (Nat.le_div_iff_mul_le hd).mpr h
  rcases roundHalfEven_cases n d with ⟨hround, -⟩ | ⟨hround, -⟩ <;> omega

/-- The larger of two ratios is not rounded to the smaller integer. -/
theorem roundHalfEven_le_roundHalfEven {n' d' : Nat} (hd : 0 < d) (hd' : 0 < d')
    (h : n * d' ≤ n' * d) : roundHalfEven n d ≤ roundHalfEven n' d' := by
  have hdiv := Nat.div_add_mod n d
  have hdiv' := Nat.div_add_mod n' d'
  have hle : n / d ≤ n' / d' := by
    refine (Nat.le_div_iff_mul_le hd').mpr (Nat.le_of_mul_le_mul_right ?_ hd)
    calc n / d * d' * d = n / d * d * d' := Nat.mul_right_comm _ _ _
      _ ≤ n * d' := Nat.mul_le_mul_right d' (Nat.div_mul_le_self n d)
      _ ≤ n' * d := h
  rcases Nat.lt_or_eq_of_le hle with hlt | heq
  · rcases roundHalfEven_cases n d with ⟨hround, -⟩ | ⟨hround, -⟩ <;>
      rcases roundHalfEven_cases n' d' with ⟨hround', -⟩ | ⟨hround', -⟩ <;> omega
  · -- Between the same integers the larger part over is not the one that is rounded down.
    have hpart : n % d * d' ≤ n' % d' * d := by
      rw [← heq] at hdiv'
      nlinarith
    rcases roundHalfEven_cases n d with ⟨hround, -⟩ | ⟨hround, hhalf, htie⟩ <;>
      rcases roundHalfEven_cases n' d' with ⟨hround', hhalf', htie'⟩ | ⟨hround', -⟩
    · omega
    · omega
    · have hmiddle : 2 * (n % d) = d := by nlinarith
      have hmiddle' : 2 * (n' % d') = d' := by nlinarith
      have hodd := htie hmiddle
      have heven := htie' hmiddle'
      omega
    · omega

/-- An even number is reached halfway from the one before it. -/
theorem le_roundHalfEven_iff_of_even (hd : 0 < d) (hk : k % 2 = 0) (hpos : 0 < k) :
    k ≤ roundHalfEven n d ↔ (2 * k - 1) * d ≤ 2 * n := by
  have hmod := Nat.mod_lt n hd
  have hdiv := Nat.div_add_mod n d
  obtain ⟨j, rfl⟩ := Nat.exists_eq_add_of_lt hpos
  have hodd : 2 * (0 + j + 1) - 1 = 2 * j + 1 := by omega
  rw [hodd]
  rcases Nat.lt_trichotomy (n / d) j with hlt | heq | hgt
  · -- Below the number before there is no way to reach it.
    have hbelow : n + 1 ≤ j * d := (Nat.div_lt_iff_lt_mul hd).mp hlt
    refine iff_of_false ?_ (not_le.mpr ?_)
    · rcases roundHalfEven_cases n d with ⟨hround, -⟩ | ⟨hround, -⟩ <;> omega
    · nlinarith
  · rw [heq] at hdiv
    have hhalf : (2 * j + 1) * d ≤ 2 * n ↔ d ≤ 2 * (n % d) := by
      constructor <;> intro h <;> nlinarith
    rw [hhalf]
    rcases roundHalfEven_cases n d with ⟨hround, hle, htie⟩ | ⟨hround, hle, -⟩
    · rw [hround, heq]
      refine iff_of_false (by omega) fun h ↦ ?_
      have := htie (Nat.le_antisymm hle h)
      omega
    · rw [hround, heq]
      exact iff_of_true (by omega) hle
  · have hreached : (j + 1) * d ≤ n := (Nat.le_div_iff_mul_le hd).mp hgt
    refine iff_of_true ?_ ?_
    · rw [Nat.zero_add]
      exact le_roundHalfEven hd hreached
    · nlinarith

end

/-! ## Rounding to a format -/

namespace Binary

section
variable (f : Format) (n d : Nat)

/-- The exponent of the last place in which the format can tell numbers like `n / d` apart. -/
def lastPlace : Int := max f.lowest (floorLog2 n d - f.precision + 1)

/-- The number of last places nearest to `n / d`. -/
def places : Nat :=
  roundHalfEven (n * (scaled 1 2 (lastPlace f n d)).2) (d * (scaled 1 2 (lastPlace f n d)).1)

/-- The number nearest to `n / d` in the format, as if the format had no largest number. -/
def rounded : ℚ := places f n d * 2 ^ lastPlace f n d

end

section
variable {f : Format} {n d : Nat}

theorem le_places (hd : 0 < d) {k : Nat} (h : (k : ℚ) * 2 ^ lastPlace f n d ≤ n / d) :
    k ≤ places f n d := by
  have hden : (0 : ℚ) < (d * (scaled 1 2 (lastPlace f n d)).1 : Nat) := by
    exact_mod_cast den_scaled_pos Nat.two_pos hd _
  refine le_roundHalfEven (den_scaled_pos Nat.two_pos hd _) ?_
  rw [← @Nat.cast_le ℚ, Nat.cast_mul k, ← le_div_iff₀ hden, ratio_scaled n Nat.two_pos hd,
    Nat.cast_ofNat]
  rwa [le_div_iff₀ (by positivity)]

theorem places_le (hd : 0 < d) {k : Nat} (h : (n / d : ℚ) ≤ k * 2 ^ lastPlace f n d) :
    places f n d ≤ k := by
  have hden : (0 : ℚ) < (d * (scaled 1 2 (lastPlace f n d)).1 : Nat) := by
    exact_mod_cast den_scaled_pos Nat.two_pos hd _
  refine roundHalfEven_le (den_scaled_pos Nat.two_pos hd _) ?_
  rw [← @Nat.cast_le ℚ, Nat.cast_mul k, ← div_le_iff₀ hden, ratio_scaled n Nat.two_pos hd,
    Nat.cast_ofNat]
  rwa [div_le_iff₀ (by positivity)]

/-- What the format has is not rounded. -/
theorem rounded_eq (hd : 0 < d) {k : Nat} (h : (n / d : ℚ) = k * 2 ^ lastPlace f n d) :
    rounded f n d = n / d := by
  have hplaces : places f n d = k := le_antisymm (places_le hd h.le) (le_places hd h.ge)
  rw [rounded, hplaces, h]

theorem le_places_iff_of_even (hd : 0 < d) {k : Nat} (hk : k % 2 = 0) (hpos : 0 < k) :
    k ≤ places f n d ↔ (2 * k - 1 : ℚ) * 2 ^ lastPlace f n d ≤ 2 * (n / d) := by
  have hden : (0 : ℚ) < (d * (scaled 1 2 (lastPlace f n d)).1 : Nat) := by
    exact_mod_cast den_scaled_pos Nat.two_pos hd _
  rw [places, le_roundHalfEven_iff_of_even (den_scaled_pos Nat.two_pos hd _) hk hpos,
    ← @Nat.cast_le ℚ, Nat.cast_mul (2 * k - 1), ← le_div_iff₀ hden, Nat.cast_mul 2, mul_div_assoc,
    ratio_scaled n Nat.two_pos hd, Nat.cast_ofNat, ← mul_div_assoc, le_div_iff₀ (by positivity),
    Nat.cast_sub (by omega)]
  push_cast
  rfl

/-- No more places are counted than the format has. -/
theorem places_le_precision (hn : 0 < n) (hd : 0 < d) : places f n d ≤ 2 ^ f.precision := by
  refine places_le hd ?_
  have hplace : floorLog2 n d + 1 ≤ f.precision + lastPlace f n d := by
    rw [lastPlace]
    omega
  calc (n / d : ℚ) ≤ 2 ^ (floorLog2 n d + 1) := (floorLog2_bounds hn hd).2.le
    _ ≤ 2 ^ ((f.precision : Int) + lastPlace f n d) := zpow_le_zpow_right₀ one_le_two hplace
    _ = ((2 ^ f.precision : Nat) : ℚ) * 2 ^ lastPlace f n d := by
      rw [zpow_add₀ two_ne_zero, zpow_natCast]
      push_cast
      rfl

theorem two_pow_toNat_mul_zpow {j e : Int} (h : e ≤ j) :
    ((2 ^ (j - e).toNat : Nat) : ℚ) * 2 ^ e = 2 ^ j := by
  have hpow := pow_toNat_mul_zpow Nat.two_pos h
  rwa [Nat.cast_ofNat] at hpow

theorem rounded_le_two_pow (hd : 0 < d) {j : Int} (hj : lastPlace f n d ≤ j)
    (h : (n / d : ℚ) ≤ 2 ^ j) : rounded f n d ≤ 2 ^ j := by
  have hplaces : places f n d ≤ 2 ^ (j - lastPlace f n d).toNat := by
    refine places_le hd ?_
    rwa [two_pow_toNat_mul_zpow hj]
  rw [rounded, ← two_pow_toNat_mul_zpow hj]
  gcongr

theorem two_pow_le_rounded (hd : 0 < d) {j : Int} (hj : lastPlace f n d ≤ j)
    (h : 2 ^ j ≤ (n / d : ℚ)) : 2 ^ j ≤ rounded f n d := by
  have hplaces : 2 ^ (j - lastPlace f n d).toNat ≤ places f n d := by
    refine le_places hd ?_
    rwa [two_pow_toNat_mul_zpow hj]
  rw [rounded, ← two_pow_toNat_mul_zpow hj]
  gcongr

theorem lastPlace_le_lastPlace {n' d' : Nat} (hn : 0 < n) (hd : 0 < d) (hn' : 0 < n') (hd' : 0 < d')
    (h : (n / d : ℚ) ≤ n' / d') :
    floorLog2 n d ≤ floorLog2 n' d' ∧ lastPlace f n d ≤ lastPlace f n' d' := by
  have hlog : floorLog2 n d < floorLog2 n' d' + 1 :=
    (zpow_lt_zpow_iff_right₀ one_lt_two).mp
      ((floorLog2_bounds hn hd).1.trans_lt (h.trans_lt (floorLog2_bounds hn' hd').2))
  rw [lastPlace, lastPlace]
  omega

/-- **Rounding keeps the order.** -/
theorem rounded_le_rounded {n' d' : Nat} (hf : 0 < f.precision) (hn : 0 < n) (hd : 0 < d)
    (hn' : 0 < n') (hd' : 0 < d') (h : (n / d : ℚ) ≤ n' / d') :
    rounded f n d ≤ rounded f n' d' := by
  obtain ⟨hlog, hplace⟩ := lastPlace_le_lastPlace (f := f) hn hd hn' hd' h
  rcases Int.lt_or_eq_of_le hplace with hlt | heq
  · -- The power at which the last place changes is between the two.
    have hat : lastPlace f n' d' = floorLog2 n' d' - f.precision + 1 := by
      rw [lastPlace, lastPlace] at hlt
      rw [lastPlace]
      omega
    have hbefore : floorLog2 n d + 1 ≤ floorLog2 n' d' := by
      rw [hat, lastPlace] at hlt
      omega
    calc rounded f n d ≤ 2 ^ floorLog2 n' d' := by
          refine rounded_le_two_pow hd (by omega) ?_
          exact (floorLog2_bounds hn hd).2.le.trans (zpow_le_zpow_right₀ one_le_two hbefore)
      _ ≤ rounded f n' d' := two_pow_le_rounded hd' (by omega) (floorLog2_bounds hn' hd').1
  · have hcross : n * d' ≤ n' * d := by
      rw [div_le_div_iff₀ (by exact_mod_cast hd) (by exact_mod_cast hd')] at h
      exact_mod_cast h
    have hplaces : places f n d ≤ places f n' d' := by
      rw [places, places, heq]
      refine roundHalfEven_le_roundHalfEven (den_scaled_pos Nat.two_pos hd _)
        (den_scaled_pos Nat.two_pos hd' _) ?_
      calc n * (scaled 1 2 (lastPlace f n' d')).2 * (d' * (scaled 1 2 (lastPlace f n' d')).1)
          = n * d' * ((scaled 1 2 (lastPlace f n' d')).2 * (scaled 1 2 (lastPlace f n' d')).1) :=
            Nat.mul_mul_mul_comm _ _ _ _
        _ ≤ n' * d * ((scaled 1 2 (lastPlace f n' d')).2 * (scaled 1 2 (lastPlace f n' d')).1) :=
            Nat.mul_le_mul_right _ hcross
        _ = n' * (scaled 1 2 (lastPlace f n' d')).2 * (d * (scaled 1 2 (lastPlace f n' d')).1) :=
            Nat.mul_mul_mul_comm _ _ _ _
    rw [rounded, rounded, heq]
    gcongr

/-- **When a power of two is reached.** What is rounded comes to `2 ^ j` from the middle between it
and the number of the format below it. -/
theorem two_pow_le_rounded_iff (hf : 0 < f.precision) (hn : 0 < n) (hd : 0 < d) {j : Int}
    (hj : f.lowest ≤ j - f.precision) :
    (2 : ℚ) ^ j ≤ rounded f n d ↔ (2 - 2 ^ (-f.precision : Int)) * 2 ^ (j - 1) ≤ (n / d : ℚ) := by
  obtain ⟨hlow, hhigh⟩ := floorLog2_bounds hn hd
  have hplace : (0 : ℚ) < 2 ^ lastPlace f n d := by positivity
  have hpow : (2 : ℚ) ^ j = 2 * 2 ^ (j - 1) := by
    rw [← zpow_one_add₀ two_ne_zero, add_sub_cancel]
  have hsmall : (0 : ℚ) < 2 ^ (-f.precision : Int) ∧ (2 : ℚ) ^ (-f.precision : Int) < 1 := by
    refine ⟨by positivity, ?_⟩
    rw [← zpow_zero (2 : ℚ)]
    exact zpow_lt_zpow_right₀ one_lt_two (by omega)
  have hbelow : (0 : ℚ) < 2 ^ (j - 1) := by positivity
  rcases lt_trichotomy (floorLog2 n d) (j - 1) with hlt | heq | hgt
  · -- The ratio is below the power before, which is a number of the format.
    have hle : lastPlace f n d ≤ j - 1 := by
      rw [lastPlace]
      omega
    have hratio : (n / d : ℚ) < 2 ^ (j - 1) :=
      hhigh.trans_le (zpow_le_zpow_right₀ one_le_two (by omega))
    have hrounded := rounded_le_two_pow hd hle hratio.le
    refine iff_of_false (by linarith) (not_le.mpr ?_)
    nlinarith
  · -- The power is the first number with another last place.
    have hlast : lastPlace f n d = j - f.precision := by
      rw [lastPlace]
      omega
    have heven : 2 ^ f.precision % 2 = 0 := by
      obtain ⟨k, hk⟩ := Nat.exists_eq_succ_of_ne_zero hf.ne'
      rw [hk, Nat.pow_succ]
      exact Nat.mul_mod_left _ 2
    have htop : ((2 ^ f.precision : Nat) : ℚ) * 2 ^ lastPlace f n d = 2 ^ j := by
      rw [hlast, ← two_pow_toNat_mul_zpow (show j - f.precision ≤ j by omega)]
      congr 3
      omega
    have hunit : (2 : ℚ) ^ lastPlace f n d = 2 ^ (-f.precision : Int) * 2 ^ j := by
      rw [hlast, ← zpow_add₀ two_ne_zero]
      congr 1
      ring
    have hreach : (2 : ℚ) ^ j ≤ rounded f n d ↔ 2 ^ f.precision ≤ places f n d := by
      rw [rounded, ← htop, mul_le_mul_iff_left₀ hplace]
      exact Nat.cast_le
    rw [hreach, le_places_iff_of_even hd heven (Nat.two_pow_pos _)]
    have hcross : (2 * ((2 ^ f.precision : Nat) : ℚ) - 1) * 2 ^ lastPlace f n d =
        2 * ((2 - 2 ^ (-f.precision : Int)) * 2 ^ (j - 1)) := by
      calc (2 * ((2 ^ f.precision : Nat) : ℚ) - 1) * 2 ^ lastPlace f n d
          = 2 * (((2 ^ f.precision : Nat) : ℚ) * 2 ^ lastPlace f n d) - 2 ^ lastPlace f n d := by
            ring
        _ = 2 * 2 ^ j - 2 ^ (-f.precision : Int) * 2 ^ j := by rw [htop, hunit]
        _ = 2 * ((2 - 2 ^ (-f.precision : Int)) * 2 ^ (j - 1)) := by
          rw [hpow]
          ring
    rw [hcross]
    exact mul_le_mul_iff_right₀ two_pos
  · -- The ratio has come to the power, or to a later one, without any rounding.
    have hle : lastPlace f n d ≤ floorLog2 n d := by
      rw [lastPlace]
      omega
    have hratio : (2 : ℚ) ^ j ≤ 2 ^ floorLog2 n d := zpow_le_zpow_right₀ one_le_two (by omega)
    have hrounded := two_pow_le_rounded hd hle hlow
    refine iff_of_true (hratio.trans hrounded) ?_
    nlinarith

end

end Binary

end ChatStream.Decimal
