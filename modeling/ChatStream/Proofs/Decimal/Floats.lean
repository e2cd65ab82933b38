import Mathlib.Algebra.Order.Floor.Semifield
import ChatStream.Proofs.Decimal.Rounding

/-!
# Floats as rationals

A finite float is a rational, its `value`. Comparing floats compares their values, and computing
with them is computing with the values and rounding once. A float that stands for no rational has
the value nought, so that a statement about values is one about finite floats wherever it says that
they are not nought.
-/

namespace ChatStream.Decimal.Binary

variable {f : Format}

/-- The rational that a float stands for, or else nought. -/
def value : Binary f → ℚ
  | .finite s m e => (if s then -1 else 1) * (m * 2 ^ e)
  | .infinite _ => 0
  | .nan => 0

theorem abs_value_finite (s : Bool) (m : Nat) (e : Int) :
    |value (.finite s m e : Binary f)| = m * 2 ^ e := by
  have hnonneg : (0 : ℚ) ≤ m * 2 ^ e := by positivity
  rw [value, abs_mul, abs_of_nonneg hnonneg]
  cases s <;> simp

theorem ratio_div (m : Nat) (e : Int) : ((ratio m e).1 : ℚ) / (ratio m e).2 = m * 2 ^ e := by
  have hpow := scaled_div m Nat.two_pos e
  rwa [Nat.cast_ofNat] at hpow

theorem signedRatio_div (s : Bool) (m : Nat) (e : Int) :
    ((signedRatio s m e).1 : ℚ) / (signedRatio s m e).2 = value (.finite s m e : Binary f) := by
  rw [value, ← ratio_div, signedRatio]
  cases s with
  | false => simp
  | true => simp [neg_div]

/-! ## Rounded ratios -/

section
variable {n d : Nat}

theorem value_ofRatio_zero (s : Bool) (d : Nat) : (ofRatio s 0 d : Binary f).value = 0 := by
  have hzero : (ofRatio s 0 d : Binary f) = .finite s 0 f.lowest := rfl
  rw [hzero, value, Nat.cast_zero, zero_mul, mul_zero]

/-- A ratio becomes the nearest number of the format, unless its last place is beyond the format's
highest. -/
theorem ofRatio_cases (s : Bool) (hf : 0 < f.precision) (hn : 0 < n) (hd : 0 < d) :
    (∃ m e, (ofRatio s n d : Binary f) = .finite s m e ∧ (m : ℚ) * 2 ^ e = rounded f n d ∧
        m ≤ 2 ^ f.precision ∧ e ≤ f.highest) ∨
      (ofRatio s n d : Binary f) = .infinite s ∧ f.highest ≤ lastPlace f n d := by
  let top : Nat × Int := (2 ^ (f.precision - 1), lastPlace f n d + 1)
  let p := if places f n d = 2 ^ f.precision then top else (places f n d, lastPlace f n d)
  have hround : (ofRatio s n d : Binary f) =
      if f.highest < p.2 then .infinite s else .finite s p.1 p.2 := by
    rw [ofRatio, if_neg hn.ne']
    rfl
  rw [hround]
  by_cases htop : places f n d = 2 ^ f.precision
  · have hp : p = top := if_pos htop
    rw [hp]
    dsimp only [top]
    by_cases he : f.highest < lastPlace f n d + 1
    · rw [if_pos he]
      exact .inr ⟨rfl, Int.le_of_lt_add_one he⟩
    · -- The mantissa has come to have a bit too many, and its last bit is nought.
      rw [if_neg he]
      refine .inl ⟨_, _, rfl, ?_, Nat.pow_le_pow_right Nat.two_pos (Nat.sub_le _ 1), not_lt.mp he⟩
      obtain ⟨k, hk⟩ := Nat.exists_eq_succ_of_ne_zero hf.ne'
      rw [rounded, htop, hk, zpow_add_one₀ two_ne_zero]
      push_cast
      rw [pow_succ]
      ring
  · have hp : p = (places f n d, lastPlace f n d) := if_neg htop
    rw [hp]
    dsimp only
    by_cases he : f.highest < lastPlace f n d
    · rw [if_pos he]
      exact .inr ⟨rfl, he.le⟩
    · rw [if_neg he]
      exact .inl ⟨_, _, rfl, rfl, places_le_precision hn hd, not_lt.mp he⟩

/-- A ratio well inside the format has a number of the format next to it. -/
theorem exists_finite_of_lt (s : Bool) (hf : 0 < f.precision) (hrange : f.lowest < f.highest)
    (hn : 0 < n) (hd : 0 < d) (h : (n / d : ℚ) < 2 ^ (f.highest + f.precision - 1)) :
    ∃ m e, (ofRatio s n d : Binary f) = .finite s m e ∧ (m : ℚ) * 2 ^ e = rounded f n d := by
  have hlog : floorLog2 n d < f.highest + f.precision - 1 :=
    (zpow_lt_zpow_iff_right₀ one_lt_two).mp ((floorLog2_bounds hn hd).1.trans_lt h)
  rcases ofRatio_cases s hf hn hd with ⟨m, e, hfinite, hvalue, -⟩ | ⟨-, hhigh⟩
  · exact ⟨m, e, hfinite, hvalue⟩
  · rw [lastPlace] at hhigh
    omega

theorem isFinite_ofRatio_of_lt (s : Bool) (hf : 0 < f.precision) (hrange : f.lowest < f.highest)
    (hd : 0 < d) (h : (n / d : ℚ) < 2 ^ (f.highest + f.precision - 1)) :
    (ofRatio s n d : Binary f).isFinite = true := by
  rcases Nat.eq_zero_or_pos n with rfl | hn
  · rfl
  · obtain ⟨m, e, hfinite, -⟩ := exists_finite_of_lt s hf hrange hn hd h
    rw [hfinite]
    rfl

/-- A natural number with no more bits than the format has is a number of the format. -/
theorem value_ofRatio_mul (hf : 0 < f.precision) (hlowest : f.lowest ≤ 0) (hhighest : 0 < f.highest)
    {k : Nat} (hk : k < 2 ^ f.precision) (hd : 0 < d) :
    (ofRatio false (k * d) d : Binary f).isFinite = true ∧
      (ofRatio false (k * d) d : Binary f).value = k := by
  rcases Nat.eq_zero_or_pos k with rfl | hpos
  · rw [Nat.zero_mul, value_ofRatio_zero, Nat.cast_zero]
    exact ⟨rfl, rfl⟩
  · have hratio : ((k * d : Nat) / d : ℚ) = k := by
      rw [Nat.cast_mul, mul_div_cancel_right₀]
      exact_mod_cast hd.ne'
    have hbits : (k : ℚ) < 2 ^ (f.precision : Int) := by exact_mod_cast hk
    have hn : 0 < k * d := Nat.mul_pos hpos hd
    have hlog : floorLog2 (k * d) d < f.precision := by
      refine (zpow_lt_zpow_iff_right₀ (one_lt_two : (1 : ℚ) < 2)).mp ?_
      exact ((floorLog2_bounds hn hd).1.trans_eq hratio).trans_lt hbits
    have hplace : lastPlace f (k * d) d ≤ 0 := by
      rw [lastPlace]
      omega
    have hcount : ((k * d : Nat) / d : ℚ) =
        (k * 2 ^ (0 - lastPlace f (k * d) d).toNat : Nat) * 2 ^ lastPlace f (k * d) d := by
      rw [hratio, Nat.cast_mul, mul_assoc, two_pow_toNat_mul_zpow hplace, zpow_zero, mul_one]
    obtain ⟨m, e, hfinite, hvalue⟩ := exists_finite_of_lt false hf (hlowest.trans_lt hhighest) hn hd
      (hratio.trans_lt (hbits.trans_le (zpow_le_zpow_right₀ one_le_two (by omega))))
    rw [hfinite, value, if_neg Bool.false_ne_true, one_mul, hvalue, rounded_eq hd hcount]
    exact ⟨rfl, hratio⟩

/-- Rounding does not take a ratio past a power of two. -/
theorem abs_value_ofRatio_le (s : Bool) (hf : 0 < f.precision) (hd : 0 < d) {j : Int}
    (hj : f.lowest ≤ j) (h : (n / d : ℚ) ≤ 2 ^ j) : |(ofRatio s n d : Binary f).value| ≤ 2 ^ j := by
  have hpow : (0 : ℚ) < 2 ^ j := by positivity
  rcases Nat.eq_zero_or_pos n with rfl | hn
  · rw [value_ofRatio_zero, abs_zero]
    exact hpow.le
  · have hlog : floorLog2 n d ≤ j :=
      (zpow_le_zpow_iff_right₀ one_lt_two).mp ((floorLog2_bounds hn hd).1.trans h)
    rcases ofRatio_cases s hf hn hd with ⟨m, e, hfinite, hvalue, -⟩ | ⟨hinfinite, -⟩
    · rw [hfinite, abs_value_finite, hvalue]
      refine rounded_le_two_pow hd ?_ h
      rw [lastPlace]
      omega
    · rw [hinfinite, value, abs_zero]
      exact hpow.le

/-- No number that was rounded is above the power of two behind the last number of the format. -/
theorem abs_value_ofRatio_le_last (s : Bool) (n : Nat) (hf : 0 < f.precision) (hd : 0 < d) :
    |(ofRatio s n d : Binary f).value| ≤ 2 ^ (f.highest + f.precision) := by
  have hlast : (0 : ℚ) ≤ 2 ^ (f.highest + f.precision) := by positivity
  rcases Nat.eq_zero_or_pos n with rfl | hn
  · rw [value_ofRatio_zero, abs_zero]
    exact hlast
  · rcases ofRatio_cases s hf hn hd with ⟨m, e, hfinite, -, hm, he⟩ | ⟨hinfinite, -⟩
    · have hm' : (m : ℚ) ≤ 2 ^ f.precision := by exact_mod_cast hm
      rw [hfinite, abs_value_finite]
      calc (m : ℚ) * 2 ^ e ≤ 2 ^ f.precision * 2 ^ f.highest :=
            mul_le_mul hm' (zpow_le_zpow_right₀ one_le_two he) (by positivity) (by positivity)
        _ = 2 ^ (f.highest + f.precision) := by
          rw [zpow_add₀ two_ne_zero, zpow_natCast, mul_comm]
    · rw [hinfinite, value, abs_zero]
      exact hlast

end

/-! ## Order -/

theorem exists_of_isFinite {x : Binary f} (hx : x.isFinite = true) :
    ∃ s m e, x = .finite s m e := by
  cases x with
  | finite s m e => exact ⟨s, m, e, rfl⟩
  | infinite | nan => cases hx

theorem lt_iff {x y : Binary f} (hx : x.isFinite = true) (hy : y.isFinite = true) :
    lt x y = true ↔ x.value < y.value := by
  obtain ⟨s, m, e, rfl⟩ := exists_of_isFinite hx
  obtain ⟨t, k, j, rfl⟩ := exists_of_isFinite hy
  have hq (s : Bool) (m : Nat) (e : Int) : (0 : ℚ) < (signedRatio s m e).2 := by
    exact_mod_cast scaled_snd_pos m Nat.two_pos e
  rw [← signedRatio_div, ← signedRatio_div, div_lt_div_iff₀ (hq s m e) (hq t k j)]
  norm_cast
  exact decide_eq_true_iff

theorem le_iff {x y : Binary f} (hx : x.isFinite = true) (hy : y.isFinite = true) :
    le x y = true ↔ x.value ≤ y.value := by
  have hne {x : Binary f} (hx : x.isFinite = true) : (x != .nan) = true := by
    obtain ⟨s, m, e, rfl⟩ := exists_of_isFinite hx
    rfl
  rw [le, hne hx, hne hy, Bool.true_and, Bool.true_and, Bool.not_eq_true', Bool.eq_false_iff, ne_eq,
    lt_iff hy hx, not_lt]

/-- Only a finite float is above one finite float and not above another. -/
theorem isFinite_of_lt_of_le {lo hi x : Binary f} (hlo : lo.isFinite = true)
    (hhi : hi.isFinite = true) (hlt : lt lo x = true) (hle : le x hi = true) :
    x.isFinite = true := by
  obtain ⟨s, m, e, rfl⟩ := exists_of_isFinite hlo
  obtain ⟨t, k, j, rfl⟩ := exists_of_isFinite hhi
  cases x with
  | finite => rfl
  | nan => cases hlt
  | infinite r =>
    cases r with
    | false => cases hle
    | true => cases hlt

/-- Moving a float into an interval moves its value. -/
theorem value_clamp {lo hi x : Binary f} (hlo : lo.isFinite = true) (hhi : hi.isFinite = true)
    (hx : x.isFinite = true) (hle : lo.value ≤ hi.value) :
    (clamp lo hi x).isFinite = true ∧
      (clamp lo hi x).value = max lo.value (min hi.value x.value) := by
  rw [clamp]
  by_cases hlow : lt x lo = true
  · rw [if_pos hlow]
    have hval := (lt_iff hx hlo).mp hlow
    exact ⟨hlo, (max_eq_left ((min_le_right _ _).trans hval.le)).symm⟩
  · rw [if_neg hlow]
    rw [lt_iff hx hlo, not_lt] at hlow
    by_cases hhigh : lt hi x = true
    · rw [if_pos hhigh]
      have hval := (lt_iff hhi hx).mp hhigh
      rw [min_eq_left hval.le, max_eq_right hle]
      exact ⟨hhi, rfl⟩
    · rw [if_neg hhigh]
      rw [lt_iff hhi hx, not_lt] at hhigh
      rw [min_eq_right hhigh, max_eq_right hlow]
      exact ⟨hx, rfl⟩

/-- The float is in an interval, or else no number. -/
def Within (lo hi : ℚ) (x : Binary f) : Prop :=
  x = .nan ∨ x.isFinite = true ∧ lo ≤ x.value ∧ x.value ≤ hi

/-- What is moved into an interval is in it. -/
theorem clamp_bounds {lo hi : Binary f} (hlo : lo.isFinite = true) (hhi : hi.isFinite = true)
    (hle : lo.value ≤ hi.value) {x : Binary f} (hx : x ≠ .nan) :
    (clamp lo hi x).isFinite = true ∧ lo.value ≤ (clamp lo hi x).value ∧
      (clamp lo hi x).value ≤ hi.value := by
  cases x with
  | nan => exact absurd rfl hx
  | finite s m e =>
    obtain ⟨hfinite, hvalue⟩ := value_clamp hlo hhi (x := .finite s m e) rfl hle
    refine ⟨hfinite, hvalue ▸ le_max_left _ _, ?_⟩
    rw [hvalue]
    exact max_le hle (min_le_left _ _)
  | infinite s =>
    obtain ⟨s', m', e', rfl⟩ := exists_of_isFinite hlo
    obtain ⟨t, k, j, rfl⟩ := exists_of_isFinite hhi
    cases s with
    | false => exact ⟨rfl, hle, le_rfl⟩
    | true => exact ⟨rfl, le_rfl, hle⟩

theorem clamp_nan {lo hi : Binary f} (hhi : hi.isFinite = true) : clamp lo hi .nan = .nan := by
  obtain ⟨t, k, j, rfl⟩ := exists_of_isFinite hhi
  rfl

/-- What is moved into an interval is in it, unless it is no number. -/
theorem within_clamp {lo hi : Binary f} (hlo : lo.isFinite = true) (hhi : hi.isFinite = true)
    (hle : lo.value ≤ hi.value) (x : Binary f) : (clamp lo hi x).Within lo.value hi.value := by
  by_cases hx : x = .nan
  · rw [hx]
    exact .inl (clamp_nan hhi)
  · exact .inr (clamp_bounds hlo hhi hle hx)

/-- Moving two floats into an interval keeps their order. -/
theorem value_clamp_le_value_clamp {lo hi x y : Binary f} (hlo : lo.isFinite = true)
    (hhi : hi.isFinite = true) (hle : lo.value ≤ hi.value) (hxy : le x y = true) :
    (clamp lo hi x).value ≤ (clamp lo hi y).value := by
  rw [le, Bool.and_eq_true, Bool.and_eq_true, bne_iff_ne, bne_iff_ne] at hxy
  obtain ⟨⟨hx, hy⟩, hxy⟩ := hxy
  have hlow := (clamp_bounds hlo hhi hle hy).2.1
  have hhigh := (clamp_bounds hlo hhi hle hx).2.2
  have hbelow : clamp lo hi (.infinite true) = lo := by
    obtain ⟨s, m, e, rfl⟩ := exists_of_isFinite hlo
    rfl
  have habove : clamp lo hi (.infinite false) = hi := by
    obtain ⟨s, m, e, rfl⟩ := exists_of_isFinite hlo
    obtain ⟨t, k, j, rfl⟩ := exists_of_isFinite hhi
    rfl
  match x, y with
  | .nan, _ => exact absurd rfl hx
  | _, .nan => exact absurd rfl hy
  | .infinite true, _ => rwa [hbelow]
  | _, .infinite false => rwa [habove]
  | .infinite false, .infinite true => cases hxy
  | .infinite false, .finite .. => cases hxy
  | .finite .., .infinite true => cases hxy
  | .finite s m e, .finite t k j =>
    rw [Bool.not_eq_true', Bool.eq_false_iff, ne_eq, lt_iff rfl rfl, not_lt] at hxy
    rw [(value_clamp hlo hhi rfl hle).2, (value_clamp hlo hhi rfl hle).2]
    gcongr

theorem Within.abs_value_le {lo hi bound : ℚ} {x : Binary f} (h : x.Within lo hi)
    (hbound : 0 ≤ bound) (hlo : -bound ≤ lo) (hhi : hi ≤ bound) : |x.value| ≤ bound := by
  rcases h with rfl | ⟨-, hlow, hhigh⟩
  · rwa [value, abs_zero]
  · exact abs_le.mpr ⟨hlo.trans hlow, hhigh.trans hhi⟩

/-! ## Multiples and integers -/

theorem isFinite_scaleUp (hf : 0 < f.precision) (hrange : f.lowest < f.highest) {x : Binary f}
    (hx : x.isFinite = true) {k : Nat} (h : |x.value| * k < 2 ^ (f.highest + f.precision - 1)) :
    (x.scaleUp k).isFinite = true := by
  obtain ⟨s, m, e, rfl⟩ := exists_of_isFinite hx
  rw [scaleUp]
  refine isFinite_ofRatio_of_lt s hf hrange (scaled_snd_pos m Nat.two_pos e) ?_
  rw [abs_value_finite, ← ratio_div] at h
  rwa [Nat.cast_mul, mul_div_right_comm]

/-- A multiple of a positive float is a ratio, once rounded. -/
theorem exists_value_scaleUp (hf : 0 < f.precision) (hrange : f.lowest < f.highest) {x : Binary f}
    (hx : 0 < x.value) {k : Nat} (hk : 0 < k)
    (h : k * x.value < 2 ^ (f.highest + f.precision - 1)) :
    ∃ n d : Nat, 0 < n ∧ 0 < d ∧ (n / d : ℚ) = k * x.value ∧
      (x.scaleUp k).value = rounded f n d := by
  cases x with
  | infinite | nan => exact absurd hx (lt_irrefl _)
  | finite s m e =>
    rw [value] at hx h ⊢
    have hm : (0 : ℚ) ≤ m * 2 ^ e := by positivity
    obtain rfl : s = false := by
      cases s with
      | false => rfl
      | true =>
        rw [if_pos rfl] at hx
        linarith
    rw [if_neg Bool.false_ne_true, one_mul] at hx h ⊢
    have hq : 0 < (ratio m e).2 := scaled_snd_pos m Nat.two_pos e
    have hvalue := ratio_div m e
    have hm' : 0 < m := by
      refine Nat.pos_of_ne_zero fun hzero ↦ hx.ne ?_
      rw [hzero, Nat.cast_zero, zero_mul]
    have hp : 0 < (ratio m e).1 := scaled_fst_pos hm' Nat.two_pos e
    have hratio : (((ratio m e).1 * k : Nat) : ℚ) / (ratio m e).2 = k * (m * 2 ^ e) := by
      rw [← hvalue, Nat.cast_mul, mul_comm ((ratio m e).1 : ℚ), mul_div_assoc]
    rw [← hratio] at h
    obtain ⟨m', e', hfinite, hrounded⟩ :=
      exists_finite_of_lt false hf hrange (Nat.mul_pos hp hk) hq h
    refine ⟨_, _, Nat.mul_pos hp hk, hq, hratio, ?_⟩
    rw [← hrounded, scaleUp]
    dsimp only
    rw [hfinite, value, if_neg Bool.false_ne_true, one_mul]

/-- When a multiple of a positive float, once rounded, has come to a power of two. -/
theorem two_pow_le_value_scaleUp_iff (hf : 0 < f.precision) (hrange : f.lowest < f.highest)
    {x : Binary f} (hx : 0 < x.value) {k : Nat} (hk : 0 < k)
    (h : k * x.value < 2 ^ (f.highest + f.precision - 1)) {j : Int}
    (hj : f.lowest ≤ j - f.precision) :
    (2 : ℚ) ^ j ≤ (x.scaleUp k).value ↔
      (2 - 2 ^ (-f.precision : Int)) * 2 ^ (j - 1) ≤ k * x.value := by
  obtain ⟨n, d, hn, hd, hratio, hvalue⟩ := exists_value_scaleUp hf hrange hx hk h
  rw [hvalue, two_pow_le_rounded_iff hf hn hd hj, hratio]

/-- Multiples of positive floats are in the order of the floats. -/
theorem value_scaleUp_le_value_scaleUp (hf : 0 < f.precision) (hrange : f.lowest < f.highest)
    {x y : Binary f} (hx : 0 < x.value) (hxy : x.value ≤ y.value) {k : Nat} (hk : 0 < k)
    (h : k * y.value < 2 ^ (f.highest + f.precision - 1)) :
    (x.scaleUp k).value ≤ (y.scaleUp k).value := by
  have hmul : k * x.value ≤ k * y.value := by gcongr
  obtain ⟨n, d, hn, hd, hratio, hvalue⟩ :=
    exists_value_scaleUp hf hrange hx hk (hmul.trans_lt h)
  obtain ⟨n', d', hn', hd', hratio', hvalue'⟩ :=
    exists_value_scaleUp hf hrange (hx.trans_le hxy) hk h
  rw [hvalue, hvalue']
  exact rounded_le_rounded hf hn hd hn' hd' (by rwa [hratio, hratio'])

/-- A half is rounded up, and nothing is left of what is below nought. -/
theorem roundToNat_eq_floor (x : Binary f) : x.roundToNat = ⌊x.value + 1 / 2⌋₊ := by
  cases x with
  | infinite | nan => exact (Nat.floor_eq_zero.mpr (by norm_num [value])).symm
  | finite s m e =>
    cases s with
    | true =>
      have hnonneg : (0 : ℚ) ≤ m * 2 ^ e := by positivity
      have hsmall : (Binary.finite true m e : Binary f).value + 1 / 2 < 1 := by
        rw [value, if_pos rfl]
        linarith
      exact (Nat.floor_eq_zero.mpr hsmall).symm
    | false =>
      have hq : ((ratio m e).2 : ℚ) ≠ 0 := by
        exact_mod_cast (scaled_snd_pos m Nat.two_pos e).ne'
      have hhalf : ((ratio m e).1 : ℚ) / (ratio m e).2 + 1 / 2 =
          (2 * (ratio m e).1 + (ratio m e).2 : Nat) / (2 * (ratio m e).2 : Nat) := by
        push_cast
        field_simp
      rw [value, if_neg Bool.false_ne_true, one_mul, ← ratio_div, hhalf, Nat.floor_div_eq_div]
      rfl

/-- A float is rounded to a positive number from a half on. -/
theorem one_le_roundToNat_iff (x : Binary f) : 1 ≤ x.roundToNat ↔ 1 / 2 ≤ x.value := by
  rw [roundToNat_eq_floor, Nat.one_le_floor_iff]
  constructor <;> intro h <;> linarith

end ChatStream.Decimal.Binary
