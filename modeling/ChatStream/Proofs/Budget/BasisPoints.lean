import ChatStream.Proofs.Budget.Threshold

/-!
# The threshold in basis points

A threshold is a whole number of tokens, and the fraction that it stands for is counted in basis
points before. `Budget.exact_run` says what this makes of it, for any fraction and after any calls.
The threshold is the least number of tokens that is so many basis points of the window
(`Budget.Exact.least`), so it is at most the window, and it moves with the window and with the
fraction.

The product of window and basis points is a number of 64 bits, and the quotient is one of 32 bits
again. What is to stand for a quotient that is none, `threshold32` asks for; it makes no difference
(`Budget.Exact.machine`).

## What is rounded

A fraction is moved between the smallest one in use and the whole window, multiplied in floats and
rounded to an integer. All three keep the order of what they are done to, and the whole window has
ten thousand basis points exactly. So there are never more, however the product was rounded.
-/

namespace ChatStream.Budget

open Decimal

/-! ## Basis points -/

/-- A fraction that is a number has one in use in its place. -/
theorem nearFraction_new_bounds (limit : Nat) {x : Single} (hx : x ≠ .nan) :
    1 / 2 ^ 23 ≤ (new limit x).nearFraction.value ∧ (new limit x).nearFraction.value ≤ 1 := by
  have hbounds := (Binary.clamp_bounds rfl rfl value_smallestFraction_le hx).2
  rwa [value_smallestFraction, value_wholeWindow] at hbounds

/-- Of two fractions in use the larger one has no fewer basis points. -/
theorem basisPoints_le_basisPoints {b b' : Budget} (hpos : 0 < b.nearFraction.value)
    (hle : b.nearFraction.value ≤ b'.nearFraction.value) (hone : b'.nearFraction.value ≤ 1) :
    b.basisPoints ≤ b'.basisPoints := by
  have hrange : ((10000 : Nat) : ℚ) * b'.nearFraction.value <
      2 ^ (Format.single.highest + Format.single.precision - 1) := by
    calc ((10000 : Nat) : ℚ) * b'.nearFraction.value ≤ 10000 * 1 := by
          push_cast
          gcongr
      _ < 2 ^ (Format.single.highest + Format.single.precision - 1) := by norm_num [Format.single]
  have hscaled := Binary.value_scaleUp_le_value_scaleUp (f := .single) (by decide) (by decide) hpos
    hle (by decide) hrange
  rw [basisPoints, basisPoints, Binary.roundToNat_eq_floor, Binary.roundToNat_eq_floor]
  gcongr

/-- A larger fraction has no fewer basis points, whatever the windows. -/
theorem basisPoints_new_le_basisPoints_new {x x' : Single} (h : x.le x' = true)
    (limit limit' : Nat) : (new limit x).basisPoints ≤ (new limit' x').basisPoints := by
  have hclamp : (new limit x).nearFraction.value ≤ (new limit' x').nearFraction.value :=
    Binary.value_clamp_le_value_clamp rfl rfl value_smallestFraction_le h
  rw [Binary.le, Bool.and_eq_true, Bool.and_eq_true, bne_iff_ne, bne_iff_ne] at h
  have hsmall := (nearFraction_new_bounds limit h.1.1).1
  exact basisPoints_le_basisPoints (hsmall.trans_lt' (by norm_num)) hclamp
    (nearFraction_new_bounds limit' h.1.2).2

/-- No fraction has more basis points than the whole window. -/
theorem basisPoints_new_le (limit : Nat) (x : Single) : (new limit x).basisPoints ≤ 10000 := by
  by_cases hx : x = .nan
  · -- What is no number counts for nothing.
    rw [hx, basisPoints, new, Binary.clamp_nan rfl]
    exact Nat.zero_le _
  · obtain ⟨hsmall, hone⟩ := nearFraction_new_bounds limit hx
    have hwhole : ({ limit := 1, nearFraction := wholeWindow } : Budget).basisPoints = 10000 := by
      decide +kernel
    rw [← hwhole]
    exact basisPoints_le_basisPoints (hsmall.trans_lt' (by norm_num))
      (hone.trans_eq value_wholeWindow.symm) value_wholeWindow.le

/-! ## The threshold -/

/-- A ten-thousandth, rounded up, in numbers of 64 bits. -/
def quotient64 (product : UInt64) : UInt64 :=
  if product % 10000 = 0 then product / 10000 else product / 10000 + 1

/-- The threshold in the numbers of a machine: the product and the quotient in 64 bits, the result
narrowed to 32 bits. `instead` stands for a quotient that does not fit. -/
def threshold32 (limit : UInt32) (points : UInt64) (instead : UInt32) : UInt32 :=
  let quotient := quotient64 (limit.toUInt64 * points)
  if quotient ≤ 0xFFFFFFFF then quotient.toUInt32 else instead

theorem toNat_quotient64 (product : UInt64) :
    (quotient64 product).toNat = (product.toNat + 9999) / 10000 := by
  have hsize := product.toNat_lt
  rw [quotient64]
  split_ifs with hrest <;> rw [← UInt64.toNat_inj, UInt64.toNat_mod] at hrest
  · rw [UInt64.toNat_div]
    change product.toNat % 10000 = 0 at hrest
    change product.toNat / 10000 = _
    omega
  · rw [UInt64.toNat_add, UInt64.toNat_div]
    change ¬ product.toNat % 10000 = 0 at hrest
    change (product.toNat / 10000 + 1) % 2 ^ 64 = _
    omega

variable {b b' : Budget}

theorem isLeast_threshold (b : Budget) :
    IsLeast {t | b.limit * b.basisPoints ≤ 10000 * t} b.threshold := by
  constructor
  · change b.limit * b.basisPoints ≤ 10000 * b.threshold
    rw [threshold]
    omega
  · intro t ht
    change b.limit * b.basisPoints ≤ 10000 * t at ht
    rw [threshold]
    omega

/-- A larger window with no fewer basis points has no smaller threshold. -/
theorem threshold_le_threshold (hlimit : b.limit ≤ b'.limit)
    (hpoints : b.basisPoints ≤ b'.basisPoints) : b.threshold ≤ b'.threshold := by
  refine b.isLeast_threshold.2 ?_
  calc b.limit * b.basisPoints ≤ b'.limit * b'.basisPoints := Nat.mul_le_mul hlimit hpoints
    _ ≤ 10000 * b'.threshold := b'.isLeast_threshold.1

theorem threshold_le_limit (hpoints : b.basisPoints ≤ 10000) : b.threshold ≤ b.limit := by
  refine b.isLeast_threshold.2 ?_
  calc b.limit * b.basisPoints ≤ b.limit * 10000 := Nat.mul_le_mul_left b.limit hpoints
    _ = 10000 * b.limit := Nat.mul_comm _ _

theorem product_lt (hlimit : b.limit ≤ maxTokens) (hpoints : b.basisPoints ≤ 10000) :
    b.limit * b.basisPoints < 2 ^ 64 := by
  calc b.limit * b.basisPoints ≤ maxTokens * 10000 := Nat.mul_le_mul hlimit hpoints
    _ < 2 ^ 64 := by decide

theorem toNat_threshold32 (hlimit : b.limit ≤ maxTokens) (hpoints : b.basisPoints ≤ 10000)
    (instead : UInt32) :
    (threshold32 (.ofNat b.limit) (.ofNat b.basisPoints) instead).toNat = b.threshold := by
  have hnarrow : b.threshold ≤ maxTokens := (threshold_le_limit hpoints).trans hlimit
  have hproduct : ((UInt32.ofNat b.limit).toUInt64 * UInt64.ofNat b.basisPoints).toNat =
      b.limit * b.basisPoints := by
    rw [UInt64.toNat_mul, UInt32.toNat_toUInt64,
      UInt32.toNat_ofNat_of_lt' (Nat.lt_succ_of_le hlimit),
      UInt64.toNat_ofNat_of_lt' (Nat.lt_of_le_of_lt hpoints (by decide)),
      Nat.mod_eq_of_lt (product_lt hlimit hpoints)]
  have hquotient : (quotient64 ((UInt32.ofNat b.limit).toUInt64 *
      UInt64.ofNat b.basisPoints)).toNat = b.threshold := by
    rw [toNat_quotient64, hproduct, threshold]
  rw [threshold32, if_pos, UInt64.toNat_toUInt32, hquotient]
  · exact Nat.mod_eq_of_lt (Nat.lt_succ_of_le hnarrow)
  · rw [UInt64.le_iff_toNat_le, hquotient]
    exact hnarrow

/-- How the threshold stands to the window and the basis points. -/
structure Exact (b : Budget) : Prop where
  points : b.basisPoints ≤ 10000
  /-- The threshold is the least number of tokens that is so many basis points of the window. -/
  least : IsLeast {t | b.limit * b.basisPoints ≤ 10000 * t} b.threshold
  product : b.limit * b.basisPoints < 2 ^ 64
  /-- A machine gets the same threshold, whatever stands for a quotient that does not fit. -/
  machine : ∀ instead,
    (threshold32 (.ofNat b.limit) (.ofNat b.basisPoints) instead).toNat = b.threshold
  le_limit : b.threshold ≤ b.limit
  /-- A conversation that fills the window is near the limit. -/
  near : b.limit ≤ b.tokens → b.isNear = true

/-- **The threshold is exact.** For every fraction, and whatever window was read, a budget has the
least threshold that is so many basis points of the window, and 64 bits are enough to find it. It is
at most the window, and no smaller for a larger window or a larger fraction. -/
theorem exact_run {limit : Nat} (hlimit : limit ≤ maxTokens) (x : Single) {calls : List BudgetCall}
    (hcalls : ∀ u ∈ readings calls, u.limit ≤ maxTokens) :
    ((new limit x).run calls).1.Exact ∧
      ∀ (limit' : Nat) (x' : Single) (calls' : List BudgetCall), x.le x' = true →
        ((new limit x).run calls).1.limit ≤ ((new limit' x').run calls').1.limit →
          ((new limit x).run calls).1.threshold ≤ ((new limit' x').run calls').1.threshold := by
  obtain ⟨hwindow, hpoints⟩ := (new limit x).window_run calls
  have hlimit' : ((new limit x).run calls).1.limit ≤ maxTokens := by
    rw [hwindow]
    exact windowAfter_induction (p := (· ≤ maxTokens)) (max_le hlimit (by decide))
      fun u hu _ ↦ hcalls u hu
  have hpoints' : ((new limit x).run calls).1.basisPoints ≤ 10000 := by
    rw [hpoints]
    exact basisPoints_new_le limit x
  refine ⟨⟨hpoints', isLeast_threshold _, product_lt hlimit' hpoints',
    toNat_threshold32 hlimit' hpoints', threshold_le_limit hpoints', fun hfull ↦ ?_⟩, ?_⟩
  · exact decide_eq_true ((threshold_le_limit hpoints').trans hfull)
  · intro limit' x' calls' hfraction hlarger
    refine threshold_le_threshold hlarger ?_
    rw [hpoints, ((new limit' x').window_run calls').2]
    exact basisPoints_new_le_basisPoints_new hfraction limit limit'

/-- The largest window and all of it: the product comes nearest to the end of 64 bits. -/
theorem exact_run_widest :
    maxTokens ≤ maxTokens ∧ (∀ u ∈ readings [.observe ⟨maxTokens, maxTokens⟩], u.limit ≤ maxTokens) ∧
      ((new maxTokens wholeWindow).run [.observe ⟨maxTokens, maxTokens⟩]).1.Exact ∧
      ((new maxTokens wholeWindow).run [.observe ⟨maxTokens, maxTokens⟩]).1.threshold = maxTokens :=
  have hcalls : ∀ u ∈ readings [.observe ⟨maxTokens, maxTokens⟩], u.limit ≤ maxTokens := by decide
  ⟨Nat.le_refl _, hcalls, (exact_run (Nat.le_refl _) wholeWindow hcalls).1, by decide +kernel⟩

end ChatStream.Budget
