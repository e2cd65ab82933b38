import ChatStream.Config.Basic
import ChatStream.Proofs.Budget.Calls
import ChatStream.Proofs.Request.Parameters

/-!
# The threshold of accepted settings

Settings are accepted with any positive fraction of the window up to the whole of it. The threshold
is counted in whole basis points, though, and a fraction below half a basis point counts for none:
the threshold is then nought, and a conversation without a single token is at it.

`Budget.run_emptied` says for accepted settings which of the two it is, once and for all readings to
come. From `leastFraction` on, an empty conversation is away from the limit, and the next notice is
due as soon as the conversation comes near. Below, every conversation is near the limit from its
first reading on, and only this first reading has a notice. The bound is not half a basis point but
a little less, since the product with ten thousand is itself rounded to a float.
-/

namespace ChatStream

open Decimal

namespace Config

/-- What accepted settings say about the window. -/
theorem window_of_validate {c : Config} (hc : c.validate = .ok ()) :
    1 ≤ c.contextLimit ∧ c.nearFraction.isFinite = true ∧ 0 < c.nearFraction.value ∧
      c.nearFraction.value ≤ 1 := by
  rw [validate] at hc
  split_ifs at hc with _ _ _ hlimit hfraction
  rw [Bool.not_eq_true', Bool.not_eq_false, Bool.and_eq_true] at hfraction
  obtain ⟨hpos, hle⟩ := hfraction
  obtain ⟨hlo, hzero⟩ := value_tenths (k := 0) (by decide)
  obtain ⟨hhi, hone⟩ := value_tenths (k := 1) (by decide)
  have hfinite := Binary.isFinite_of_lt_of_le hlo hhi hpos hle
  have hpos' := (Binary.lt_iff hlo hfinite).mp hpos
  have hle' := (Binary.le_iff hfinite hhi).mp hle
  rw [hzero, Nat.cast_zero] at hpos'
  rw [hone, Nat.cast_one] at hle'
  exact ⟨Nat.one_le_iff_ne_zero.mpr hlimit, hfinite, hpos', hle'⟩

end Config

namespace Budget

/-! ## The least fraction that counts -/

/-- The least fraction that counts for a basis point: half a basis point, less what rounding to
twenty-four bits adds to its multiple. -/
def leastFraction : ℚ := (1 / 2 - 1 / 2 ^ 26) / 10000

theorem value_smallestFraction : smallestFraction.value = 1 / 2 ^ 23 := by
  rw [smallestFraction, Binary.value]
  norm_num

theorem value_wholeWindow : wholeWindow.value = 1 := by
  rw [wholeWindow, Binary.value]
  norm_num

theorem value_smallestFraction_le : smallestFraction.value ≤ wholeWindow.value := by
  rw [value_smallestFraction, value_wholeWindow]
  norm_num

/-- The fraction of a new budget is one in use. -/
theorem value_nearFraction_new (limit : Nat) {x : Single} (hx : x.isFinite = true)
    (hone : x.value ≤ 1) : (new limit x).nearFraction.value = max (1 / 2 ^ 23) x.value := by
  have hclamp := (Binary.value_clamp rfl rfl hx value_smallestFraction_le).2
  rw [value_smallestFraction, value_wholeWindow, min_eq_right hone] at hclamp
  exact hclamp

/-- A fraction counts for a basis point from the least one on. -/
theorem one_le_basisPoints_new_iff (limit : Nat) {x : Single} (hx : x.isFinite = true)
    (hone : x.value ≤ 1) : 1 ≤ (new limit x).basisPoints ↔ leastFraction ≤ x.value := by
  have hfraction := value_nearFraction_new limit hx hone
  have hsmall : (1 / 2 ^ 23 : ℚ) ≤ (new limit x).nearFraction.value := hfraction ▸ le_max_left _ _
  have hlarge : (new limit x).nearFraction.value ≤ 1 := by
    rw [hfraction]
    exact max_le (by norm_num) hone
  have hrange : ((10000 : Nat) : ℚ) * (new limit x).nearFraction.value <
      2 ^ (Format.single.highest + Format.single.precision - 1) := by
    calc ((10000 : Nat) : ℚ) * (new limit x).nearFraction.value ≤ 10000 * 1 := by
          push_cast
          gcongr
      _ < 2 ^ (Format.single.highest + Format.single.precision - 1) := by norm_num [Format.single]
  have hrounded := Binary.two_pow_le_value_scaleUp_iff (f := .single) (by decide) (by decide)
    (hsmall.trans_lt' (by norm_num)) (by decide) hrange (show -149 ≤ (-1 : Int) - 24 by decide)
  have hbound : ((2 : ℚ) - 2 ^ (-(Format.single.precision : Int))) * 2 ^ (-1 - 1 : Int) =
      10000 * leastFraction := by
    rw [leastFraction]
    norm_num [Format.single]
  have hhalf : (1 / 2 : ℚ) = 2 ^ (-1 : Int) := by norm_num
  -- The smallest fraction in use is itself too small to count.
  have htiny : (1 / 2 ^ 23 : ℚ) < leastFraction := by
    rw [leastFraction]
    norm_num
  rw [basisPoints, Binary.one_le_roundToNat_iff, hhalf, hrounded, hbound, Nat.cast_ofNat,
    mul_le_mul_iff_right₀ (by norm_num : (0 : ℚ) < 10000), hfraction, le_max_iff]
  exact or_iff_right (not_le.mpr htiny)

/-- A threshold is positive if and only if the fraction counts for a basis point. -/
theorem one_le_threshold_iff {b : Budget} (hlimit : 1 ≤ b.limit) :
    1 ≤ b.threshold ↔ 1 ≤ b.basisPoints := by
  have hproduct : 1 ≤ b.limit * b.basisPoints ↔ 1 ≤ b.basisPoints := by
    rw [Nat.one_le_iff_ne_zero, Nat.mul_ne_zero_iff, Nat.one_le_iff_ne_zero]
    exact and_iff_right (Nat.one_le_iff_ne_zero.mp hlimit)
  rw [threshold, ← hproduct]
  omega

/-! ## In the course of calls -/

section
variable (b : Budget) (calls : List BudgetCall)

/-- Calls move the window and leave the fraction. -/
theorem window_run : (b.run calls).1.limit = windowAfter b.limit (readings calls) ∧
    (b.run calls).1.basisPoints = b.basisPoints := by
  have hafter := b.after_run calls
  have hlimit := congrArg Budget.limit hafter
  have hfraction := congrArg Budget.nearFraction hafter
  rw [limit_after] at hlimit
  rw [nearFraction_after] at hfraction
  dsimp only at hlimit hfraction
  exact ⟨hlimit, by rw [basisPoints, hfraction, basisPoints]⟩

end

/-- An empty conversation is away from the limit. -/
structure Resets (b : Budget) : Prop where
  positive : 1 ≤ b.threshold
  /-- A reading of no tokens has no notice. -/
  quiet : ∀ u : Usage, u.tokens = 0 → (b.observe u).2 = none
  /-- The reading after it has one if it is near the limit. -/
  rearms : ∀ u v : Usage, u.tokens = 0 → ((b.observe u).1.observe v).2 =
    if ((b.observe u).1.observe v).1.isNear then
      some { tokens := v.tokens, limit := (b.observe u).1.windowFor v.limit }
    else none

/-- Every conversation is near the limit, and its first reading is the only one to say so. -/
structure Stuck (b : Budget) (calls : List BudgetCall) : Prop where
  threshold : (b.run calls).1.threshold = 0
  only_first : ∀ i, (b.announcements calls)[i]? = (readings calls)[i]?.map fun u ↦
    if i = 0 then some { tokens := u.tokens, limit := b.windowFor u.limit } else none

theorem resets {b : Budget} (hlimit : 1 ≤ b.limit) (hpoints : 1 ≤ b.basisPoints) : b.Resets := by
  have hfar {limit : Nat} (hlimit : 1 ≤ limit) : b.nearAt limit 0 = false := by
    have hpos : 1 ≤ ({ b with limit } : Budget).threshold :=
      (one_le_threshold_iff hlimit).mpr hpoints
    rw [nearAt, decide_eq_false_iff_not]
    omega
  have hwindow (limit : Nat) : 1 ≤ b.windowFor limit := by
    rw [windowFor]
    split_ifs with h
    · exact h
    · exact hlimit
  refine ⟨(one_le_threshold_iff hlimit).mpr hpoints, fun u hu ↦ ?_, fun u v hu ↦ ?_⟩
  · rw [observe_eq, hu, hfar (hwindow u.limit)]
    rfl
  · have hnotified : (b.observe u).1.notified = false := by
      rw [observe_eq, hu, hfar (hwindow u.limit)]
    generalize (b.observe u).1 = b at hnotified
    have hnear : (b.observe v).1.isNear = b.nearAt (b.windowFor v.limit) v.tokens := by
      rw [observe_eq]
      rfl
    rw [hnear, observe_eq]
    simp only [hnotified, and_true]

theorem stuck {b : Budget} (hpoints : b.basisPoints = 0) (hnew : b.notified = false)
    (calls : List BudgetCall) : b.Stuck calls := by
  have hthreshold {b : Budget} (hpoints : b.basisPoints = 0) : b.threshold = 0 := by
    rw [Budget.threshold, hpoints, Nat.mul_zero]
  have hnear (limit tokens : Nat) : b.nearAt limit tokens = true := by
    rw [nearAt, hthreshold (b := { b with limit }) hpoints]
    exact decide_eq_true (Nat.zero_le _)
  refine ⟨hthreshold ((b.window_run calls).2.trans hpoints), fun i ↦ ?_⟩
  have hall {j : Nat} (hj : j < (readings calls).length) :
      b.isNearAt (readings calls) j = true := by
    rw [isNearAt, List.getElem?_eq_getElem hj, Option.any_some, hnear]
  rw [announcements_eq, getElem?_notices]
  refine Option.map_congr fun u hu ↦ ?_
  obtain ⟨hi, rfl⟩ := List.getElem?_eq_some_iff.mp hu
  cases i with
  | zero =>
    have htake : (readings calls).take 1 = [(readings calls)[0]] := by
      rw [← List.take_append_getElem hi]
      rfl
    rw [if_pos ⟨hall hi, hnew⟩, if_pos rfl, htake, ← List.nil_append [(readings calls)[0]],
      windowAfter_append_singleton]
    rfl
  | succ i =>
    have hbefore : b.wasNear (readings calls) (i + 1) = true := hall (Nat.lt_of_succ_lt hi)
    rw [if_neg (by simp [hbefore]), if_neg i.succ_ne_zero]

/-- **An empty conversation.** Of accepted settings, those whose fraction counts for a basis point
keep an empty conversation away from the limit, whatever has been read; under the others every
conversation is near the limit, and only its first reading has a notice. -/
theorem run_emptied {c : Config} (hc : c.validate = .ok ()) (calls : List BudgetCall) :
    (leastFraction ≤ c.nearFraction.value →
        ((new c.contextLimit c.nearFraction).run calls).1.Resets) ∧
      (c.nearFraction.value < leastFraction →
        (new c.contextLimit c.nearFraction).Stuck calls) := by
  obtain ⟨hlimit, hfinite, -, hone⟩ := Config.window_of_validate hc
  have hcounts := one_le_basisPoints_new_iff c.contextLimit hfinite hone
  have hnew : 1 ≤ (new c.contextLimit c.nearFraction).limit := Nat.le_max_right _ 1
  obtain ⟨hwindow, hpoints⟩ := (new c.contextLimit c.nearFraction).window_run calls
  constructor
  · intro hleast
    refine resets ?_ ?_
    · rw [hwindow]
      exact windowAfter_induction hnew fun _ _ hu ↦ hu
    · rw [hpoints]
      exact hcounts.mpr hleast
  · intro hsmall
    refine stuck ?_ rfl calls
    have hnone := mt hcounts.mp (not_le.mpr hsmall)
    omega

/-- Two neighbouring floats, one on either side of the least fraction. -/
theorem run_emptied_neighbours :
    let near : Config := { contextLimit := 1, nearFraction := .finite false 13743895 (-38) }
    let below : Config := { contextLimit := 1, nearFraction := .finite false 13743894 (-38) }
    let calls := [BudgetCall.observe ⟨7, 0⟩, .requestSummary, .observe ⟨0, 30⟩]
    (near.validate = .ok () ∧ ((new near.contextLimit near.nearFraction).run calls).1.Resets) ∧
      (below.validate = .ok () ∧ (new below.contextLimit below.nearFraction).Stuck calls) := by
  intro near below calls
  have hnear : near.validate = .ok () := by decide +kernel
  have hbelow : below.validate = .ok () := by decide +kernel
  refine ⟨⟨hnear, (run_emptied hnear calls).1 ?_⟩, hbelow, (run_emptied hbelow calls).2 ?_⟩
  · norm_num [near, leastFraction, Binary.value]
  · norm_num [below, leastFraction, Binary.value]

/-- A hundred-thousandth of the window is accepted, and is no threshold. -/
theorem threshold_eq_zero_of_tiny :
    ¬∀ (c : Config) (calls : List BudgetCall), c.validate = .ok () →
      1 ≤ ((new c.contextLimit c.nearFraction).run calls).1.threshold := by
  intro h
  have hpos := h { contextLimit := 100, nearFraction := .ofRatio false 1 100000 } []
    (by decide +kernel)
  revert hpos
  decide +kernel

end Budget

end ChatStream
