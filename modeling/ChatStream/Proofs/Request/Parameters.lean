import ChatStream.Proofs.Decimal.Floats
import ChatStream.Request

/-!
# Sampling parameters as numbers

The bounds of a temperature and of a nucleus threshold are written in tenths, and whole numbers of
tenths are exact (`value_tenths`). So a parameter that was moved between its bounds is between these
numbers, or else no number at all, for a NaN is neither below the one nor above the other
(`within_clamp_tenths`).

`Sampling.Ranged` is what can be said of parameters that were treated so wherever they came from. It
bounds their values, so that they fit what is written for them (`Sampling.Fits`), but it does not
make them numbers (`Sampling.isFinite`).
-/

namespace ChatStream

open Decimal

/-! ## Tenths -/

theorem value_tenths {k : Nat} (hk : k < 2 ^ 24) :
    (tenths (k * 10)).isFinite = true ∧ (tenths (k * 10)).value = k :=
  Binary.value_ofRatio_mul (by decide) (by decide) (by decide) hk (by decide)

theorem within_clamp_tenths {k l : Nat} (hkl : k ≤ l) (hl : l < 2 ^ 24) (x : Single) :
    (Binary.clamp (tenths (k * 10)) (tenths (l * 10)) x).Within k l := by
  obtain ⟨hlo, hk⟩ := value_tenths (hkl.trans_lt hl)
  obtain ⟨hhi, hl⟩ := value_tenths hl
  have hle : (tenths (k * 10)).value ≤ (tenths (l * 10)).value := by
    rw [hk, hl]
    exact_mod_cast hkl
  have hwithin := Binary.within_clamp hlo hhi hle x
  rwa [hk, hl] at hwithin

theorem within_clampTemperature (x : Single) : (clampTemperature x).Within 0 2 := by
  exact_mod_cast within_clamp_tenths (k := 0) (l := 2) (by decide) (by decide) x

theorem within_clampTopP (x : Single) : (clampTopP x).Within 0 1 := by
  exact_mod_cast within_clamp_tenths (k := 0) (l := 1) (by decide) (by decide) x

/-! ## Parameters -/

theorem abs_value_single_le (s : Bool) (n : Nat) {d : Nat} (hd : 0 < d) :
    |(Binary.ofRatio s n d : Single).value| ≤ 2 ^ 128 := by
  have hle := Binary.abs_value_ofRatio_le_last (f := .single) s n (by decide) hd
  have hlast : (2 : ℚ) ^ (Format.single.highest + Format.single.precision) = 2 ^ 128 := by
    norm_num [Format.single]
  rwa [hlast] at hle

namespace Sampling

/-- Whether all parameters are numbers. -/
def isFinite (p : Sampling) : Bool :=
  p.temperature.isFinite && p.topP.isFinite && p.repeatPenalty.isFinite

/-- The parameters are of a size that their formats have. -/
structure Fits (p : Sampling) : Prop where
  temperature : |p.temperature.value| ≤ 2 ^ 128
  topP : |p.topP.value| ≤ 2 ^ 128
  topK : p.topK ≤ 0xFFFFFFFF
  repeatPenalty : |p.repeatPenalty.value| ≤ 2 ^ 128

/-- What holds of sampling parameters from every layer of settings. -/
structure Ranged (p : Sampling) : Prop where
  temperature : p.temperature.Within 0 2
  topP : p.topP.Within 0 1
  topK : p.topK ≤ 0xFFFFFFFF
  repeatPenalty : |p.repeatPenalty.value| ≤ 2 ^ 128

theorem Ranged.fits {p : Sampling} (h : p.Ranged) : p.Fits where
  temperature := h.temperature.abs_value_le (by norm_num) (by norm_num) (by norm_num)
  topP := h.topP.abs_value_le (by norm_num) (by norm_num) (by norm_num)
  topK := h.topK
  repeatPenalty := h.repeatPenalty

theorem ranged_default : Sampling.default.Ranged where
  temperature := by
    have hinside : Sampling.default.temperature = clampTemperature (tenths 7) := by decide +kernel
    rw [hinside]
    exact within_clampTemperature _
  topP := by
    have hinside : Sampling.default.topP = clampTopP (tenths 9) := by decide +kernel
    rw [hinside]
    exact within_clampTopP _
  topK := by decide +kernel
  repeatPenalty := by
    have hrounded : Sampling.default.repeatPenalty = .ofRatio false 11 10 := rfl
    rw [hrounded]
    exact abs_value_single_le false 11 (by decide)

end Sampling

end ChatStream
