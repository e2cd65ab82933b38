import Mathlib.Data.List.DropRight
import ChatStream.Decimal.Shortest
import ChatStream.Proofs.Decimal.Floats

/-!
# The digits of a float

What is written for a float is made of the digits of a natural number and of the place where the
first of them stands. `Digits.Proper` says that these digits are a number as one writes it, and
`shortest_spec` that the shortest ones are proper and stand no further left than the float is large,
or one place further where rounding made it longer.

Which decimal was chosen makes no difference to this, so nothing here depends on how near it is.
-/

namespace ChatStream.Decimal

/-! ## Natural numbers -/

theorem ofDigits_toDigits (n : Nat) : ofDigits (toDigits n) = n := by
  have hread := Nat.ofDigitChars_ten_toDigits (n := n)
  rw [Nat.ofDigitChars_eq_foldl] at hread
  simp only [mul_comm (10 : Nat)] at hread
  rw [ofDigits_eq_foldl]
  exact hread

theorem isDigit_of_mem_toDigits {n : Nat} {d : Char} (h : d ∈ toDigits n) : d.isDigit = true :=
  Nat.isDigit_of_mem_toDigits (by decide) (by decide) h

theorem toDigits_ne_nil (n : Nat) : toDigits n ≠ [] := Nat.toDigits_ne_nil

/-- A positive number does not begin with a zero. -/
theorem head?_toDigits {n : Nat} (hn : 0 < n) : (toDigits n).head? ≠ some '0' := by
  induction n using Nat.strongRecOn with
  | ind n ih =>
    rw [toDigits, Nat.toDigits_eq_if (by decide)]
    by_cases hlt : n < 10
    · rw [if_pos hlt]
      interval_cases n <;> decide
    · rw [if_neg hlt, List.head?_append_of_ne_nil _ Nat.toDigits_ne_nil]
      exact ih (n / 10) (by omega) (by omega)

theorem length_toDigits_pos (n : Nat) : 0 < (toDigits n).length :=
  List.length_pos_of_ne_nil (toDigits_ne_nil n)

theorem lt_pow_length_toDigits (n : Nat) : n < 10 ^ (toDigits n).length :=
  (Nat.length_toDigits_le_iff (by decide) (length_toDigits_pos n)).mp (Nat.le_refl _)

theorem pow_length_toDigits_le {n : Nat} (hn : 0 < n) : 10 ^ ((toDigits n).length - 1) ≤ n := by
  rcases Nat.eq_zero_or_pos ((toDigits n).length - 1) with hone | hpos
  · rw [hone]
    exact hn
  · refine not_lt.mp fun hlt ↦ ?_
    have hle := (Nat.length_toDigits_le_iff (b := 10) (by decide) hpos).mpr hlt
    rw [← toDigits] at hle
    omega

theorem floorLog10_bounds {n d : Nat} (hn : 0 < n) (hd : 0 < d) :
    (10 : ℚ) ^ floorLog10 n d ≤ n / d ∧ (n / d : ℚ) < 10 ^ (floorLog10 n d + 1) := by
  have hlast (n : Nat) : (toDigits n).length - 1 + 1 = (toDigits n).length :=
    Nat.sub_add_cancel (length_toDigits_pos n)
  have hlt (n : Nat) : n < 10 ^ ((toDigits n).length - 1 + 1) := by
    rw [hlast]
    exact lt_pow_length_toDigits n
  have hbounds := pow_le_div_and_div_lt (b := 10)
    (e := ((toDigits n).length : Int) - ((toDigits d).length : Int)) (by decide)
    (pow_length_toDigits_le hn) (hlt n) (pow_length_toDigits_le hd) (hlt d) (by
      have hn' := hlast n
      have hd' := hlast d
      omega)
  rw [Nat.cast_ofNat] at hbounds
  exact hbounds

/-! ## Proper digits -/

/-- Decimal digits, at least one, and the first of them no zero. -/
structure Digits.Proper (ds : Digits) : Prop where
  nonempty : ds.digits ≠ []
  isDigit : ∀ d ∈ ds.digits, d.isDigit = true
  head : ds.digits.head? ≠ some '0'

theorem proper_toDigits {n : Nat} (hn : 0 < n) (e : Int) :
    Digits.Proper { digits := toDigits n, exponent := e } where
  nonempty := toDigits_ne_nil n
  isDigit _ hd := isDigit_of_mem_toDigits hd
  head := head?_toDigits hn

theorem Digits.proper_of {c : Nat} (hc : 0 < c) (t : Int) : (Digits.of c t).Proper := by
  have hdigits : (Digits.of c t).digits = (toDigits c).rdropWhile (· = '0') := rfl
  have hsuffix : (Digits.of c t).digits <+: toDigits c := hdigits ▸ List.rdropWhile_prefix _ _
  have hne : (Digits.of c t).digits ≠ [] := by
    rw [hdigits, Ne, List.rdropWhile_eq_nil_iff]
    intro hzeros
    obtain ⟨d, ds, hcons⟩ := List.exists_cons_of_ne_nil (toDigits_ne_nil c)
    have hzero := of_decide_eq_true (hzeros d (hcons ▸ List.mem_cons_self))
    exact head?_toDigits hc (by rw [hcons, hzero]; rfl)
  refine ⟨hne, fun d hd ↦ isDigit_of_mem_toDigits (hsuffix.mem hd), fun hzero ↦ ?_⟩
  obtain ⟨rest, hrest⟩ := hsuffix
  refine head?_toDigits hc ?_
  rw [← hrest, List.head?_append_of_ne_nil _ hne, hzero]

/-- The first digit stands no further left than the number is large. -/
theorem Digits.exponent_of_le {c : Nat} (hc : 0 < c) {t k : Int} (h : (c : ℚ) * 10 ^ t ≤ 10 ^ k) :
    (Digits.of c t).exponent ≤ k := by
  have hlen := length_toDigits_pos c
  have hfirst : (10 : ℚ) ^ (Digits.of c t).exponent ≤ c * 10 ^ t := by
    have hexp : (Digits.of c t).exponent = ((toDigits c).length - 1 : Nat) + t := by
      rw [Digits.of]
      dsimp only
      omega
    rw [hexp, zpow_add₀ (by norm_num), zpow_natCast]
    gcongr
    exact_mod_cast pow_length_toDigits_le hc
  exact (zpow_le_zpow_iff_right₀ (by norm_num)).mp (hfirst.trans h)

/-! ## The shortest digits -/

section
variable {f : Format} {tie : Tie} {m c : Nat} {e t k : Int}

/-- What is found on a grid is one of the two neighbours there, and is not nought. -/
theorem onGrid?_le {r : Rounding} (h : r.onGrid? tie t = some c) :
    0 < c ∧ c ≤ (scaled r.mid 2 r.exponent).1 * (scaled 1 10 t).2 /
      ((scaled r.mid 2 r.exponent).2 * (scaled 1 10 t).1) + 1 := by
  rw [Rounding.onGrid?] at h
  dsimp only at h
  generalize (scaled r.mid 2 r.exponent).1 * (scaled 1 10 t).2 = num at h ⊢
  generalize (scaled r.mid 2 r.exponent).2 * (scaled 1 10 t).1 = den at h ⊢
  generalize num / den = q at h ⊢
  generalize num % den = rest at h
  have hpos (h : (r.holds q t && q != 0) = true) : 0 < q := by
    rw [Bool.and_eq_true, bne_iff_ne] at h
    exact Nat.pos_of_ne_zero h.2
  split at h
  · rename_i hbelow _
    have hq := hpos hbelow
    cases h
    omega
  · cases h
    omega
  · cases h
  · rename_i hbelow _
    have hq := hpos hbelow
    cases tie <;> split_ifs at h <;> cases h <;> omega

/-- A decimal found on a grid is no further up than the next power of ten. -/
theorem onGrid?_mul_pow_le (h : (Rounding.of f m e).onGrid? tie t = some c)
    (hk : (m : ℚ) * 2 ^ e < 10 ^ k) (htk : t ≤ k) : (c : ℚ) * 10 ^ t ≤ 10 ^ k := by
  have hmid := scaled_div (Rounding.of f m e).mid Nat.two_pos (Rounding.of f m e).exponent
  have hd := scaled_snd_pos (Rounding.of f m e).mid Nat.two_pos (Rounding.of f m e).exponent
  have hratio := ratio_scaled (b := 10) (scaled (Rounding.of f m e).mid 2
    (Rounding.of f m e).exponent).1 (by decide) hd t
  have hden := den_scaled_pos (b := 10) (by decide) hd t
  have hle := (onGrid?_le h).2
  have hvalue : ((Rounding.of f m e).mid : ℚ) * 2 ^ (Rounding.of f m e).exponent = m * 2 ^ e := by
    rw [Rounding.of]
    dsimp only
    rw [zpow_sub₀ two_ne_zero]
    push_cast
    ring
  have hunits := pow_toNat_mul_zpow (b := 10) (by decide) htk
  rw [Nat.cast_ofNat] at hmid hratio hunits
  rw [hmid, hvalue] at hratio
  generalize (scaled (Rounding.of f m e).mid 2 (Rounding.of f m e).exponent).1 *
    (scaled 1 10 t).2 = num at hle hratio
  generalize (scaled (Rounding.of f m e).mid 2 (Rounding.of f m e).exponent).2 *
    (scaled 1 10 t).1 = den at hle hratio hden
  have hbelow : num / den < 10 ^ (k - t).toNat := by
    rw [Nat.div_lt_iff_lt_mul hden, ← @Nat.cast_lt ℚ, Nat.cast_mul,
      ← div_lt_iff₀ (by exact_mod_cast hden), hratio, div_lt_iff₀ (by positivity), hunits]
    exact hk
  calc (c : ℚ) * 10 ^ t ≤ ((10 ^ (k - t).toNat : Nat) : ℚ) * 10 ^ t := by
        gcongr
        exact hle.trans hbelow
    _ = 10 ^ k := hunits

/-- The shortest digits of a positive float. -/
theorem shortest_spec (f : Format) (tie : Tie) (hm : 0 < m) (hnonneg : 0 ≤ k)
    (hk : (m : ℚ) * 2 ^ e < 10 ^ k) :
    (shortest f tie m e).Proper ∧ (shortest f tie m e).exponent ≤ k := by
  rw [shortest]
  dsimp only
  split
  · rename_i ds hds
    obtain ⟨t, ht, hgrid⟩ := List.exists_of_findSome?_eq_some hds
    obtain ⟨c, hc, rfl⟩ := Option.map_eq_some_iff.mp hgrid
    obtain ⟨i, -, rfl⟩ := List.mem_map.mp ht
    have hpos := (onGrid?_le hc).1
    have hvalue := scaled_div m Nat.two_pos e
    rw [Nat.cast_ofNat] at hvalue
    have hfloor := (floorLog10_bounds (scaled_fst_pos hm Nat.two_pos e)
      (scaled_snd_pos m Nat.two_pos e)).1
    rw [hvalue] at hfloor
    have hlog := (zpow_lt_zpow_iff_right₀ (by norm_num)).mp (hfloor.trans_lt hk)
    exact ⟨Digits.proper_of hpos _,
      Digits.exponent_of_le hpos (onGrid?_mul_pow_le hc hk (by omega))⟩
  · exact ⟨proper_toDigits hm 0, hnonneg⟩

end

/-! ## Numerals -/

/-- A numeral as one writes it: digits on both sides of the point, and no zero before another
digit. -/
structure Numeral.Proper (n : Numeral) : Prop where
  whole : n.whole ≠ [] ∧ ∀ d ∈ n.whole, d.isDigit = true
  zero : n.whole.head? = some '0' → n.whole = ['0']
  fraction : ∀ ds, n.fraction = some ds → ds ≠ [] ∧ ∀ d ∈ ds, d.isDigit = true

namespace Numeral

theorem proper_ofInt (n : Int) : (ofInt n).Proper := by
  have hdigits (k : Nat) : toDigits k ≠ [] ∧ ∀ d ∈ toDigits k, d.isDigit = true :=
    ⟨toDigits_ne_nil k, fun _ hd ↦ isDigit_of_mem_toDigits hd⟩
  cases n with
  | ofNat k =>
    refine ⟨hdigits k, fun hzero ↦ ?_, nofun⟩
    rcases Nat.eq_zero_or_pos k with rfl | hk
    · rfl
    · exact absurd hzero (head?_toDigits hk)
  | negSucc k =>
    exact ⟨hdigits (k + 1), fun hzero ↦ absurd hzero (head?_toDigits k.succ_pos), nofun⟩

end Numeral

section
variable {ds : Digits}

/-- Digits in front of the point or behind it, as a layout takes them from the digits of a float. -/
theorem Digits.Proper.append (hds : ds.Proper) {zeros : List Char} (hzeros : ∀ d ∈ zeros, d = '0') :
    (ds.digits ++ zeros ≠ [] ∧ ∀ d ∈ ds.digits ++ zeros, d.isDigit = true) ∧
      (ds.digits ++ zeros).head? ≠ some '0' := by
  refine ⟨⟨List.append_ne_nil_of_left_ne_nil hds.nonempty _, ?_⟩, ?_⟩
  · refine List.forall_mem_append.mpr ⟨hds.isDigit, fun d hd ↦ ?_⟩
    rw [hzeros d hd]
    rfl
  · rw [List.head?_append_of_ne_nil _ hds.nonempty]
    exact hds.head

theorem Digits.Proper.take (hds : ds.Proper) {k : Nat} (hk : 0 < k) :
    (ds.digits.take k ≠ [] ∧ ∀ d ∈ ds.digits.take k, d.isDigit = true) ∧
      (ds.digits.take k).head? ≠ some '0' := by
  refine ⟨⟨?_, fun d hd ↦ hds.isDigit d (List.mem_of_mem_take hd)⟩, ?_⟩
  · rw [Ne, List.take_eq_nil_iff, not_or]
    exact ⟨hk.ne', hds.nonempty⟩
  · rw [List.head?_take, if_neg hk.ne']
    exact hds.head

theorem Digits.Proper.drop (hds : ds.Proper) {k : Nat} (hk : k < ds.digits.length) :
    ds.digits.drop k ≠ [] ∧ ∀ d ∈ ds.digits.drop k, d.isDigit = true :=
  ⟨List.drop_eq_nil_iff.not.mpr (not_le.mpr hk), fun d hd ↦ hds.isDigit d (List.mem_of_mem_drop hd)⟩

theorem proper_arrange (hds : ds.Proper) (l : Layout) (negative : Bool) :
    (l.arrange negative ds).Proper := by
  have hzeros (n : Nat) : ∀ d ∈ List.replicate n '0', d = '0' :=
    fun d hd ↦ List.eq_of_mem_replicate hd
  rw [Layout.arrange]
  split_ifs with hplain hsmall hwhole hpoint hshort
  · refine ⟨⟨List.cons_ne_nil _ _, by simp⟩, fun _ ↦ rfl, ?_⟩
    rintro _ ⟨⟩
    refine ⟨List.append_ne_nil_of_right_ne_nil _ hds.nonempty, ?_⟩
    refine List.forall_mem_append.mpr ⟨fun d hd ↦ ?_, hds.isDigit⟩
    rw [hzeros _ d hd]
    rfl
  · obtain ⟨hdigits, hhead⟩ := hds.append (hzeros (ds.exponent + 1 - ds.digits.length).toNat)
    refine ⟨hdigits, fun hzero ↦ absurd hzero hhead, ?_⟩
    rintro _ ⟨⟩
    exact ⟨List.cons_ne_nil _ _, by simp⟩
  · obtain ⟨hdigits, hhead⟩ := hds.append (hzeros (ds.exponent + 1 - ds.digits.length).toNat)
    exact ⟨hdigits, fun hzero ↦ absurd hzero hhead, nofun⟩
  · obtain ⟨hdigits, hhead⟩ := hds.take (k := (ds.exponent + 1).toNat) (by omega)
    refine ⟨hdigits, fun hzero ↦ absurd hzero hhead, ?_⟩
    rintro _ ⟨⟩
    exact hds.drop (by omega)
  · obtain ⟨hdigits, hhead⟩ := hds.take Nat.one_pos
    exact ⟨hdigits, fun hzero ↦ absurd hzero hhead, nofun⟩
  · obtain ⟨hdigits, hhead⟩ := hds.take Nat.one_pos
    refine ⟨hdigits, fun hzero ↦ absurd hzero hhead, ?_⟩
    rintro _ ⟨⟩
    exact hds.drop (by omega)

/-- How many digits stand before the point, the exponent taken into account. -/
theorem length_whole_arrange (l : Layout) (negative : Bool) (ds : Digits) :
    ((l.arrange negative ds).whole.length : Int) + (l.arrange negative ds).exponent.getD 0 ≤
      max 1 (ds.exponent + 1) := by
  rw [Layout.arrange]
  split_ifs with hplain hsmall hwhole hpoint hshort
  · simp
  · simp only [List.length_append, List.length_replicate, Option.getD_none]
    omega
  · simp only [List.length_append, List.length_replicate, Option.getD_none]
    omega
  · simp only [List.length_take, Option.getD_none]
    omega
  · simp only [List.length_take, Option.getD_some]
    omega
  · simp only [List.length_take, Option.getD_some]
    omega

end

/-- What is written for a finite float. -/
theorem exists_numeral? {f : Format} (l : Layout) {x : Binary f} (hx : x.isFinite = true) {k : Int}
    (hnonneg : 0 ≤ k) (hk : |x.value| < 10 ^ k) :
    ∃ n, l.numeral? x = some n ∧ n.Proper ∧ (n.whole.length : Int) + n.exponent.getD 0 ≤ k + 1 := by
  obtain ⟨s, m, e, rfl⟩ := Binary.exists_of_isFinite hx
  cases m with
  | zero =>
    refine ⟨_, rfl, ⟨⟨List.cons_ne_nil _ _, by simp⟩, fun _ ↦ rfl, ?_⟩, by simpa using hnonneg⟩
    dsimp only
    split_ifs
    · rintro _ ⟨⟩
      exact ⟨List.cons_ne_nil _ _, by simp⟩
    · exact nofun
  | succ m =>
    rw [Binary.abs_value_finite] at hk
    obtain ⟨hproper, hexp⟩ := shortest_spec f l.tie (Nat.add_one_pos m) hnonneg hk
    have hlength := length_whole_arrange l s (shortest f l.tie (m + 1) e)
    exact ⟨_, rfl, proper_arrange hproper l s, by omega⟩

end ChatStream.Decimal
