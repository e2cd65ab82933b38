import ChatStream.Json.Value
import ChatStream.Proofs.Decimal.Digits
import ChatStream.Proofs.Json.Grammar

/-!
# Numbers as they are written

A number that is written is read back as a numeral, and what that numeral denotes is a number again
unless it is too large. Both have to be said of the numerals that are written for floats and for
integers: they are spelled by their own characters (`numeralSpelled_chars`), and those of a moderate
size denote numbers (`isSome_ofNumeral?`).

Which number it is that comes back is not said here.
-/

namespace ChatStream.Json

open Decimal

/-! ## Spelling -/

theorem isDigits_toDigits (n : Nat) : IsDigits (toDigits n) :=
  ⟨toDigits_ne_nil n, fun _ hd ↦ isDigit_of_mem_toDigits hd⟩

theorem exponentSpelled_exponentChars (e : Int) :
    ExponentSpelled (some e) (Numeral.exponentChars e) := by
  cases e with
  | ofNat k =>
    have hspelled := ExponentSpelled.plus (.inl rfl) (isDigits_toDigits k)
    rw [ofDigits_toDigits] at hspelled
    exact hspelled
  | negSucc k =>
    have hspelled := ExponentSpelled.minus (.inl rfl) (isDigits_toDigits (k + 1))
    rw [ofDigits_toDigits] at hspelled
    exact hspelled

theorem fractionSpelled_chars (fraction : Option (List Char)) :
    (∀ ds, fraction = some ds → IsDigits ds) →
      FractionSpelled fraction (match fraction with | some ds => '.' :: ds | none => []) := by
  intro h
  cases fraction with
  | none => exact .none
  | some ds => exact .some (h ds rfl)

theorem exponentSpelled_chars (exponent : Option Int) :
    ExponentSpelled exponent
      (match exponent with | some e => Numeral.exponentChars e | none => []) := by
  cases exponent with
  | none => exact .none
  | some e => exact exponentSpelled_exponentChars e

/-- A proper numeral is spelled by its characters. -/
theorem numeralSpelled_chars {n : Numeral} (h : n.Proper) : NumeralSpelled n n.chars := by
  have hfraction := fractionSpelled_chars n.fraction h.fraction
  have hexponent := exponentSpelled_chars n.exponent
  have hspelled : NumeralSpelled n _ := NumeralSpelled.mk h.whole h.zero hfraction hexponent
  rw [← List.append_assoc, ← List.append_assoc] at hspelled
  exact hspelled

/-! ## Significands -/

namespace Significand

/-- Digits that are taken one by one, each of which makes the exponent larger by at most `k`. -/
theorem foldl_bounds {take : Significand → Char → Significand} {k : Nat}
    (htake : ∀ s d, s.kept < wordBound →
      (take s d).kept < wordBound ∧ (take s d).exponent ≤ s.exponent + k)
    (ds : List Char) {s : Significand} (hs : s.kept < wordBound) :
    (ds.foldl take s).kept < wordBound ∧
      (ds.foldl take s).exponent ≤ s.exponent + ds.length * k := by
  induction ds generalizing s with
  | nil => exact ⟨hs, by simp⟩
  | cons d ds ih =>
    obtain ⟨hkept, hexponent⟩ := htake s d hs
    obtain ⟨hkept', hexponent'⟩ := ih hkept
    refine ⟨hkept', hexponent'.trans ?_⟩
    rw [List.length_cons, Nat.cast_add, Nat.cast_one, add_mul]
    omega

theorem takeWhole_bounds (s : Significand) (d : Char) (hs : s.kept < wordBound) :
    (s.takeWhole d).kept < wordBound ∧ (s.takeWhole d).exponent ≤ s.exponent + (1 : Nat) := by
  rw [takeWhole]
  split_ifs with hfull
  · exact ⟨hs, Int.le_refl _⟩
  · rw [Bool.or_eq_true, not_or, decide_eq_true_eq, not_le] at hfull
    exact ⟨hfull.2, by simp⟩

theorem takeFraction_bounds (s : Significand) (d : Char) (hs : s.kept < wordBound) :
    (s.takeFraction d).kept < wordBound ∧ (s.takeFraction d).exponent ≤ s.exponent + (0 : Nat) := by
  rw [takeFraction]
  split_ifs with hfull
  · exact ⟨hs, by simp⟩
  · rw [Bool.or_eq_true, not_or, decide_eq_true_eq, not_le] at hfull
    exact ⟨hfull.2, by simp⟩

/-- The digits kept fit a word, and only those before the point count more than they stand for. -/
theorem of_bounds (n : Numeral) :
    (of n).kept < wordBound ∧ (of n).exponent ≤ n.whole.length + n.exponent.getD 0 := by
  have hstart : ({} : Significand).kept < wordBound := by decide
  obtain ⟨hkept, hexponent⟩ := foldl_bounds takeWhole_bounds n.whole hstart
  obtain ⟨hkept', hexponent'⟩ := foldl_bounds takeFraction_bounds (n.fraction.getD [])
    (s := { n.whole.foldl takeWhole {} with full := false }) hkept
  refine ⟨hkept', add_le_add_left (hexponent'.trans ?_) _⟩
  rw [Nat.cast_zero, mul_zero, add_zero]
  rw [Nat.cast_one, mul_one] at hexponent
  exact hexponent.trans (zero_add _).le

end Significand

/-! ## Numbers -/

theorem tenPower_le {k : Nat} (hk : k ≤ 40) : tenPower k ≤ 2 ^ 140 := by
  have hall : ∀ k < 41, tenPower k ≤ 2 ^ 140 := by decide +kernel
  exact hall k (Nat.lt_succ_of_le hk)

/-- Downwards there is always a number. -/
theorem isSome_scaleDouble?_of_neg {e : Int} (he : e < 0) (x : Double) (steps : Nat) :
    (scaleDouble? x e steps).isSome = true := by
  induction steps generalizing x e with
  | zero => rfl
  | succ steps ih =>
    rw [scaleDouble?, if_neg (by omega), if_neg (by omega)]
    split_ifs
    · rfl
    · rfl
    · exact ih (by omega) _

/-- Upwards there is one as long as it is well inside the format. -/
theorem isSome_scaleDouble? {x : Double} (hx : x.isFinite = true) (hvalue : |x.value| ≤ 2 ^ 64)
    {e : Int} (he : e ≤ 40) (steps : Nat) : (scaleDouble? x e steps).isSome = true := by
  rcases lt_or_ge e 0 with hneg | hnonneg
  · exact isSome_scaleDouble?_of_neg hneg x steps
  · cases steps with
    | zero => rfl
    | succ steps =>
      have hpower : (tenPower e.toNat : ℚ) ≤ 2 ^ 140 := by
        exact_mod_cast tenPower_le (Int.toNat_le.mpr he)
      have hfinite := Binary.isFinite_scaleUp (k := tenPower e.toNat) (by decide) (by decide) hx (by
        calc |x.value| * tenPower e.toNat ≤ 2 ^ 64 * 2 ^ 140 := by gcongr
          _ = 2 ^ (204 : Int) := by norm_num
          _ < 2 ^ (Format.double.highest + Format.double.precision - 1) :=
            zpow_lt_zpow_right₀ one_lt_two (by decide))
      rw [scaleDouble?, if_neg (by omega), if_pos hnonneg]
      dsimp only
      rw [if_pos hfinite]
      rfl

theorem isSome_readDouble? {n : Numeral} (h : n.whole.length + n.exponent.getD 0 ≤ 40) :
    (readDouble? n).isSome = true := by
  obtain ⟨hkept, hexponent⟩ := Significand.of_bounds n
  have hratio : (((Significand.of n).kept : Int).natAbs / (1 : Nat) : ℚ) ≤ 2 ^ (64 : Int) := by
    have hbound : ((Significand.of n).kept : ℚ) ≤ 2 ^ 64 := by exact_mod_cast hkept.le
    rw [Int.natAbs_natCast, Nat.cast_one, div_one]
    exact_mod_cast hbound
  have hfinite : (Binary.ofInt (Significand.of n).kept : Double).isFinite = true := by
    refine Binary.isFinite_ofRatio_of_lt _ (by decide) (by decide) Nat.one_pos ?_
    exact hratio.trans_lt (zpow_lt_zpow_right₀ one_lt_two (by decide))
  have hvalue : |(Binary.ofInt (Significand.of n).kept : Double).value| ≤ 2 ^ 64 := by
    have hle := Binary.abs_value_ofRatio_le (f := .double) (((Significand.of n).kept : Int) < 0)
      (by decide) Nat.one_pos (by decide) hratio
    exact_mod_cast hle
  rw [readDouble?, Option.isSome_map]
  exact isSome_scaleDouble? hfinite hvalue (hexponent.trans h) 5

/-- Numerals of a moderate size denote numbers. -/
theorem isSome_ofNumeral? {n : Numeral} (h : n.whole.length + n.exponent.getD 0 ≤ 40) :
    (Number.ofNumeral? n).isSome = true := by
  have hdouble : ((readDouble? n).map Number.float).isSome = true := by
    rw [Option.isSome_map]
    exact isSome_readDouble? h
  rw [Number.ofNumeral?]
  split_ifs <;> first | rfl | exact hdouble

/-- A natural number that fits a word is read back. -/
theorem ofNumeral?_ofInt {k : Nat} (hk : k < wordBound) :
    Number.ofNumeral? (.ofInt k) = some (.int k) := by
  have hread : ofDigits (Numeral.ofInt k).whole = k := ofDigits_toDigits k
  rw [Number.ofNumeral?, hread]
  exact if_pos hk

/-! ## Floats -/

theorem floatTree_of_isFinite {x : Single} (hx : x.isFinite = true) (hvalue : |x.value| ≤ 2 ^ 128) :
    ∃ n, floatTree singleLayout x = .numeral n ∧ n.Proper ∧
      (Number.ofNumeral? n).isSome = true := by
  obtain ⟨n, hn, hproper, hlength⟩ := exists_numeral? singleLayout hx (k := 39) (by decide)
    (hvalue.trans_lt (by norm_num))
  refine ⟨n, ?_, hproper, isSome_ofNumeral? (by omega)⟩
  rw [floatTree, hn]

theorem floatTree_of_not_isFinite {x : Single} (hx : x.isFinite = false) :
    floatTree singleLayout x = .null := by
  cases x with
  | finite => cases hx
  | infinite | nan => rfl

/-! ## Trees with numbers -/

/-- All numerals of the tree are proper. -/
inductive Tree.Proper : Tree → Prop
  | null : Proper .null
  | truth (b : Bool) : Proper (.truth b)
  | numeral {n : Numeral} (h : n.Proper) : Proper (.numeral n)
  | text (s : Option String) : Proper (.text s)
  | array {items : List Tree} (h : ∀ t ∈ items, Proper t) : Proper (.array items)
  | object {members : List (Option String × Tree)} (h : ∀ m ∈ members, Proper m.2) :
    Proper (.object members)

theorem mem_itemTokens {items : List Tree} {n : Numeral} (h : .numeral n ∈ itemTokens items) :
    ∃ t ∈ items, .numeral n ∈ t.tokens := by
  induction items with
  | nil =>
    rw [itemTokens] at h
    cases h
  | cons t items ih =>
    cases items with
    | nil =>
      rw [itemTokens] at h
      exact ⟨t, List.mem_cons_self, h⟩
    | cons t' items =>
      rw [itemTokens_cons, List.mem_append, List.mem_cons] at h
      rcases h with hn | ⟨⟨⟩⟩ | hrest
      · exact ⟨t, List.mem_cons_self, hn⟩
      · obtain ⟨item, hitem, hn⟩ := ih hrest
        exact ⟨item, List.mem_cons_of_mem t hitem, hn⟩

theorem mem_memberTokens {members : List (Option String × Tree)} {n : Numeral}
    (h : .numeral n ∈ memberTokens members) : ∃ m ∈ members, .numeral n ∈ m.2.tokens := by
  induction members with
  | nil =>
    rw [memberTokens] at h
    cases h
  | cons m members ih =>
    obtain ⟨k, t⟩ := m
    cases members with
    | nil =>
      rw [memberTokens, List.mem_cons, List.mem_cons] at h
      rcases h with ⟨⟨⟩⟩ | ⟨⟨⟩⟩ | hn
      exact ⟨(k, t), List.mem_cons_self, hn⟩
    | cons m' members =>
      rw [memberTokens_cons, List.mem_cons, List.mem_cons, List.mem_append, List.mem_cons] at h
      rcases h with ⟨⟨⟩⟩ | ⟨⟨⟩⟩ | hn | ⟨⟨⟩⟩ | hrest
      · exact ⟨(k, t), List.mem_cons_self, hn⟩
      · obtain ⟨member, hmember, hn⟩ := ih hrest
        exact ⟨member, List.mem_cons_of_mem _ hmember, hn⟩

/-- The numerals of a proper tree are proper. -/
theorem Tree.Proper.of_mem {t : Tree} (h : t.Proper) {n : Numeral} (hn : .numeral n ∈ t.tokens) :
    n.Proper := by
  induction h with
  | numeral h =>
    rw [tokens, List.mem_singleton, Token.numeral.injEq] at hn
    exact hn ▸ h
  | @array items _ ih =>
    rw [tokens] at hn
    have hitems : .numeral n ∈ itemTokens items := by simpa using hn
    obtain ⟨t, ht, hmem⟩ := mem_itemTokens hitems
    exact ih t ht hmem
  | @object members _ ih =>
    rw [tokens] at hn
    have hmembers : .numeral n ∈ memberTokens members := by simpa using hn
    obtain ⟨m, hm, hmem⟩ := mem_memberTokens hmembers
    exact ih m hm hmem
  | null | truth | text => simp [tokens] at hn

/-- A proper tree is read back from what is written for it. -/
theorem Tree.Proper.parse?_render {t : Tree} (h : t.Proper) : Tree.parse? t.render = some t :=
  parse?_eq_some_iff.mpr
    (spelledBy_render_of_numerals fun _ hn ↦ numeralSpelled_chars (h.of_mem hn))

end ChatStream.Json
