import Mathlib.Tactic
import ChatStream.Render.Clock

/-!
# Boundaries in reach

A clock names its boundaries by their distance from the origin, and there is a longest distance. An
instant is in reach while a boundary comes behind it that can be named. Then what `boundaryAfter`
answers is a boundary, behind the instant and no more than an interval away.

The instants with less than `2 ^ 64` nanoseconds between the origin and an interval behind them are
in reach. `isLeast_boundaryAfter` says what a clock does there: it answers the first boundary behind
the instant, and numbers of 128 bits are wide enough on the way to it.
-/

namespace ChatStream.PaintClock

variable (c : PaintClock) {after : Instant} {k : Nat}

/-- The boundaries, counted from the origin. -/
def boundary (k : Nat) : Instant := c.origin + k * c.interval

/-- A boundary comes behind the instant, and the clock can name it. -/
def Reaches (after : Instant) : Prop :=
  ∃ k, after < c.boundary k ∧ c.boundary k ≤ c.origin + longestStretch

theorem interval_pos : 0 < c.interval := Nat.lt_of_lt_of_le (by decide) c.le_interval

theorem boundary_strictMono : StrictMono c.boundary := fun _ _ h ↦
  Nat.add_lt_add_left (Nat.mul_lt_mul_of_pos_right h c.interval_pos) c.origin

variable {c}

theorem lt_boundary_iff (horigin : c.origin ≤ after) :
    after < c.boundary k ↔ (after - c.origin) / c.interval < k := by
  rw [Nat.div_lt_iff_lt_mul c.interval_pos, boundary, Nat.sub_lt_iff_lt_add horigin,
    Nat.add_comm]

theorem boundaryAfter_of_lt (horigin : after < c.origin) : c.boundaryAfter after = c.origin :=
  if_pos horigin

theorem Reaches.boundaryAfter_eq (hr : c.Reaches after) (horigin : c.origin ≤ after) :
    c.boundaryAfter after = c.boundary ((after - c.origin) / c.interval + 1) := by
  obtain ⟨k, hk, hlongest⟩ := hr
  -- The first boundary behind the instant comes no later than one that can be named.
  have hfirst := c.boundary_strictMono.monotone ((lt_boundary_iff horigin).mp hk)
  have hstretch := Nat.le_of_add_le_add_left (hfirst.trans hlongest)
  rw [boundaryAfter, if_neg (Nat.not_lt.mpr horigin), Nat.min_eq_right hstretch, boundary]

theorem Reaches.boundaryAfter_mem (hr : c.Reaches after) :
    c.boundaryAfter after ∈ Set.range c.boundary := by
  rcases Nat.lt_or_ge after c.origin with horigin | horigin
  · refine ⟨0, ?_⟩
    rw [boundaryAfter_of_lt horigin, boundary, Nat.zero_mul, Nat.add_zero]
  · exact ⟨_, (hr.boundaryAfter_eq horigin).symm⟩

theorem Reaches.lt_boundaryAfter (hr : c.Reaches after) : after < c.boundaryAfter after := by
  rcases Nat.lt_or_ge after c.origin with horigin | horigin
  · rwa [boundaryAfter_of_lt horigin]
  · rw [hr.boundaryAfter_eq horigin, lt_boundary_iff horigin]
    exact Nat.lt_succ_self _

theorem Reaches.boundaryAfter_le (hr : c.Reaches after) (horigin : c.origin ≤ after) :
    c.boundaryAfter after ≤ after + c.interval := by
  have hfloor := Nat.div_mul_le_self (after - c.origin) c.interval
  rw [hr.boundaryAfter_eq horigin, boundary, Nat.succ_mul, ← Nat.add_assoc]
  exact Nat.add_le_add_right (Nat.add_le_of_le_sub' horigin hfloor) c.interval

theorem Reaches.boundaryAfter_least (hr : c.Reaches after) (hk : after < c.boundary k) :
    c.boundaryAfter after ≤ c.boundary k := by
  rcases Nat.lt_or_ge after c.origin with horigin | horigin
  · rw [boundaryAfter_of_lt horigin, boundary]
    exact Nat.le_add_right _ _
  · rw [hr.boundaryAfter_eq horigin]
    exact c.boundary_strictMono.monotone ((lt_boundary_iff horigin).mp hk)

/-- Later instants have no earlier boundary behind them, in reach or not. -/
theorem monotone_boundaryAfter (c : PaintClock) : Monotone c.boundaryAfter := by
  intro after later h
  rw [boundaryAfter, boundaryAfter]
  split_ifs with hafter hlater hlater
  · exact Nat.le_refl _
  · exact Nat.le_add_right _ _
  · exact absurd (Nat.lt_of_le_of_lt h hlater) hafter
  · have helapsed : after - c.origin ≤ later - c.origin := Nat.sub_le_sub_right h c.origin
    gcongr

/-! ## Numbers of 128 bits -/

/-- The distance from the origin to the first boundary behind an instant. -/
def stretch (c : PaintClock) (after : Instant) : Nat :=
  ((after - c.origin) / c.interval + 1) * c.interval

/-- The same distance, reckoned in numbers of 128 bits. -/
def stretch128 (c : PaintClock) (after : Instant) : BitVec 128 :=
  (BitVec.ofNat 128 (after - c.origin) / BitVec.ofNat 128 c.interval + 1#128) *
    BitVec.ofNat 128 c.interval

theorem stretch_le (c : PaintClock) (after : Instant) :
    c.stretch after ≤ after - c.origin + c.interval := by
  rw [stretch, Nat.succ_mul]
  exact Nat.add_le_add_right (Nat.div_mul_le_self _ _) _

theorem boundaryAfter_of_le (horigin : c.origin ≤ after) :
    c.boundaryAfter after = c.origin + min longestStretch (c.stretch after) :=
  if_neg (Nat.not_lt.mpr horigin)

theorem toNat_stretch128 (h : after - c.origin + c.interval < 2 ^ 128) :
    (c.stretch128 after).toNat = c.stretch after := by
  have hwide {n : Nat} (hn : n ≤ after - c.origin + c.interval) : (BitVec.ofNat 128 n).toNat = n := by
    rw [BitVec.toNat_ofNat, Nat.mod_eq_of_lt (Nat.lt_of_le_of_lt hn h)]
  have helapsed := hwide (Nat.le_add_right (after - c.origin) c.interval)
  have hinterval := hwide (Nat.le_add_left c.interval (after - c.origin))
  have hsucc : (after - c.origin) / c.interval + 1 ≤ after - c.origin + c.interval :=
    Nat.add_le_add (Nat.div_le_self _ _) c.interval_pos
  have hquotient :
      (BitVec.ofNat 128 (after - c.origin) / BitVec.ofNat 128 c.interval + 1#128).toNat =
        (after - c.origin) / c.interval + 1 := by
    rw [BitVec.toNat_add_of_lt] <;> rw [BitVec.toNat_udiv, helapsed, hinterval]
    · rfl
    · exact Nat.lt_of_le_of_lt hsucc h
  rw [stretch128, BitVec.toNat_mul_of_lt] <;> rw [hquotient, hinterval]
  · rfl
  · exact Nat.lt_of_le_of_lt (c.stretch_le after) h

/-- Less than `2 ^ 64` nanoseconds up to an interval behind the instant are enough to name the
boundary behind it. -/
theorem reaches_of_lt (h : after - c.origin + c.interval < 2 ^ 64) : c.Reaches after := by
  rcases Nat.lt_or_ge after c.origin with horigin | horigin
  · refine ⟨0, ?_, ?_⟩ <;> rw [boundary, Nat.zero_mul, Nat.add_zero]
    · exact horigin
    · exact Nat.le_add_right _ _
  · refine ⟨(after - c.origin) / c.interval + 1, (lt_boundary_iff horigin).mpr (Nat.lt_succ_self _),
      Nat.add_le_add_left ?_ c.origin⟩
    exact Nat.le_of_lt_succ (Nat.lt_of_le_of_lt (c.stretch_le after) h)

/-- **The next boundary.** While less than `2 ^ 64` nanoseconds lie between the origin and an
interval behind the instant, a clock answers the first of its boundaries that comes strictly behind
the instant, and never an earlier one for a later instant. The distance of that boundary neither
leaves the 128 bits in which it is reckoned nor exceeds the longest that the clock can name. -/
theorem isLeast_boundaryAfter (origin : Instant) (interval : Nat) {after : Instant}
    (h : after - origin + max interval nanosPerMilli < 2 ^ 64) :
    IsLeast {b | (∃ k, b = origin + k * max interval nanosPerMilli) ∧ after < b}
        ((new origin interval).boundaryAfter after) ∧
      (∀ earlier ≤ after, (new origin interval).boundaryAfter earlier ≤
        (new origin interval).boundaryAfter after) ∧
      ((new origin interval).stretch128 after).toNat =
        ((after - origin) / max interval nanosPerMilli + 1) * max interval nanosPerMilli ∧
      ((new origin interval).stretch128 after).toNat ≤ longestStretch ∧
      (origin ≤ after → (new origin interval).boundaryAfter after =
        origin + ((new origin interval).stretch128 after).toNat) := by
  have hreaches : (new origin interval).Reaches after := reaches_of_lt h
  have hstretch : ((new origin interval).stretch128 after).toNat =
      (new origin interval).stretch after := toNat_stretch128 (Nat.lt_trans h (by decide))
  have hlongest : (new origin interval).stretch after ≤ longestStretch :=
    Nat.le_of_lt_succ (Nat.lt_of_le_of_lt (stretch_le _ after) h)
  refine ⟨⟨⟨?_, hreaches.lt_boundaryAfter⟩, ?_⟩, ?_, hstretch, hstretch ▸ hlongest, ?_⟩
  · obtain ⟨k, hk⟩ := hreaches.boundaryAfter_mem
    exact ⟨k, hk.symm⟩
  · rintro _ ⟨⟨k, rfl⟩, hk⟩
    exact hreaches.boundaryAfter_least hk
  · exact fun earlier hearlier ↦ monotone_boundaryAfter _ hearlier
  · intro horigin
    rw [boundaryAfter_of_le horigin, Nat.min_eq_right hlongest, hstretch]
    rfl

/-- On a boundary, with the next one at the longest distance that can be named. -/
theorem isLeast_boundaryAfter_longest :
    7 - 7 + max longestStretch nanosPerMilli < 2 ^ 64 ∧
      IsLeast {b | (∃ k, b = 7 + k * max longestStretch nanosPerMilli) ∧ 7 < b}
        (7 + longestStretch) := by
  have hnear : 7 - 7 + max longestStretch nanosPerMilli < 2 ^ 64 := by decide
  have hnext : (new 7 longestStretch).boundaryAfter 7 = 7 + longestStretch := by decide
  have hleast := (isLeast_boundaryAfter 7 longestStretch hnear).1
  rw [hnext] at hleast
  exact ⟨hnear, hleast⟩

end ChatStream.PaintClock
