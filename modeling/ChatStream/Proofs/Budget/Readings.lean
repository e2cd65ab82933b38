import Mathlib.Tactic
import ChatStream.Budget

/-!
# Readings of a budget

A budget takes one reading of the conversation after another, and any of them may say that the
context window has another size. What the budget remembers of them all is little: the window, and
whether the last reading was near its limit. `getElem?_notices` says that this is enough. Whether a
notice is due depends on the readings alone: one is near the limit then in force, and the one before
it was not near the limit that was in force then.

Nothing here is about requests for a summary, which a reading does not look at.
-/

namespace ChatStream.Budget

/-! ## Several readings -/

/-- The budget after several readings. -/
def after (b : Budget) (us : List Usage) : Budget := us.foldl (fun b u ↦ (b.observe u).1) b

/-- The notices that are due at each of several readings. -/
def notices : Budget → List Usage → List (Option NearLimit)
  | _, [] => []
  | b, u :: us => (b.observe u).2 :: (b.observe u).1.notices us

theorem after_append_singleton (b : Budget) (us : List Usage) (u : Usage) :
    b.after (us ++ [u]) = ((b.after us).observe u).1 :=
  List.foldl_append

theorem notices_append_singleton (b : Budget) (us : List Usage) (u : Usage) :
    b.notices (us ++ [u]) = b.notices us ++ [((b.after us).observe u).2] := by
  induction us generalizing b with
  | nil => rfl
  | cons v us ih => exact congrArg _ (ih (b.observe v).1)

theorem length_notices (b : Budget) (us : List Usage) : (b.notices us).length = us.length := by
  induction us generalizing b with
  | nil => rfl
  | cons u us ih => exact congrArg (· + 1) (ih (b.observe u).1)

/-- A reading does not look at the request for a summary. -/
theorem observe_summarize (b : Budget) (summarize : Bool) (u : Usage) :
    ({ b with summarize } : Budget).observe u =
      ({ (b.observe u).1 with summarize }, (b.observe u).2) := by
  rw [observe, observe]
  simp only [isNear, threshold, basisPoints]
  split_ifs <;> rfl

/-! ## One reading -/

/-- The window that is in force once a reading has said its limit. -/
def windowFor (b : Budget) (limit : Nat) : Nat := if 0 < limit then limit else b.limit

/-- Whether so many tokens are near the limit. -/
def nearAt (b : Budget) (limit tokens : Nat) : Bool := { b with limit }.threshold ≤ tokens

/-- A reading moves the window and tells once that it is near the limit. -/
theorem observe_eq (b : Budget) (u : Usage) :
    b.observe u =
      ({ b with
          limit := b.windowFor u.limit
          tokens := u.tokens
          notified := b.nearAt (b.windowFor u.limit) u.tokens },
        if b.nearAt (b.windowFor u.limit) u.tokens = true ∧ b.notified = false then
          some { tokens := u.tokens, limit := b.windowFor u.limit }
        else none) := by
  have hnear : ({ b with limit := b.windowFor u.limit, tokens := u.tokens } : Budget).isNear =
      b.nearAt (b.windowFor u.limit) u.tokens := rfl
  rw [observe, ← windowFor]
  dsimp only
  rw [hnear]
  cases b.nearAt (b.windowFor u.limit) u.tokens with
  | false => rfl
  | true =>
    cases hnotified : b.notified with
    | false => rfl
    | true => simp [← hnotified]

/-! ## The window -/

/-- The window in force after several readings: the last limit that one of them knew, or else the
one before them. -/
def windowAfter (limit : Nat) (us : List Usage) : Nat :=
  ((us.map Usage.limit).filter (0 < ·)).getLast?.getD limit

theorem windowAfter_append_singleton (limit : Nat) (us : List Usage) (u : Usage) :
    windowAfter limit (us ++ [u]) = if 0 < u.limit then u.limit else windowAfter limit us := by
  rw [windowAfter, List.map_append, List.filter_append]
  by_cases hu : 0 < u.limit
  · simp [hu]
  · simp [hu, windowAfter]

/-- What holds of the window before the readings and of the limits that they knew holds of the window
in force after them. -/
theorem windowAfter_induction {p : Nat → Prop} {limit : Nat} {us : List Usage} (hlimit : p limit)
    (hus : ∀ u ∈ us, 0 < u.limit → p u.limit) : p (windowAfter limit us) := by
  induction us using List.reverseRecOn with
  | nil => exact hlimit
  | append_singleton us u ih =>
    rw [List.forall_mem_append, List.forall_mem_singleton] at hus
    rw [windowAfter_append_singleton]
    split_ifs with hu
    · exact hus.2 hu
    · exact ih hus.1

/-- Readings that agree on the limit leave it in force. -/
theorem windowAfter_of_forall {limit : Nat} {us : List Usage} (hus : ∀ u ∈ us, u.limit = limit)
    (hne : us ≠ []) (b : Budget) : windowAfter b.limit us = b.windowFor limit := by
  induction us using List.reverseRecOn with
  | nil => exact absurd rfl hne
  | append_singleton us u ih =>
    rw [List.forall_mem_append, List.forall_mem_singleton] at hus
    rw [windowAfter_append_singleton, windowFor, hus.2]
    by_cases hlimit : 0 < limit
    · rw [if_pos hlimit, if_pos hlimit]
    · have hnone : (us.map Usage.limit).filter (0 < ·) = [] := by
        simpa using fun u hu ↦ (hus.1 u hu).trans (Nat.eq_zero_of_not_pos hlimit)
      rw [if_neg hlimit, if_neg hlimit, windowAfter, hnone]
      rfl

/-- Whether reading number `i` is near the limit then in force. -/
def isNearAt (b : Budget) (us : List Usage) (i : Nat) : Bool :=
  us[i]?.any fun u ↦ b.nearAt (windowAfter b.limit (us.take (i + 1))) u.tokens

/-- Whether the notice before reading number `i` is still in force: that of the reading before, or
the one with which the budget began. -/
def wasNear (b : Budget) (us : List Usage) : Nat → Bool
  | 0 => b.notified
  | i + 1 => b.isNearAt us i

section
variable (b : Budget) (us : List Usage) (u : Usage)

theorem isNearAt_append {i : Nat} (hi : i < us.length) :
    b.isNearAt (us ++ [u]) i = b.isNearAt us i := by
  rw [isNearAt, isNearAt, List.getElem?_append_left hi, List.take_append_of_le_length hi]

theorem isNearAt_length :
    b.isNearAt (us ++ [u]) us.length =
      b.nearAt (windowAfter b.limit (us ++ [u])) u.tokens := by
  rw [isNearAt, List.getElem?_concat_length, Option.any_some, List.take_of_length_le]
  exact List.length_append.le

theorem wasNear_append {i : Nat} (hi : i ≤ us.length) :
    b.wasNear (us ++ [u]) i = b.wasNear us i := by
  cases i with
  | zero => rfl
  | succ i => exact b.isNearAt_append us u hi

theorem nearFraction_after : (b.after us).nearFraction = b.nearFraction := by
  induction us using List.reverseRecOn with
  | nil => rfl
  | append_singleton us u ih => rw [after_append_singleton, observe_eq, ih]

theorem limit_after : (b.after us).limit = windowAfter b.limit us := by
  induction us using List.reverseRecOn with
  | nil => rfl
  | append_singleton us u ih =>
    rw [after_append_singleton, observe_eq, windowAfter_append_singleton, windowFor, ih]

/-- One more reading looks at the window then in force, and at the notice before it. -/
theorem observe_after :
    (b.after us).observe u =
      ({ b.after us with
          limit := windowAfter b.limit (us ++ [u])
          tokens := u.tokens
          notified := b.isNearAt (us ++ [u]) us.length },
        if b.isNearAt (us ++ [u]) us.length = true ∧ (b.after us).notified = false then
          some { tokens := u.tokens, limit := windowAfter b.limit (us ++ [u]) }
        else none) := by
  have hwindow : (b.after us).windowFor u.limit = windowAfter b.limit (us ++ [u]) := by
    rw [windowAfter_append_singleton, windowFor, limit_after]
  have hnear : (b.after us).nearAt (windowAfter b.limit (us ++ [u])) u.tokens =
      b.isNearAt (us ++ [u]) us.length := by
    rw [isNearAt_length, nearAt, threshold, basisPoints, nearFraction_after]
    rfl
  rw [observe_eq, hwindow, hnear]

theorem notified_after : (b.after us).notified = b.wasNear us us.length := by
  induction us using List.reverseRecOn with
  | nil => rfl
  | append_singleton us u ih =>
    rw [after_append_singleton, observe_after, List.length_append]
    rfl

end

/-! ## Notices -/

/-- A notice is due at a reading that is near the limit, unless the notice before it is still in
force. -/
theorem getElem?_notices (b : Budget) (us : List Usage) (i : Nat) :
    (b.notices us)[i]? = us[i]?.map fun u ↦
      if b.isNearAt us i = true ∧ b.wasNear us i = false then
        some { tokens := u.tokens, limit := windowAfter b.limit (us.take (i + 1)) }
      else none := by
  induction us using List.reverseRecOn with
  | nil => rfl
  | append_singleton us u ih =>
    rw [notices_append_singleton]
    have hlength := b.length_notices us
    rcases Nat.lt_trichotomy i us.length with hi | rfl | hi
    · rw [List.getElem?_append_left (hlength ▸ hi), ih, List.getElem?_append_left hi,
        b.isNearAt_append us u hi, b.wasNear_append us u hi.le, List.take_append_of_le_length hi]
    · have hnew : (b.notices us ++ [((b.after us).observe u).2])[us.length]? =
          some ((b.after us).observe u).2 := by
        rw [← hlength, List.getElem?_concat_length]
      have htake : (us ++ [u]).take (us.length + 1) = us ++ [u] :=
        List.take_of_length_le List.length_append.le
      rw [hnew, List.getElem?_concat_length, Option.map_some, htake, observe_after, notified_after,
        b.wasNear_append us u (Nat.le_refl _)]
    · have hend : (us ++ [u])[i]? = none := by
        rw [List.getElem?_eq_none_iff, List.length_append]
        exact hi
      have hnone : (b.notices us ++ [((b.after us).observe u).2])[i]? = none := by
        rw [List.getElem?_eq_none_iff, List.length_append, hlength]
        exact hi
      rw [hend, hnone]
      rfl

end ChatStream.Budget
