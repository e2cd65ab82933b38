import Mathlib.Tactic
import ChatStream.Text.Utf8

/-!
# Decoding in one go

The machine of `Utf8.step` sees one byte at a time. `settled` decodes a whole run of bytes at once:
the longest well-formed start, one replacement for each maximal subpart that can be no character,
and whatever at the end may still become one is left over. `settled_append_cons` says that the
machine takes one step of this, whatever it holds back, and `toList_lossy` that at the end of the
bytes what is left over becomes one replacement.

## Why cuts are harmless

Everything rests on one closure property of `standing`, `holdable_of_snoc`: a run that is a
character or may become one only has starts that may become one. So a run that is broken stays
broken whatever follows, and what is decided about a prefix is decided for good. It is the one
place where the ranges of the second byte after each lead byte are looked at.
-/

namespace ChatStream.Utf8

/-! ## Bytes that may be held back -/

/-- The bytes are the start of a character with more to come, or there are none. -/
def Holdable (h : Bytes) : Prop := h = [] ∨ standing h = .unfinished

theorem holdable_nil : Holdable [] := .inl rfl

/-- A byte with a possible second byte is the start of a character. -/
theorem standing_lead {a b : UInt8} (h : followsLead a b = true) : standing [a] = .unfinished := by
  have hlead : 0xC2 ≤ a ∧ a ≤ 0xF4 := by
    simp only [followsLead] at h
    split_ifs at h <;> simp_all
  have hascii : ¬ a < 0x80 := UInt8.not_lt.mpr (UInt8.le_trans (by decide) hlead.1)
  simp [standing, hascii, hlead]

/-- A run that is not broken has a start that may be held back. -/
theorem holdable_of_snoc {h : Bytes} {b : UInt8} (hb : standing (h ++ [b]) ≠ .broken) :
    Holdable h := by
  match h with
  | [] => exact holdable_nil
  | [a] =>
    refine .inr (standing_lead (b := b) ?_)
    by_contra hf
    simp [standing, hf] at hb
  | [a, a₂] =>
    have h : (0xE0 ≤ a && followsLead a a₂ && isContinuation b) = true := by
      by_contra hf
      simp [standing, hf] at hb
    simp only [Bool.and_eq_true, decide_eq_true_eq] at h
    have hlow : ¬ a < 0xE0 := UInt8.not_lt.mpr h.1.1
    exact .inr (by simp [standing, h, hlow])
  | [a, a₂, a₃] =>
    have h : (0xF0 ≤ a && followsLead a a₂ && isContinuation a₃ && isContinuation b) = true := by
      by_contra hf
      simp [standing, hf] at hb
    simp only [Bool.and_eq_true, decide_eq_true_eq] at h
    have hlow : ¬ a < 0xF0 := UInt8.not_lt.mpr h.1.1.1
    have hthree : (0xE0 : UInt8) ≤ a := UInt8.le_trans (by decide) h.1.1.1
    exact .inr (by simp [standing, h, hlow, hthree])
  | _ :: _ :: _ :: _ :: _ => exact absurd (by simp [standing]) hb

theorem Holdable.standing_eq {h : Bytes} (hh : Holdable h) (hne : h ≠ []) :
    standing h = .unfinished := hh.resolve_left hne

theorem Holdable.length_le {h : Bytes} (hh : Holdable h) : h.length ≤ 3 := by
  match h, hh with
  | [], _ | [_], _ | [_, _], _ | [_, _, _], _ => simp
  | [a, b, c, d], .inr h =>
    simp only [standing] at h
    split at h <;> cases h
  | _ :: _ :: _ :: _ :: _ :: _, .inr h => cases h

theorem Holdable.of_append {h t : Bytes} (hh : Holdable (h ++ t)) : Holdable h := by
  induction t using List.reverseRecOn with
  | nil => simpa using hh
  | append_singleton t b ih =>
    rw [← List.append_assoc] at hh
    exact ih (holdable_of_snoc (by rw [hh.standing_eq (by simp)]; nofun))

theorem Holdable.standing_take {h t : Bytes} (hh : Holdable h) {n : Nat} (hpos : 0 < n)
    (hn : n ≤ h.length) : standing ((h ++ t).take n) = .unfinished := by
  rw [List.take_append_of_le_length hn]
  have hstart : Holdable (h.take n) :=
    Holdable.of_append (t := h.drop n) (by rwa [List.take_append_drop])
  refine hstart.standing_eq fun hnil ↦ ?_
  have hlen := congrArg List.length hnil
  simp only [List.length_take, List.length_nil] at hlen
  omega

/-- What is broken stays broken, whatever follows. -/
theorem standing_append_of_broken {h : Bytes} (hne : h ≠ []) (hb : standing h = .broken)
    (t : Bytes) : standing (h ++ t) = .broken := by
  induction t using List.reverseRecOn with
  | nil => simpa using hb
  | append_singleton t b ih =>
    by_contra hcon
    rw [← List.append_assoc] at hcon
    have hheld := (holdable_of_snoc hcon).standing_eq (by simp [hne])
    rw [ih] at hheld
    cases hheld

theorem take_length_succ (h t : Bytes) (b : UInt8) (k : Nat) :
    (h ++ b :: t).take (h.length + 1 + k) = (h ++ [b]) ++ t.take k := by
  rw [List.append_cons, List.take_append, List.take_of_length_le (by simp)]
  simp

theorem standing_take_of_broken {h : Bytes} {b : UInt8} (hb : standing (h ++ [b]) = .broken)
    (t : Bytes) {n : Nat} (hn : h.length < n) : standing ((h ++ b :: t).take n) = .broken := by
  obtain ⟨k, rfl⟩ : ∃ k, n = h.length + 1 + k := ⟨n - (h.length + 1), by omega⟩
  rw [take_length_succ, standing_append_of_broken (by simp) hb]

/-! ## The first character, and the first maximal subpart

What `first?` and `brokenLength` say of a run is settled by the byte that ends the start held
back, so both are computed here for a held start `h`, the byte `b` after it, and any rest. -/

theorem first?_of_complete {h : Bytes} (hh : Holdable h) {b : UInt8} {c : Char}
    (hc : standing (h ++ [b]) = .complete c) (t : Bytes) :
    first? (h ++ b :: t) = some (h.length + 1, c) := by
  have hbefore : ∀ n, 0 < n → n ≤ h.length → standing ((h ++ b :: t).take n) = .unfinished :=
    fun n hpos hn ↦ hh.standing_take hpos hn
  have hat : standing ((h ++ b :: t).take (h.length + 1)) = .complete c := by
    rw [← hc, ← Nat.add_zero (h.length + 1), take_length_succ, List.take_zero, List.append_nil]
  have hlen := hh.length_le
  generalize h ++ b :: t = bytes at hbefore hat
  generalize h.length = k at *
  interval_cases k <;> simp [first?, hat, hbefore]

theorem first?_of_broken {h : Bytes} (hh : Holdable h) {b : UInt8}
    (hb : standing (h ++ [b]) = .broken) (t : Bytes) : first? (h ++ b :: t) = none := by
  rw [first?, List.findSome?_eq_none_iff]
  intro n hmem
  have hpos : 0 < n := by fin_cases hmem <;> decide
  rcases Nat.lt_or_ge h.length n with hn | hn
  · rw [standing_take_of_broken hb t hn]
  · rw [hh.standing_take hpos hn]

theorem Holdable.first?_eq_none {h : Bytes} (hh : Holdable h) (hne : h ≠ []) :
    first? h = none := by
  rw [first?, List.findSome?_eq_none_iff]
  intro n hmem
  have hpos : 0 < n := by fin_cases hmem <;> decide
  rcases Nat.lt_or_ge h.length n with hn | hn
  · rw [List.take_of_length_le hn.le, hh.standing_eq hne]
  · rw [← List.append_nil h, hh.standing_take hpos hn]

theorem brokenLength_of_broken {h : Bytes} (hh : Holdable h) {b : UInt8}
    (hb : standing (h ++ [b]) = .broken) (t : Bytes) :
    brokenLength (h ++ b :: t) = max h.length 1 := by
  have hbefore : ∀ n, 0 < n → n ≤ h.length → standing ((h ++ b :: t).take n) = .unfinished :=
    fun n hpos hn ↦ hh.standing_take hpos hn
  have hafter : ∀ n, h.length < n → standing ((h ++ b :: t).take n) = .broken :=
    fun n hn ↦ standing_take_of_broken hb t hn
  have hlen := hh.length_le
  have hbytes : h.length < (h ++ b :: t).length := by simp
  generalize h ++ b :: t = bytes at *
  generalize h.length = k at *
  interval_cases k <;> simp [brokenLength, hbefore, hafter] <;> omega

/-! ## Decoding a whole run -/

/-- What is certain of a run of bytes: its characters, each maximal subpart that is none as one
replacement, and the bytes at its end that may still become a character. -/
def settled : (bytes : Bytes) → List Char × Bytes
  | [] => ([], [])
  | b :: rest =>
    match first? (b :: rest) with
    | some (n, c) =>
      let (chars, held) := settled (rest.drop (n - 1))
      (c :: chars, held)
    | none =>
      if standing (b :: rest) = .unfinished then ([], b :: rest)
      else
        let (chars, held) := settled (rest.drop (brokenLength (b :: rest) - 1))
        (replacement :: chars, held)
  termination_by bytes => bytes.length
  decreasing_by all_goals simp only [List.length_drop, List.length_cons]; omega

theorem Holdable.settled_eq {h : Bytes} (hh : Holdable h) : settled h = ([], h) := by
  match h with
  | [] => rw [settled]
  | b :: rest =>
    rw [settled, hh.first?_eq_none (by simp)]
    simp [hh.standing_eq]

/-- A byte that completes the held start as a character. -/
theorem settled_of_complete {h : Bytes} (hh : Holdable h) {b : UInt8} {c : Char}
    (hc : standing (h ++ [b]) = .complete c) (t : Bytes) :
    settled (h ++ b :: t) = (c :: (settled t).1, (settled t).2) := by
  have hfirst := first?_of_complete hh hc t
  have hdrop : (h ++ b :: t).drop (h.length + 1) = t := by simp
  obtain ⟨a, rest, hcons⟩ := List.exists_cons_of_ne_nil (l := h ++ b :: t) (by simp)
  rw [hcons] at hfirst hdrop ⊢
  rw [settled, hfirst]
  simp_all

/-- A byte that breaks the held start, which becomes one replacement; with nothing held, the byte
itself does. -/
theorem settled_of_broken {h : Bytes} (hh : Holdable h) {b : UInt8}
    (hb : standing (h ++ [b]) = .broken) (t : Bytes) :
    settled (h ++ b :: t) =
      (replacement :: (settled ((h ++ b :: t).drop (max h.length 1))).1,
        (settled ((h ++ b :: t).drop (max h.length 1))).2) := by
  have hfirst := first?_of_broken hh hb t
  have hlen := brokenLength_of_broken hh hb t
  have hstanding : standing (h ++ b :: t) = .broken := by
    rw [List.append_cons]
    exact standing_append_of_broken (by simp) hb t
  obtain ⟨a, rest, hcons⟩ := List.exists_cons_of_ne_nil (l := h ++ b :: t) (by simp)
  obtain ⟨k, hk⟩ : ∃ k, max h.length 1 = k + 1 := ⟨max h.length 1 - 1, by omega⟩
  rw [hk] at hlen ⊢
  rw [hcons] at hfirst hlen hstanding ⊢
  rw [settled, hfirst]
  simp [hstanding, hlen]

/-! ## One byte at a time -/

theorem holdable_step {h : Bytes} (b : UInt8) : Holdable (step h b).2 := by
  simp only [step]
  split
  · exact holdable_nil
  · rename_i hs
    exact .inr hs
  · split
    · exact holdable_nil
    · split
      · exact holdable_nil
      · rename_i hs
        exact .inr hs
      · exact holdable_nil

/-- The step from nothing held. -/
theorem settled_cons (b : UInt8) (t : Bytes) :
    settled (b :: t) =
      ((step [] b).1 ++ (settled ((step [] b).2 ++ t)).1, (settled ((step [] b).2 ++ t)).2) := by
  cases hs : standing [b] with
  | complete c =>
    rw [← List.nil_append (b :: t), settled_of_complete holdable_nil hs]
    simp [step, hs]
  | unfinished => simp [step, hs]
  | broken =>
    rw [← List.nil_append (b :: t), settled_of_broken holdable_nil hs]
    simp [step, hs]

/-- **The machine decodes.** One step settles of held bytes and the next byte what decoding the
whole run settles of them, and holds back what decides the rest. -/
theorem settled_append_cons {h : Bytes} (hh : Holdable h) (b : UInt8) (t : Bytes) :
    settled (h ++ b :: t) =
      ((step h b).1 ++ (settled ((step h b).2 ++ t)).1, (settled ((step h b).2 ++ t)).2) := by
  cases hs : standing (h ++ [b]) with
  | complete c =>
    rw [settled_of_complete hh hs]
    simp [step, hs]
  | unfinished => simp [step, hs]
  | broken =>
    rcases h with _ | ⟨a, h⟩
    · exact settled_cons b t
    · -- the held start is one replacement, and the byte is looked at afresh
      have hdrop : (a :: h ++ b :: t).drop (max (a :: h).length 1) = b :: t := by simp
      rw [settled_of_broken hh hs, hdrop, settled_cons]
      rw [List.cons_append] at hs
      cases hb : standing [b] <;> simp [step, hs, hb]

theorem holdable_settled (bytes : Bytes) : Holdable (settled bytes).2 := by
  suffices h : ∀ held, Holdable held → Holdable (settled (held ++ bytes)).2 from h [] holdable_nil
  induction bytes with
  | nil =>
    intro held hh
    rwa [List.append_nil, hh.settled_eq]
  | cons b bytes ih =>
    intro held hh
    rw [settled_append_cons hh]
    exact ih _ (holdable_step b)

/-! ## To the end of the bytes -/

/-- A held start is what a single replacement stands for, if nothing follows it. -/
theorem Holdable.brokenLength_eq {b : UInt8} {h : Bytes} (hh : Holdable (b :: h)) :
    brokenLength (b :: h) = h.length + 1 := by
  have hstanding := hh.standing_eq (by simp)
  have hlen := hh.length_le
  rcases h with _ | ⟨c, _ | ⟨d, _ | ⟨e, h⟩⟩⟩
  · simp [brokenLength, hstanding]
  · simp [brokenLength, hstanding]
  · simp [brokenLength, hstanding]
  · simp only [List.length_cons] at hlen
    omega

theorem toList_lossyOnto (done : String) (bytes : Bytes) :
    (lossyOnto done bytes).toList =
      done.toList ++ (settled bytes).1 ++ if (settled bytes).2 = [] then [] else [replacement] := by
  fun_induction lossyOnto done bytes with
  | case1 done => simp [settled]
  | case2 done b rest n c hfirst ih =>
    rw [settled, hfirst, ih]
    simp
  | case3 done b rest hfirst ih =>
    rw [ih, settled, hfirst]
    by_cases hstanding : standing (b :: rest) = .unfinished
    · -- What is held at the end is one maximal subpart, so nothing is left behind it.
      rw [Holdable.brokenLength_eq (.inr hstanding), Nat.add_sub_cancel, List.drop_length, settled]
      simp [hstanding]
    · simp [hstanding]

/-- At the end of the bytes what is held back becomes one replacement. -/
theorem toList_lossy (bytes : Bytes) :
    (lossy bytes).toList =
      (settled bytes).1 ++ if (settled bytes).2 = [] then [] else [replacement] := by
  rw [lossy, toList_lossyOnto]
  rfl

end ChatStream.Utf8
