import Mathlib.Tactic
import ChatStream.History

/-!
# What a history keeps

A history is pruned after every record, and from what earlier prunings have left. What it keeps is
decided by the conversation all the same: of the records since the last clearing, the longest suffix
that fits the limits. Only a last record that is too long for the limit by itself is kept though
nothing fits.

## The argument

A suffix that fits still fits without its last record. So behind one more record nothing can fit
that did not fit before it, and what an earlier pruning took away would never be kept again
(`Retains.trans`).

`Prunes` is the pruning as a relation, in which what goes is taken off the bytes exactly. No
subtraction is rounded up to zero there, so it is part of what is shown that none ever is.
-/

namespace ChatStream

/-- What is done with a history. -/
inductive HistoryOp
  | commit (r : Record)
  | clear

/-- The records committed since the last clearing, oldest first. -/
def HistoryOp.sinceCleared (ops : List HistoryOp) : List Record :=
  ops.foldl (fun h op ↦ match op with | .commit r => h ++ [r] | .clear => []) []

namespace History

/-- Does one thing. -/
def apply (t : History) : HistoryOp → History
  | .commit r => t.commit r
  | .clear => t.clear

/-- Does one thing after another. -/
def run (t : History) (ops : List HistoryOp) : History := ops.foldl apply t

/-- The bytes of the contents of records. -/
def contentSize (rs : List Record) : Nat := (rs.map (·.content.utf8ByteSize)).sum

/-- The limits allow these records to be kept; zero is no limit. -/
def Fits (maxMessages maxBytes : Nat) (rs : List Record) : Prop :=
  (maxMessages = 0 ∨ rs.length ≤ maxMessages) ∧ (maxBytes = 0 ∨ contentSize rs ≤ maxBytes)

/-- The oldest of the records go, one after another, while a limit is passed and another record is
left. Each takes its bytes with it. -/
inductive Prunes (maxMessages maxBytes : Nat) : List Record → Nat → List Record → Nat → Prop
  | stop {rs : List Record} {bytes : Nat} (h : rs.length ≤ 1 ∨
      pastLimit maxMessages rs.length = false ∧ pastLimit maxBytes bytes = false) :
    Prunes maxMessages maxBytes rs bytes rs bytes
  | remove {r : Record} {rest rs : List Record} {bytes bytes' : Nat} (hrest : rest ≠ [])
    (h : pastLimit maxMessages (r :: rest).length = true ∨
      pastLimit maxBytes (r.content.utf8ByteSize + bytes) = true)
    (hprunes : Prunes maxMessages maxBytes rest bytes rs bytes') :
    Prunes maxMessages maxBytes (r :: rest) (r.content.utf8ByteSize + bytes) rs bytes'

/-- What is kept of the records `h`. -/
inductive Keeps (maxMessages maxBytes : Nat) (h : List Record) : List Record → Prop
  | longest {rs : List Record}
    (hlast : ∀ r ∈ h.getLast?, maxBytes = 0 ∨ r.content.utf8ByteSize ≤ maxBytes)
    (hsuffix : rs <:+ h) (hfits : Fits maxMessages maxBytes rs)
    (hlongest : ∀ s, s <:+ h → Fits maxMessages maxBytes s → s <:+ rs) :
    Keeps maxMessages maxBytes h rs
  | oversized {r : Record} (hlast : h.getLast? = some r) (hlimit : 0 < maxBytes)
    (hr : maxBytes < r.content.utf8ByteSize) : Keeps maxMessages maxBytes h [r]

variable {maxMessages maxBytes : Nat}

/-! ## Records that fit -/

theorem contentSize_cons (r : Record) (rs : List Record) :
    contentSize (r :: rs) = r.content.utf8ByteSize + contentSize rs := rfl

theorem contentSize_concat (rs : List Record) (r : Record) :
    contentSize (rs ++ [r]) = contentSize rs + r.content.utf8ByteSize := by
  simp [contentSize]

theorem pastLimit_eq_false_iff {limit n : Nat} :
    pastLimit limit n = false ↔ limit = 0 ∨ n ≤ limit := by
  simp only [pastLimit, Bool.and_eq_false_iff, decide_eq_false_iff_not]
  omega

theorem fits_iff {rs : List Record} :
    Fits maxMessages maxBytes rs ↔
      pastLimit maxMessages rs.length = false ∧ pastLimit maxBytes (contentSize rs) = false := by
  rw [Fits, pastLimit_eq_false_iff, pastLimit_eq_false_iff]

theorem fits_nil : Fits maxMessages maxBytes [] := ⟨.inr (Nat.zero_le _), .inr (Nat.zero_le _)⟩

/-- A limit on the number of records is one record at least, so only the bytes of one record can be
too many. -/
theorem fits_singleton_iff {r : Record} :
    Fits maxMessages maxBytes [r] ↔ maxBytes = 0 ∨ r.content.utf8ByteSize ≤ maxBytes := by
  have hsize : contentSize [r] = r.content.utf8ByteSize := by simp [contentSize]
  rw [Fits, hsize, List.length_singleton]
  refine and_iff_right_of_imp fun _ ↦ ?_
  omega

/-- What fits in front of another record fits. -/
theorem Fits.of_concat {rs : List Record} {r : Record} (h : Fits maxMessages maxBytes (rs ++ [r])) :
    Fits maxMessages maxBytes rs := by
  obtain ⟨hcount, hbytes⟩ := h
  rw [List.length_append, List.length_singleton] at hcount
  rw [contentSize_concat] at hbytes
  constructor <;> omega

/-- A last record that does not fit alone fits behind nothing. -/
theorem Fits.singleton_of_concat {rs : List Record} {r : Record}
    (h : Fits maxMessages maxBytes (rs ++ [r])) : Fits maxMessages maxBytes [r] := by
  have hbytes := h.2
  rw [contentSize_concat] at hbytes
  rw [fits_singleton_iff]
  omega

/-! ## Pruning -/

/-- What is known of the records `rs` that are left of `h`. -/
structure Retains (maxMessages maxBytes : Nat) (h rs : List Record) : Prop where
  suffix : rs <:+ h
  ne_nil : h ≠ [] → rs ≠ []
  longest : ∀ s, s <:+ h → Fits maxMessages maxBytes s → s <:+ rs
  fits : Fits maxMessages maxBytes rs ∨ rs.length = 1

theorem retains_nil : Retains maxMessages maxBytes [] [] :=
  ⟨List.suffix_refl _, id, fun _ hs _ ↦ hs, .inl fits_nil⟩

/-- A pruning takes away what cannot be kept, and keeps count of the bytes. -/
theorem Prunes.retains {h rs : List Record} {bytes bytes' : Nat}
    (hprunes : Prunes maxMessages maxBytes h bytes rs bytes') (hbytes : bytes = contentSize h) :
    Retains maxMessages maxBytes h rs ∧ bytes' = contentSize rs := by
  induction hprunes with
  | @stop rs bytes hstop =>
    refine ⟨⟨List.suffix_refl _, id, fun _ hs _ ↦ hs, ?_⟩, hbytes⟩
    by_cases hfits : Fits maxMessages maxBytes rs
    · exact .inl hfits
    · -- Nothing at all would fit, so that one record is left.
      have hpositive : rs ≠ [] := by
        rintro rfl
        exact hfits fits_nil
      have hlength := List.length_pos_iff.mpr hpositive
      rw [fits_iff, ← hbytes] at hfits
      exact .inr (Nat.le_antisymm (hstop.resolve_right hfits) hlength)
  | @remove r rest rs bytes bytes' hrest hpast _ ih =>
    rw [contentSize_cons, Nat.add_left_cancel_iff] at hbytes
    obtain ⟨hretains, hbytes'⟩ := ih hbytes
    refine ⟨⟨hretains.suffix.trans (List.suffix_cons r rest), fun _ ↦ hretains.ne_nil hrest, ?_,
      hretains.fits⟩, hbytes'⟩
    intro s hs hfits
    rcases List.suffix_cons_iff.mp hs with rfl | hs
    · -- All of the records fit no longer, or none of them would go.
      rw [fits_iff, contentSize_cons, ← hbytes] at hfits
      rcases hpast with hpast | hpast
      · rw [hfits.1] at hpast
        cases hpast
      · rw [hfits.2] at hpast
        cases hpast
    · exact hretains.longest s hs hfits

/-- The pruning of a history is one that takes off exactly what goes. -/
theorem prunes_prune (rs : List Record) (removed : Nat) :
    Prunes maxMessages maxBytes rs (contentSize rs)
      (prune maxMessages maxBytes rs rs.length (contentSize rs) removed).1
      (prune maxMessages maxBytes rs rs.length (contentSize rs) removed).2.1 := by
  induction rs generalizing removed with
  | nil => exact .stop (.inl (Nat.zero_le 1))
  | cons r rest ih =>
    cases rest with
    | nil => exact .stop (.inl (Nat.le_refl 1))
    | cons r' rest =>
      rw [prune]
      by_cases hpast : (pastLimit maxMessages (r :: r' :: rest).length ||
          pastLimit maxBytes (contentSize (r :: r' :: rest))) = true
      · have hsize : contentSize (r :: r' :: rest) - r.content.utf8ByteSize =
            contentSize (r' :: rest) := by
          rw [contentSize_cons, Nat.add_sub_cancel_left]
        rw [if_pos hpast, hsize, List.length_cons, Nat.add_sub_cancel]
        rw [Bool.or_eq_true] at hpast
        exact .remove (List.cons_ne_nil _ _) hpast (ih (removed + 1))
      · rw [if_neg hpast]
        rw [Bool.not_eq_true, Bool.or_eq_false_iff] at hpast
        exact .stop (.inr hpast)

/-! ## One record after another -/

/-- What is left of what was left is what is left of the whole. -/
theorem Retains.trans {h rs rs' : List Record} {r : Record}
    (hold : Retains maxMessages maxBytes h rs)
    (hnew : Retains maxMessages maxBytes (rs ++ [r]) rs') :
    Retains maxMessages maxBytes (h ++ [r]) rs' where
  suffix := hnew.suffix.trans (List.suffix_concat_iff.mpr (.inr ⟨rs, rfl, hold.suffix⟩))
  ne_nil _ := hnew.ne_nil (List.concat_ne_nil _ _)
  longest s hs hfits := by
    rcases List.suffix_concat_iff.mp hs with rfl | ⟨front, rfl, hfront⟩
    · exact List.nil_suffix
    · -- Without the last record it fitted before, so that it is still there.
      have hkept := hold.longest front hfront hfits.of_concat
      exact hnew.longest _ (List.suffix_concat_iff.mpr (.inr ⟨front, rfl, hkept⟩)) hfits
  fits := hnew.fits

/-- A history within limits that was given no record yet. -/
def limited (maxMessages maxBytes contextLimit : Nat) : History :=
  { maxMessages, maxBytes, contextLimit }

/-- The history has these limits, holds what is left of the records `h`, and counts their bytes
right. -/
structure Holds (maxMessages maxBytes contextLimit : Nat) (h : List Record) (t : History) :
    Prop where
  messages : t.maxMessages = maxMessages
  bytes : t.maxBytes = maxBytes
  context : t.contextLimit = contextLimit
  retains : Retains maxMessages maxBytes h t.records
  contentBytes : t.contentBytes = contentSize t.records

variable {contextLimit : Nat} {h : List Record} {t : History}

namespace Holds

theorem commit_prunes (ht : Holds maxMessages maxBytes contextLimit h t) (r : Record) :
    Prunes maxMessages maxBytes (t.records ++ [r]) (t.contentBytes + r.content.utf8ByteSize)
      (t.commit r).records (t.commit r).contentBytes := by
  rw [commit, commitCounting, ht.messages, ht.bytes, ht.contentBytes, ← contentSize_concat]
  exact prunes_prune (t.records ++ [r]) 0

theorem commit (ht : Holds maxMessages maxBytes contextLimit h t) (r : Record) :
    Holds maxMessages maxBytes contextLimit (h ++ [r]) (t.commit r) := by
  have hbytes : t.contentBytes + r.content.utf8ByteSize = contentSize (t.records ++ [r]) := by
    rw [ht.contentBytes, contentSize_concat]
  obtain ⟨hretains, hcounted⟩ := (ht.commit_prunes r).retains hbytes
  exact ⟨ht.messages, ht.bytes, ht.context, ht.retains.trans hretains, hcounted⟩

theorem apply (ht : Holds maxMessages maxBytes contextLimit h t) (op : HistoryOp) :
    Holds maxMessages maxBytes contextLimit
      (match op with | .commit r => h ++ [r] | .clear => []) (t.apply op) := by
  cases op with
  | commit r => exact ht.commit r
  | clear => exact ⟨ht.messages, ht.bytes, ht.context, retains_nil, rfl⟩

theorem run (ops : List HistoryOp) :
    Holds maxMessages maxBytes contextLimit (HistoryOp.sinceCleared ops)
      ((limited maxMessages maxBytes contextLimit).run ops) := by
  induction ops using List.reverseRecOn with
  | nil => exact ⟨rfl, rfl, rfl, retains_nil, rfl⟩
  | append_singleton ops op ih =>
    rw [HistoryOp.sinceCleared, History.run, List.foldl_append, List.foldl_append]
    exact ih.apply op

end Holds

/-! ## What is kept -/

theorem Retains.keeps {rs : List Record} (hrs : Retains maxMessages maxBytes h rs) :
    Keeps maxMessages maxBytes h rs := by
  by_cases hlast : ∀ r ∈ h.getLast?, Fits maxMessages maxBytes [r]
  · refine .longest (fun r hr ↦ fits_singleton_iff.mp (hlast r hr)) hrs.suffix ?_ hrs.longest
    rcases hrs.fits with hfits | hlength
    · exact hfits
    · -- One record is left, which is the last one, and that fits.
      obtain ⟨r, rfl⟩ := List.length_eq_one_iff.mp hlength
      obtain ⟨init, rfl⟩ := hrs.suffix
      exact hlast r List.getLast?_concat
  · push Not at hlast
    obtain ⟨r, hr, hoversized⟩ := hlast
    obtain ⟨init, rfl⟩ := List.getLast?_eq_some_iff.mp hr
    rcases List.suffix_concat_iff.mp hrs.suffix with rfl | ⟨kept, rfl, -⟩
    · exact absurd rfl (hrs.ne_nil (List.concat_ne_nil _ _))
    · -- Whatever is kept ends with that record and fits not, so it is that record alone.
      have hlength := hrs.fits.resolve_left fun hfits ↦ hoversized hfits.singleton_of_concat
      rw [List.length_append, List.length_singleton, Nat.add_eq_right,
        List.length_eq_zero_iff] at hlength
      subst hlength
      rw [fits_singleton_iff, not_or, Nat.not_le] at hoversized
      exact .oversized hr (Nat.pos_of_ne_zero hoversized.1) hoversized.2

/-- There is one way to keep records. -/
theorem Keeps.unique {rs rs' : List Record} (hrs : Keeps maxMessages maxBytes h rs)
    (hrs' : Keeps maxMessages maxBytes h rs') : rs = rs' := by
  cases hrs with
  | longest hlast hsuffix hfits hlongest =>
    cases hrs' with
    | longest _ hsuffix' hfits' hlongest' =>
      exact (hlongest' rs hsuffix hfits).eq_of_length_le (hlongest rs' hsuffix' hfits').length_le
    | oversized hr hlimit hsize =>
      have hsmall := hlast _ hr
      omega
  | oversized hr hlimit hsize =>
    cases hrs' with
    | longest hlast =>
      have hsmall := hlast _ hr
      omega
    | oversized hr' => rw [Option.some.inj (hr.symm.trans hr')]

theorem Holds.unique {t' : History} (ht : Holds maxMessages maxBytes contextLimit h t)
    (ht' : Holds maxMessages maxBytes contextLimit h t') : t = t' := by
  have hrecords := ht.retains.keeps.unique ht'.retains.keeps
  have hbytes : t.contentBytes = t'.contentBytes := by
    rw [ht.contentBytes, ht'.contentBytes, hrecords]
  have hcontext := ht.context.trans ht'.context.symm
  have hlimits := And.intro (ht.messages.trans ht'.messages.symm) (ht.bytes.trans ht'.bytes.symm)
  cases t
  cases t'
  simp_all

/-- **What a history keeps.** Of the records since the last clearing it keeps the longest suffix
that fits the limits, or the last record if that is too long by itself. So it does not matter what
was pruned when. The bytes are counted right, a pruning takes off exactly what goes, and a record
that is committed is the last one then. -/
theorem run_keeps (maxMessages maxBytes contextLimit : Nat) (ops : List HistoryOp) :
    let t := (limited maxMessages maxBytes contextLimit).run ops
    Keeps maxMessages maxBytes (HistoryOp.sinceCleared ops) t.records ∧
      t.contentBytes = contentSize t.records ∧
      (∀ ops', HistoryOp.sinceCleared ops' = HistoryOp.sinceCleared ops →
        (limited maxMessages maxBytes contextLimit).run ops' = t) ∧
      ∀ r, Prunes maxMessages maxBytes (t.records ++ [r])
          (t.contentBytes + r.content.utf8ByteSize) (t.commit r).records (t.commit r).contentBytes ∧
        (t.commit r).records.getLast? = some r := by
  intro t
  have ht : Holds maxMessages maxBytes contextLimit (HistoryOp.sinceCleared ops) t := Holds.run ops
  refine ⟨ht.retains.keeps, ht.contentBytes, ?_, fun r ↦ ⟨ht.commit_prunes r, ?_⟩⟩
  · intro ops' hsince
    have ht' : Holds maxMessages maxBytes contextLimit (HistoryOp.sinceCleared ops') _ :=
      Holds.run ops'
    rw [hsince] at ht'
    exact ht'.unique ht
  · have hretains := (ht.commit r).retains
    obtain ⟨front, hfront⟩ := hretains.suffix
    have hlast := List.getLast?_append_of_ne_nil front (hretains.ne_nil (List.concat_ne_nil _ _))
    rw [← hlast, hfront, List.getLast?_concat]

end History

end ChatStream
