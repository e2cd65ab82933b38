import ChatStream.Proofs.Budget.Readings

/-!
# The calls of a budget

Readings and words on a summary reach a budget in any order. The two have nothing to do with each
other: `Budget.announcements_eq` says that the readings get the notices that they would get alone,
and `Budget.taken_run` that a request for a summary is there when it is taken if and only if it was
the last word, whatever was read in between. What remains is a fact about readings, and
`Budget.run_announces` puts it together: each stretch of readings near the limit has one notice, at
its first reading, although the window moves as the readings say.
-/

namespace ChatStream

/-- What is asked of a budget. -/
inductive BudgetCall
  | observe (u : Usage)
  | requestSummary
  | clearSummary
  | takeSummary

/-- What a budget gives back. -/
inductive BudgetReply
  /-- The notice that is due. -/
  | notice (n : Option NearLimit)
  /-- Whether a summary was asked for. -/
  | taken (wanted : Bool)
  | done

namespace BudgetCall

/-- The reading that a call brings. -/
def reading? : BudgetCall → Option Usage
  | observe u => some u
  | _ => none

/-- What a call says about a summary: that there is to be one, or that there is none to be any
more. -/
def word? : BudgetCall → Option Bool
  | observe _ => none
  | requestSummary => some true
  | clearSummary => some false
  | takeSummary => some false

end BudgetCall

namespace BudgetReply

/-- The answer to a reading. -/
def notice? : BudgetReply → Option (Option NearLimit)
  | notice n => some n
  | _ => none

end BudgetReply

namespace Budget

/-- Answers a call. -/
def call (b : Budget) : BudgetCall → Budget × BudgetReply
  | .observe u => ((b.observe u).1, .notice (b.observe u).2)
  | .requestSummary => (b.requestSummary, .done)
  | .clearSummary => (b.clearSummary, .done)
  | .takeSummary => (b.takeSummary.1, .taken b.takeSummary.2)

/-- Answers one call after another. -/
def run (b : Budget) : List BudgetCall → Budget × List BudgetReply
  | [] => (b, [])
  | c :: cs => (((b.call c).1.run cs).1, (b.call c).2 :: ((b.call c).1.run cs).2)

/-- The readings among several calls. -/
def readings (calls : List BudgetCall) : List Usage := calls.filterMap BudgetCall.reading?

/-- The answers to these readings. -/
def announcements (b : Budget) (calls : List BudgetCall) : List (Option NearLimit) :=
  (b.run calls).2.filterMap BudgetReply.notice?

/-- The last word on a summary among several calls, or else the one before them. -/
def lastWord (before : Bool) (calls : List BudgetCall) : Bool :=
  (calls.filterMap BudgetCall.word?).getLast?.getD before

/-! ## Readings among other calls -/

section
variable (b : Budget) (calls : List BudgetCall)

/-- A budget with another word on a summary answers readings as it does itself. -/
theorem notices_summarize (summarize : Bool) (us : List Usage) :
    ({ b with summarize } : Budget).notices us = b.notices us := by
  induction us generalizing b with
  | nil => rfl
  | cons u us ih =>
    rw [notices, notices, observe_summarize]
    exact congrArg _ (ih (b.observe u).1)

theorem after_summarize (summarize : Bool) (us : List Usage) :
    ({ b with summarize } : Budget).after us = { b.after us with summarize } := by
  induction us generalizing b with
  | nil => rfl
  | cons u us ih =>
    rw [after, List.foldl_cons, observe_summarize]
    exact ih (b.observe u).1

/-- A call is a reading, or it is about a summary and about nothing else. -/
theorem call_cases (c : BudgetCall) :
    (∃ u, c = .observe u) ∨
      c.reading? = none ∧ (b.call c).2.notice? = none ∧
        ∃ summarize, (b.call c).1 = { b with summarize } := by
  cases c with
  | observe u => exact .inl ⟨u, rfl⟩
  | requestSummary => exact .inr ⟨rfl, rfl, true, rfl⟩
  | clearSummary | takeSummary => exact .inr ⟨rfl, rfl, false, rfl⟩

/-- The readings among the calls are answered as if there were no other calls. -/
theorem announcements_eq : b.announcements calls = b.notices (readings calls) := by
  induction calls generalizing b with
  | nil => rfl
  | cons c calls ih =>
    have hrest := ih (b.call c).1
    rw [announcements] at hrest ⊢
    rw [run, readings, List.filterMap_cons, List.filterMap_cons, hrest]
    rcases b.call_cases c with ⟨u, rfl⟩ | ⟨hreading, hnotice, summarize, hcall⟩
    · rfl
    · rw [hreading, hnotice, hcall, notices_summarize]
      rfl

/-- What the readings leave behind is left whatever else was called. -/
theorem after_run :
    { (b.run calls).1 with summarize := b.summarize } = b.after (readings calls) := by
  induction calls generalizing b with
  | nil => rfl
  | cons c calls ih =>
    rcases b.call_cases c with ⟨u, rfl⟩ | ⟨hreading, -, summarize, hcall⟩
    · have hsummarize : (b.observe u).1.summarize = b.summarize := by rw [observe_eq]
      have hrest := ih (b.observe u).1
      rw [hsummarize] at hrest
      exact hrest
    · have hrest := ih { b with summarize }
      rw [after_summarize] at hrest
      -- The word of the call and the later ones are all undone in the end.
      have hback := congrArg (fun d : Budget ↦ { d with summarize := b.summarize }) hrest
      have hreadings : readings (c :: calls) = readings calls := by
        rw [readings, List.filterMap_cons, hreading, readings]
      have hown := b.after_summarize b.summarize (readings calls)
      rw [run, hcall, hreadings, hown]
      exact hback

/-! ## Words on a summary among other calls -/

theorem summarize_call (c : BudgetCall) :
    (b.call c).1.summarize = c.word?.getD b.summarize := by
  cases c with
  | observe u => rw [call, observe_eq]; rfl
  | _ => rfl

theorem lastWord_cons (before : Bool) (c : BudgetCall) :
    lastWord before (c :: calls) = lastWord (c.word?.getD before) calls := by
  rw [lastWord, lastWord, List.filterMap_cons]
  cases c.word? with
  | none => rfl
  | some word =>
    dsimp only
    rw [List.getLast?_cons]
    rfl

/-- A request is there when it is taken if and only if it was the last word, whatever was read. -/
theorem taken_run {i : Nat} (hi : calls[i]? = some .takeSummary) :
    (b.run calls).2[i]? = some (.taken (lastWord b.summarize (calls.take i))) := by
  induction calls generalizing b i with
  | nil => cases hi
  | cons c calls ih =>
    cases i with
    | zero =>
      obtain rfl := Option.some.inj hi
      rfl
    | succ i =>
      rw [run, List.getElem?_cons_succ, ih (b.call c).1 hi, List.take_succ_cons, lastWord_cons,
        summarize_call]

end

/-! ## Stretches near the limit -/

variable {b : Budget}

/-- The readings from `i` up to `j`, without `j`, are near the limits then in force, and neither is
the one before them nor the one behind. -/
structure Stretch (b : Budget) (us : List Usage) (i j : Nat) : Prop where
  nonempty : i < j
  near : ∀ k, i ≤ k → k < j → b.isNearAt us k = true
  first : i = 0 ∨ b.isNearAt us (i - 1) = false
  last : b.isNearAt us j = false

/-- How a budget announces that a conversation is near its limit, in the course of some calls. -/
structure Announces (b : Budget) (calls : List BudgetCall) : Prop where
  /-- A reading has a notice, of its tokens and the window then in force, if and only if it is near
  the limit and is the first or comes after one that was not. -/
  notice : ∀ i, (b.announcements calls)[i]? = (readings calls)[i]?.map fun u ↦
    if b.isNearAt (readings calls) i = true ∧
        (i = 0 ∨ b.isNearAt (readings calls) (i - 1) = false) then
      some { tokens := u.tokens, limit := windowAfter b.limit ((readings calls).take (i + 1)) }
    else none
  /-- Every stretch of readings near the limit has one notice. -/
  once : ∀ i j, b.Stretch (readings calls) i j →
    ∃! k, i ≤ k ∧ k < j ∧ ∃ n, (b.announcements calls)[k]? = some (some n)
  /-- A request for a summary is there when it is taken if and only if it was the last word on one,
  whatever was read. -/
  summary : ∀ i, calls[i]? = some BudgetCall.takeSummary →
    (b.run calls).2[i]? = some (BudgetReply.taken (lastWord false (calls.take i)))

/-- A reading in a stretch is announced if and only if it is the first. -/
theorem Stretch.announced_iff {us : List Usage} {i j : Nat} (h : b.Stretch us i j) {k : Nat}
    (hik : i ≤ k) (hkj : k < j) : (k = 0 ∨ b.isNearAt us (k - 1) = false) ↔ k = i := by
  constructor
  · intro hfirst
    by_contra hne
    have hbefore := h.near (k - 1) (by omega) (by omega)
    rcases hfirst with rfl | hfar
    · omega
    · exact Bool.false_ne_true (hfar.symm.trans hbefore)
  · rintro rfl
    exact h.first

/-- **Notices on crossings.** A budget announces once for each stretch of readings near the limit
that it is near, however the readings move the window, and in whatever order it is asked for a
summary meanwhile. -/
theorem run_announces (limit : Nat) (nearFraction : Decimal.Single) (calls : List BudgetCall) :
    (new limit nearFraction).Announces calls := by
  generalize hb : new limit nearFraction = b
  have hnotified : b.notified = false ∧ b.summarize = false := by
    rw [← hb]
    exact ⟨rfl, rfl⟩
  have hnotice (i : Nat) : (b.announcements calls)[i]? = (readings calls)[i]?.map fun u ↦
      if b.isNearAt (readings calls) i = true ∧
          (i = 0 ∨ b.isNearAt (readings calls) (i - 1) = false) then
        some { tokens := u.tokens, limit := windowAfter b.limit ((readings calls).take (i + 1)) }
      else none := by
    have hwas : b.wasNear (readings calls) i = false ↔
        i = 0 ∨ b.isNearAt (readings calls) (i - 1) = false := by
      cases i with
      | zero => exact iff_of_true hnotified.1 (.inl rfl)
      | succ i => exact ⟨.inr, fun h ↦ h.resolve_left i.succ_ne_zero⟩
    rw [announcements_eq, getElem?_notices]
    simp only [hwas]
  refine ⟨hnotice, fun i j hstretch ↦ ?_, fun i hi ↦ ?_⟩
  · have hannounced {k : Nat} (hik : i ≤ k) (hkj : k < j) :
        (∃ n, (b.announcements calls)[k]? = some (some n)) ↔ k = i := by
      have hnear := hstretch.near k hik hkj
      rw [← hstretch.announced_iff hik hkj, hnotice]
      rw [isNearAt, Option.any_eq_true] at hnear
      obtain ⟨u, hu, -⟩ := hnear
      simp [hu, hstretch.near k hik hkj]
    refine ⟨i, ⟨Nat.le_refl i, hstretch.nonempty, ?_⟩, ?_⟩
    · exact (hannounced (Nat.le_refl i) hstretch.nonempty).mpr rfl
    · rintro k ⟨hik, hkj, hk⟩
      exact (hannounced hik hkj).mp hk
  · rw [b.taken_run calls hi, hnotified.2]

/-- Fifty tokens come near the limit and leave it again as the window shrinks and grows. -/
example :
    (new 100 (.finite false 13421773 (-24))).announcements
        [.observe ⟨50, 0⟩, .observe ⟨50, 60⟩, .requestSummary, .observe ⟨50, 0⟩,
          .observe ⟨50, 1000⟩, .takeSummary, .observe ⟨50, 50⟩] =
      [none, some ⟨50, 60⟩, none, none, some ⟨50, 50⟩] := by
  decide +kernel

end Budget

end ChatStream
