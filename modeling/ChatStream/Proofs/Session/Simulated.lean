import ChatStream.Proofs.Session.Numbers
import ChatStream.Session.Simulation

/-!
# A simulation takes steps

A simulation puts a scripted transport and a clock around a controller and takes its steps itself,
piece by piece. `attempt_eq_step` says that whenever it has taken one, that was a step of the
controller with some wait, in which at most the token of the current session was cancelled. What is
proved of all steps therefore holds of simulated ones.
-/

namespace ChatStream

open Controller

/-! ## Waits -/

namespace Controller

variable {σ : Type} {c c₁ c₂ : Controller σ}

/-- The second controller is the first at the end of a wait, whatever ends it. -/
def Waited (c c' : Controller σ) : Prop :=
  ∃ sessions, ∀ wake, c' = c.pass { cancelled := sessions, now := c.now, wake }

theorem Waited.refl (c : Controller σ) : c.Waited c := ⟨[], fun _ ↦ rfl⟩

theorem waited_cancelToken {session : Nat} (hbegun : session < c.sessionsBegun) :
    c.Waited (c.cancelToken session) := by
  refine ⟨[session], fun wake ↦ ?_⟩
  rw [pass, List.foldl_cons, List.foldl_nil, cancelHandle, if_pos hbegun, cancelToken_eq]

theorem exists_step_of_answer {r : Request} (hturn : c.turn = .opening c₁ r)
    (hwaited : c₁.Waited c₂) (answer : Except TransportError Nat) :
    ∃ w, c.step w = ((c₂.onAnswer answer).1, some (c₂.onAnswer answer).2) := by
  obtain ⟨sessions, hpass⟩ := hwaited
  refine ⟨{ cancelled := sessions, now := c₁.now, wake := .answer answer }, ?_⟩
  rw [step.eq_def, hturn, hpass (.answer answer)]

theorem exists_step_of_item {n : Nat} {tick : Option Tick} (hturn : c.turn = .reading n tick)
    (hwaited : c.Waited c₁) (item : Option Item) :
    ∃ w, c.step w = ((c₁.onItem item).1, some (c₁.onItem item).2) := by
  obtain ⟨sessions, hpass⟩ := hwaited
  refine ⟨{ cancelled := sessions, now := c.now, wake := .item item }, ?_⟩
  rw [step.eq_def, hturn, hpass (.item item)]

theorem exists_step_of_tick {n : Nat} {t : Tick} (hturn : c.turn = .reading n (some t)) :
    ∃ w, c.step w = ((c.onTick t.id).1, some (c.onTick t.id).2) := by
  refine ⟨{ now := c.now, wake := .tick }, ?_⟩
  rw [step.eq_def, hturn]
  rfl

end Controller

/-! ## Attempts -/

namespace Simulation

variable {s s' : Simulation} {o : StepResult}

theorem conclude_did {r : Controller Ledger × StepResult} (h : s.conclude r = (s', .did o)) :
    r = (s'.controller, o) := by
  rw [conclude, Prod.mk.injEq, Attempt.did.injEq] at h
  exact Prod.ext (congrArg controller h.1) h.2

theorem giveStream_did {n : Nat} (h : s.giveStream n = (s', .did o)) :
    s.controller.onAnswer (.ok n) = (s'.controller, o) := by
  rw [giveStream] at h
  dsimp only at h
  split at h
  · exact conclude_did h
  · cases h
    rfl

theorem waited_interrupt (hs : s.controller.Numbered) (transport : Scripted) :
    s.controller.Waited (interrupt { s with transport }).controller := by
  rw [interrupt]
  split
  · rename_i session hsession
    exact waited_cancelToken (hs.session session hsession)
  · exact .refl _

/-- A request that is answered ends a step. -/
theorem ask_did {c : Controller Ledger} {r : Request} (hturn : c.turn = .opening s.controller r)
    (hs : s.controller.Numbered) (h : s.ask r = (s', .did o)) :
    ∃ w, c.step w = (s'.controller, some o) := by
  have hanswer {c₂ : Controller Ledger} (hwaited : s.controller.Waited c₂)
      {answer : Except TransportError Nat} (hdid : c₂.onAnswer answer = (s'.controller, o)) :
      ∃ w, c.step w = (s'.controller, some o) := by
    obtain ⟨w, hstep⟩ := exists_step_of_answer hturn hwaited answer
    rw [hdid] at hstep
    exact ⟨w, hstep⟩
  rw [ask] at h
  dsimp only at h
  split at h
  · have hdid := giveStream_did h
    exact hanswer (.refl _) hdid
  · exact hanswer (.refl _) (conclude_did h)
  · cases h
  · have hdid := giveStream_did h
    exact hanswer (waited_interrupt hs _) hdid
  · have hdid := giveStream_did h
    exact hanswer (.refl _) hdid

/-- A read that finds something ends a step. -/
theorem readStream_did {n : Nat} {tick : Option Tick}
    (hturn : s.controller.turn = .reading n tick) (hs : s.controller.Numbered)
    (h : s.readStream n tick = (s', .did o)) :
    ∃ w, s.controller.step w = (s'.controller, some o) := by
  have hitem {c₁ : Controller Ledger} (hwaited : s.controller.Waited c₁) {item : Option Item}
      (hdid : c₁.onItem item = (s'.controller, o)) :
      ∃ w, s.controller.step w = (s'.controller, some o) := by
    obtain ⟨w, hstep⟩ := exists_step_of_item hturn hwaited item
    rw [hdid] at hstep
    exact ⟨w, hstep⟩
  rw [readStream] at h
  dsimp only at h
  -- The read may cancel the token of the session before it is answered.
  have hwaited : ∀ b : Bool, s.controller.Waited
      (if b then interrupt { s with transport := (s.transport.read n).1 }
        else { s with transport := (s.transport.read n).1 }).controller := by
    intro b
    cases b with
    | true => exact waited_interrupt hs _
    | false => exact .refl _
  split at h
  · exact hitem (hwaited _) (conclude_did h)
  · exact hitem (hwaited _) (conclude_did h)
  · cases h

/-- **Simulated steps are steps.** -/
theorem attempt_eq_step (hs : s.controller.Numbered) (h : s.attempt = (s', .did o)) :
    ∃ w, s.controller.step w = (s'.controller, some o) := by
  have hturns := s.controller.turns
  generalize hturn : s.controller.turn = turn at hturns
  rw [attempt, hturn] at h
  cases hturns with
  | idle => cases h
  | cancelled | opening =>
    refine ⟨{ now := 0, wake := .nothing }, ?_⟩
    rw [step.eq_def, hturn]
    exact congrArg (fun r ↦ (r.1, some r.2)) (conclude_did h)
  | unopened hsession hphase hfree =>
    exact ask_did (s := { s with controller := _ }) hturn
      (hs.move (.ask hsession hphase hfree)) h
  | @reading session n hsession hphase hfree =>
    cases hwaiting : session.schedule.waiting with
    | none =>
      rw [hwaiting] at h hturn
      exact readStream_did hturn hs h
    | some t =>
      rw [hwaiting] at h hturn
      dsimp only at h
      split at h
      · obtain ⟨w, hstep⟩ := exists_step_of_tick hturn
        rw [conclude_did h] at hstep
        exact ⟨w, hstep⟩
      · exact readStream_did hturn hs h

end Simulation

end ChatStream
