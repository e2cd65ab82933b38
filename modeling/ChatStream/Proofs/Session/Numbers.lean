import ChatStream.Proofs.Session.Operations

/-!
# Sessions and tokens have numbers that were given out

Sessions are numbered in the order in which they begin, so every number that a controller knows is
below the count of sessions begun: that of its current session, and those of the tokens that were
cancelled. The token of a session that begins is therefore a fresh one, whatever was cancelled
before.
-/

namespace ChatStream.Controller

variable {σ : Type} {c c' : Controller σ}

/-- Every number in use was given out. -/
structure Numbered (c : Controller σ) : Prop where
  token : ∀ n ∈ c.cancelledTokens, n < c.sessionsBegun
  session : ∀ s, c.session = some s → s.id < c.sessionsBegun

namespace Numbered

/-- Nothing that is numbered changes. -/
theorem congr (hc : c.Numbered) (htokens : c'.cancelledTokens = c.cancelledTokens)
    (hbegun : c'.sessionsBegun = c.sessionsBegun)
    (hsession : ∀ s', c'.session = some s' → ∃ s, c.session = some s ∧ s'.id = s.id) :
    c'.Numbered where
  token n hn := by
    rw [hbegun]
    exact hc.token n (htokens ▸ hn)
  session s' hs' := by
    obtain ⟨s, hs, hid⟩ := hsession s' hs'
    rw [hbegun, hid]
    exact hc.session s hs

theorem keeps (hc : c.Numbered) (hkeeps : Keeps c c') : c'.Numbered :=
  hc.congr hkeeps.cancelledTokens hkeeps.sessionsBegun fun s hs ↦
    ⟨s, hkeeps.session.symm.trans hs, rfl⟩

theorem cancelToken (hc : c.Numbered) {session : Nat} (hbegun : session < c.sessionsBegun) :
    (c.cancelToken session).Numbered := by
  rw [Controller.cancelToken]
  split
  · exact hc
  · exact ⟨List.forall_mem_cons.mpr ⟨hbegun, hc.token⟩, hc.session⟩

theorem onSession (hc : c.Numbered) {s s' : Session} (hs : c.session = some s)
    (hid : s'.id = s.id) : Numbered { c with session := some s' } :=
  hc.congr rfl rfl fun _ hs' ↦ ⟨s, hs, Option.some.inj hs' ▸ hid⟩

theorem move (hc : c.Numbered) (hmove : Move c c') : c'.Numbered := by
  cases hmove with
  | log l => exact hc.keeps (keeps_note c l)
  | time | store | summary => exact hc.congr rfl rfl fun s hs ↦ ⟨s, hs, rfl⟩
  | token hbegun => exact hc.cancelToken hbegun
  | ask hs =>
    refine Numbered.keeps ?_ (keeps_act _ _)
    exact hc.onSession hs rfl
  | opened _ hs | chunk _ hs | streamEnd hs => exact hc.onSession hs rfl
  | fragment text scheduled hs =>
    refine hc.onSession hs ?_
    rw [Session.fragment_eq]
  | paint hs =>
    refine Numbered.keeps ?_ (keeps_tellUpdate _ _ _)
    exact hc.onSession hs rfl
  | @finish s e hs hl =>
    -- Only a cancelled session cancels a token, which is its own.
    have hwithdraw : (c.withdraw s.id e).Numbered := by
      rw [withdraw]
      split_ifs
      · exact hc.cancelToken (hc.session s hs)
      · exact hc
    have hbegun : (c.withdraw s.id e).sessionsBegun = c.sessionsBegun := by
      rw [withdraw, cancelToken_eq]
      split_ifs <;> rfl
    refine Numbered.keeps ?_ (keeps_finish hs hl e)
    exact ⟨fun n hn ↦ hbegun ▸ hwithdraw.token n hn, fun _ hs' ↦
      Option.some.inj hs' ▸ hc.session s hs⟩
  | launch p hidle =>
    refine Numbered.keeps ?_ (keeps_launch c p)
    exact ⟨fun n hn ↦ Nat.lt_succ_of_lt (hc.token n hn), fun _ hs ↦
      Option.some.inj hs ▸ Nat.lt_succ_self _⟩

theorem moves (hc : c.Numbered) (hmoves : Moves c c') : c'.Numbered := by
  induction hmoves with
  | refl => exact hc
  | tail _ hmove ih => exact ih.move hmove

theorem apply (hc : c.Numbered) (op : Op σ) : (c.apply op).Numbered := by
  cases hop : op.isMeasure with
  | false => exact hc.moves (moves_apply c hop)
  | true =>
    obtain rfl := Op.eq_measure hop
    exact hc.keeps (keeps_measure c)

end Numbered

theorem numbered_new (archive : Archive σ) (store : σ) (config : Config)
    (transportName : String) : (new archive store config transportName).Numbered where
  token _ hn := absurd hn List.not_mem_nil
  session _ hs := absurd hs.symm (Option.some_ne_none _)

theorem Numbered.run (hc : c.Numbered) (ops : List (Op σ)) : (c.run ops).Numbered := by
  induction ops generalizing c with
  | nil => exact hc
  | cons op ops ih => exact ih (hc.apply op)

theorem Reached.numbered (hc : c.Reached) : c.Numbered := by
  obtain ⟨archive, store, config, transportName, ops, rfl⟩ := hc
  exact (numbered_new archive store config transportName).run ops

/-- The token of a session that begins is not cancelled. -/
theorem Numbered.isCancelled_sessionsBegun (hc : c.Numbered) :
    c.isCancelled c.sessionsBegun = false := by
  rw [isCancelled, Bool.eq_false_iff, Ne, List.contains_iff_mem]
  exact fun hmem ↦ Nat.lt_irrefl _ (hc.token _ hmem)

end ChatStream.Controller
