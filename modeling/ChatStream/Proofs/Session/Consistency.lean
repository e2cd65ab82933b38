import ChatStream.Proofs.Session.Records

/-!
# Controllers between two operations

A session holds a request, then a stream, and in the end nothing but its text. Some of this is so by
what a phase is: a session that is over has no request and no stream, and a failure if and only if
it failed. `Consistent` says what operations have to see to. While a session is streaming it has its
request or its stream, when it is over nothing is left of its lines, ticks and text to come, and the
token of a session that was cancelled is cancelled.

## Steps that are given up

A step that is given up while it waits for an answer leaves a session behind that has neither a
request nor a stream, and the next step fails it for that. In a run whose steps all come to a result
there is no such session, so that this failure is never seen. `runsThrough` singles these runs out;
for the rest of the invariant it makes no difference.

## Who cancels a token

A token is cancelled by whoever holds its handle, or by the controller, which does so only in ending
the session as cancelled. So a session that completed or failed and has a cancelled token was
cancelled from outside, too late: every token is `Accounted` for.
-/

namespace ChatStream.Controller

variable {σ : Type} {c c' : Controller σ} {s : Session}

/-! ## Sessions that are over -/

/-- What is kept of a session that is over. -/
structure Sound (c : Controller σ) : Prop where
  told : ∃ h : Chronicle, h.Tells c
  spent : ∀ s, c.session = some s → s.isLive = false →
    s.lines.carry = .empty ∧ s.schedule.waiting = none ∧ s.text.pending = ""
  token : ∀ s, c.session = some s → s.phase = .ended .cancelled → c.isCancelled s.id = true

namespace Sound

theorem congr (hc : c.Sound) (htold : ∃ h : Chronicle, h.Tells c')
    (hsession : c'.session = c.session) (htokens : c.cancelledTokens ⊆ c'.cancelledTokens) :
    c'.Sound where
  told := htold
  spent s hs := hc.spent s (hsession.symm.trans hs)
  token s hs hp := isCancelled_of_subset htokens (hc.token s (hsession.symm.trans hs) hp)

/-- Of a session that is streaming there is nothing to say. -/
theorem of_live (htold : ∃ h : Chronicle, h.Tells c) (hs : c.session = some s)
    (hl : s.isLive = true) : c.Sound where
  told := htold
  spent s' hs' hl' := by
    cases hs.symm.trans hs'
    cases hl.symm.trans hl'
  token s' hs' hp := by
    cases hs.symm.trans hs'
    cases hl.symm.trans (Session.isLive_of_ended hp)

/-- The end of a session empties it, and cancels its token if it was cancelled. -/
theorem finish (hc : c.Sound) (hs : c.session = some s) (hl : s.isLive = true) (e : Ending) :
    (c.finish e).Sound := by
  obtain ⟨h, ht⟩ := hc.told
  obtain ⟨h', ht', -, -⟩ := ht.finish hs hl e
  have hopen := ht.closed_eq_false hs hl
  have hkeeps := keeps_finish hs hl e
  constructor
  · exact ⟨h', ht'⟩
  · intro s' hs' _
    cases hkeeps.session.symm.trans hs'
    rw [Session.ended, PaintSchedule.finish, hopen, if_neg Bool.false_ne_true]
    exact ⟨rfl, rfl, rfl⟩
  · intro s' hs' hp
    cases hkeeps.session.symm.trans hs'
    obtain rfl : e = .cancelled := Phase.ended.inj hp
    rw [isCancelled, hkeeps.cancelledTokens, withdraw, if_pos rfl]
    exact isCancelled_cancelToken c s.id

theorem move (hc : c.Sound) (hmove : Move c c') : c'.Sound := by
  have hlater := hmove.later.tokens
  obtain ⟨h, ht⟩ := hc.told
  have htold : ∃ h : Chronicle, h.Tells c' := by
    obtain ⟨h', ht', -, -⟩ := ht.move hmove
    exact ⟨h', ht'⟩
  cases hmove with
  | log | time | store | summary => exact hc.congr htold rfl hlater
  | @token session _ =>
    have hsession : (c.cancelToken session).session = c.session := by rw [cancelToken_eq]
    exact hc.congr htold hsession hlater
  | ask => exact .of_live htold rfl rfl
  | opened => exact .of_live htold rfl rfl
  | chunk _ hs hp | streamEnd hs hp => exact .of_live htold rfl (isLive_of_reading hp)
  | fragment _ _ hs hl =>
    refine .of_live htold rfl ?_
    rw [Session.fragment_eq]
    exact hl
  | paint hs hp => exact .of_live htold (keeps_tellUpdate _ _ _).session (isLive_of_reading hp)
  | finish e hs hl => exact hc.finish hs hl e
  | launch p => exact .of_live htold (keeps_launch c p).session rfl

theorem moves (hc : c.Sound) (hmoves : Moves c c') : c'.Sound := by
  induction hmoves with
  | refl => exact hc
  | tail _ hmove ih => exact ih.move hmove

theorem apply (hc : c.Sound) (op : Op σ) : (c.apply op).Sound := by
  cases hop : op.isMeasure with
  | false => exact hc.moves (moves_apply c hop)
  | true =>
    obtain rfl := Op.eq_measure hop
    obtain ⟨h, ht⟩ := hc.told
    obtain ⟨h', ht', -, -⟩ := ht.measure
    exact hc.congr ⟨h', ht'⟩ (keeps_measure c).session (keeps_measure c).later.tokens

theorem run (hc : c.Sound) (ops : List (Op σ)) : (c.run ops).Sound := by
  induction ops generalizing c with
  | nil => exact hc
  | cons op ops ih => exact ih (hc.apply op)

end Sound

/-! ## Steps that come to a result -/

/-- The operation would not be given up now: a step that it takes comes to a result. -/
def completes (c : Controller σ) : Op σ → Bool
  | .start p w =>
    match c.begin p with
    | .ok (c, _) => (c.step w).2.isSome
    | .error _ => true
  | .step w => !c.isStreaming || (c.step w).2.isSome
  | _ => true

/-- No operation of the run is given up. -/
def runsThrough : Controller σ → List (Op σ) → Bool
  | _, [] => true
  | c, op :: ops => c.completes op && (c.apply op).runsThrough ops

/-- The session is not between its request and its stream. -/
def Settled (c : Controller σ) : Prop := ∀ s, c.session = some s → s.phase ≠ .opening

/-- The stream of the session is open, or the session is over. -/
def Past (c : Controller σ) : Prop :=
  ∃ s, c.session = some s ∧ ((∃ n, s.phase = .reading n) ∨ ∃ e, s.phase = .ended e)

theorem Past.settled (h : c.Past) : c.Settled := by
  obtain ⟨s, hs, hphase⟩ := h
  intro s' hs' hopening
  cases hs.symm.trans hs'
  rcases hphase with ⟨n, hn⟩ | ⟨e, he⟩
  · cases hopening.symm.trans hn
  · cases hopening.symm.trans he

theorem Settled.congr (h : c.Settled) (hsession : c'.session = c.session) : c'.Settled :=
  fun s hs ↦ h s (hsession.symm.trans hs)

/-- A session does not go back on its way. -/
theorem Past.within {handles : List Nat} (h : c.Past) (hwithin : Within handles c c') :
    c'.Past := by
  obtain ⟨s, hs, hphase⟩ := h
  have hsame {s' : Session} (hs' : c'.session = some s') (hp : s'.phase = s.phase) : c'.Past := by
    refine ⟨s', hs', ?_⟩
    rw [hp]
    exact hphase
  have hnot {s' : Session} (hs' : c.session = some s') (hn : ∀ n, s'.phase ≠ .reading n)
      (he : ∀ e, s'.phase ≠ .ended e) : c'.Past := by
    cases hs.symm.trans hs'
    rcases hphase with ⟨n, hp⟩ | ⟨e, hp⟩
    · exact absurd hp (hn n)
    · exact absurd hp (he e)
  cases hwithin.move with
  | log | time | store | summary => exact hsame hs rfl
  | token =>
    rw [cancelToken_eq] at hsame ⊢
    exact hsame hs rfl
  | ask hs' hp | opened _ hs' hp =>
    refine hnot hs' (fun n ↦ ?_) fun e ↦ ?_
    · rw [hp]
      nofun
    · rw [hp]
      nofun
  | chunk _ hs' | streamEnd hs' =>
    cases hs.symm.trans hs'
    exact hsame rfl rfl
  | fragment _ _ hs' =>
    cases hs.symm.trans hs'
    refine hsame rfl ?_
    rw [Session.fragment_eq]
  | paint hs' =>
    cases hs.symm.trans hs'
    exact hsame (keeps_tellUpdate _ _ _).session rfl
  | finish e hs' hl => exact ⟨_, (keeps_finish hs' hl e).session, .inr ⟨e, rfl⟩⟩
  | launch p => exact absurd hwithin (not_within_launch c p)

theorem Past.course {handles : List Nat} (h : c.Past) (hcourse : Course handles c c') :
    c'.Past := by
  induction hcourse with
  | refl => exact h
  | tail _ hwithin ih => exact ih.within hwithin

theorem past_finish (hs : c.session = some s) (e : Ending) : (c.finish e).Past := by
  cases hl : s.isLive with
  | true => exact ⟨_, (keeps_finish hs hl e).session, .inr ⟨e, rfl⟩⟩
  | false =>
    rw [finish_of_not_live hs hl]
    exact ⟨s, hs, .inr (Session.exists_ending hl)⟩

theorem past_cancelledOpening (hs : c.session = some s) : c.cancelledOpening.1.Past := by
  rw [cancelledOpening, endCancelled]
  exact past_finish (c := c.note _) hs .cancelled

theorem past_onAnswer (hs : c.session = some s) (answer : Except TransportError Nat) :
    (c.onAnswer answer).1.Past := by
  rw [onAnswer.eq_def]
  split
  · exact past_cancelledOpening hs
  · cases answer with
    | error e => exact past_finish hs (.errored (.transport e))
    | ok n =>
      refine ⟨{ s with phase := .reading n }, ?_, .inl ⟨n, rfl⟩⟩
      simp only [onSession, hs, Option.map_some]

/-- A wait that brings nothing has a result only where the session was cancelled. -/
theorem past_endWait {r : Controller σ × StepResult} (hr : r.1.Past)
    (hresult : (c.endWait r).2.isSome = true) : (c.endWait r).1.Past := by
  rw [endWait] at hresult ⊢
  split_ifs at hresult ⊢
  · exact hr
  · cases hresult

/-- A step that comes to a result leaves no session between its request and its stream. -/
theorem settled_step {w : Wait} (hresult : (c.step w).2.isSome = true) : (c.step w).1.Settled := by
  -- A session whose stream is open or that is over never comes back to where its answer is awaited.
  by_cases hpast : c.Past
  · exact (hpast.course (course_step c w)).settled
  · have hturn := c.turns
    rw [step.eq_def] at hresult ⊢
    generalize c.turn = turn at hturn hresult ⊢
    cases hturn with
    | idle => cases hresult
    | cancelled hs => exact (past_finish hs .cancelled).settled
    | opening hs => exact (past_finish hs (.errored (.transport neverOpened))).settled
    | reading hs hp => exact absurd ⟨_, hs, .inl ⟨_, hp⟩⟩ hpast
    | @unopened s r hs =>
      -- The answer opens the stream or fails the session; all else is a result only if it was
      -- cancelled.
      have hs' := session_pass
        ({ c with session := some { s with phase := .opening } }.act (.asked r)) w
      generalize w.wake = wake at hresult ⊢
      cases wake with
      | answer a => exact (past_onAnswer hs' a).settled
      | _ => exact (past_endWait (past_cancelledOpening hs') hresult).settled

theorem settled_finish (c : Controller σ) (e : Ending) : (c.finish e).Settled := by
  cases hs : c.session with
  | none =>
    intro s' hs'
    rw [finish_of_none hs, hs] at hs'
    cases hs'
  | some s => exact (past_finish hs e).settled

theorem settled_launch (c : Controller σ) (p : Prompt) : (c.launch p).Settled := by
  intro s hs
  cases (keeps_launch c p).session.symm.trans hs
  nofun

theorem Settled.apply (h : c.Settled) (hw : c.watched = true) {op : Op σ}
    (hop : c.completes op = true) : (c.apply op).Settled := by
  cases hprompt : op.prompt? c.config with
  | some q =>
    cases op with
    | begin p =>
      rw [Op.prompt?_begin_eq_some_iff] at hprompt
      rw [Controller.apply, begin_of_isTaken hprompt.1]
      exact settled_launch _ p
    | start p w =>
      rw [Op.prompt?_start, Op.prompt?_begin_eq_some_iff] at hprompt
      rw [completes, begin_of_isTaken hprompt.1] at hop
      rw [Controller.apply, start, begin_of_isTaken hprompt.1]
      exact settled_step hop
    | _ => cases hprompt
  | none =>
    cases htouches : op.touches with
    | false => exact h.congr (apply_of_aloof hw hprompt htouches).1
    | true =>
      cases op with
      | step w =>
        rw [completes, Bool.or_eq_true, Bool.not_eq_true'] at hop
        rcases hop with hrest | hresult
        · obtain ⟨hsession, -⟩ := (course_step c w).at_rest hrest
          exact h.congr hsession
        · exact settled_step hresult
      | cancel =>
        rw [Controller.apply, cancel]
        split
        · exact settled_finish c .cancelled
        · exact h
      | drop =>
        rw [Controller.apply, drop]
        split
        · exact settled_finish _ .cancelled
        · exact h
      | _ => cases htouches

theorem Settled.run (h : c.Settled) (hw : c.watched = true) {ops : List (Op σ)}
    (hops : c.runsThrough ops = true) : (c.run ops).Settled := by
  induction ops generalizing c with
  | nil => exact h
  | cons op ops ih =>
    rw [runsThrough, Bool.and_eq_true] at hops
    exact ih (h.apply hw hops.1) ((c.later_apply op).watched.trans hw) hops.2

/-! ## Tokens -/

/-- Every token that is cancelled is one of the given handles or that of a session that ended as
cancelled. -/
def Accounted (c : Controller σ) (handles : List Nat) : Prop :=
  ∀ n ∈ c.cancelledTokens, n ∈ handles ∨ ∃ f ∈ c.finales, f.session = n ∧ f.state = .cancelled

namespace Accounted

variable {handles : List Nat}

theorem congr (ha : c.Accounted handles) (hlater : Later c c')
    (htokens : c'.cancelledTokens = c.cancelledTokens) : c'.Accounted handles := by
  intro n hn
  rw [htokens] at hn
  refine (ha n hn).imp_right ?_
  rintro ⟨f, hf, hfinale⟩
  exact ⟨f, (finales_mono hlater.deeds).subset hf, hfinale⟩

/-- A move cancels a token of a handle, or that of a session that it ends as cancelled. -/
theorem within (ha : c.Accounted handles) {h : Chronicle} (ht : h.Tells c)
    {pressed : List Nat} (hpressed : pressed ⊆ handles) (hwithin : Within pressed c c') :
    c'.Accounted handles := by
  intro n hn
  rcases hwithin.tokens n hn with hold | hhandle | ⟨s, hs, rfl, hp⟩
  · refine (ha n hold).imp_right ?_
    rintro ⟨f, hf, hfinale⟩
    exact ⟨f, (finales_mono hwithin.move.later.deeds).subset hf, hfinale⟩
  · exact .inl (hpressed hhandle)
  · -- The controller has cancelled the token itself, so the session has ended as cancelled.
    obtain ⟨h', ht', -, -⟩ := ht.move hwithin.move
    obtain ⟨fs, hfs⟩ := ht'.exists_finales_eq hs hp
    refine .inr ⟨{ session := s.id, text := s.text.committed, state := .cancelled }, ?_, rfl, rfl⟩
    rw [hfs]
    exact List.mem_append_right _ List.mem_cons_self

theorem course (ha : c.Accounted handles) {h : Chronicle} (ht : h.Tells c)
    {pressed : List Nat} (hpressed : pressed ⊆ handles) (hcourse : Course pressed c c') :
    c'.Accounted handles := by
  induction hcourse with
  | refl => exact ha
  | tail hbefore hwithin ih =>
    obtain ⟨h', ht', -, -⟩ := ht.moves (Course.moves hbefore)
    exact ih.within ht' hpressed hwithin

theorem apply (ha : c.Accounted handles) {h : Chronicle} (ht : h.Tells c) (op : Op σ) :
    (c.apply op).Accounted (handles ++ op.handles) := by
  have ha' : c.Accounted (handles ++ op.handles) := fun n hn ↦
    (ha n hn).imp_left (List.mem_append_left _)
  have hlater := c.later_apply op
  have hoperates := c.operates op
  generalize c.apply op = c' at hlater hoperates ⊢
  cases hoperates with
  | measure => exact ha'.congr hlater (keeps_measure c).cancelledTokens
  | summary summarize ls => exact ha'.congr hlater (keeps_notes _ ls).cancelledTokens
  | goesOn _ hcourse => exact ha'.course ht (List.subset_append_right _ _) hcourse
  | @begins _ _ p _ _ hcourse =>
    obtain ⟨h', ht', -, -⟩ := ht.moves c.course_settle.moves
    have hsettled := ha'.course ht (List.nil_subset _) c.course_settle
    have hlaunched := hsettled.congr (Move.later (.launch p c.isStreaming_settle))
      (keeps_launch _ p).cancelledTokens
    have ht'' := ht'.launch c.isStreaming_settle p
    exact hlaunched.course ht'' (List.subset_append_right _ _) hcourse

theorem run (ha : c.Accounted handles) {h : Chronicle} (ht : h.Tells c) (ops : List (Op σ)) :
    (c.run ops).Accounted (handles ++ ops.flatMap Op.handles) := by
  induction ops generalizing c h handles with
  | nil =>
    rw [List.flatMap_nil, List.append_nil]
    exact ha
  | cons op ops ih =>
    obtain ⟨h', ht', -, -⟩ := ht.apply op
    rw [List.flatMap_cons, ← List.append_assoc]
    exact ih (ha.apply ht op) ht'

end Accounted

/-! ## At rest -/

theorem turn_at_rest (hrest : c.isStreaming = false) : c.turn = .idle := by
  rw [turn]
  cases hs : c.session with
  | none => rfl
  | some s =>
    rw [isStreaming_of_session hs] at hrest
    obtain ⟨e, he⟩ := Session.exists_ending hrest
    dsimp only
    rw [he]

theorem step_at_rest (hrest : c.isStreaming = false) (w : Wait) : c.step w = (c, none) := by
  rw [step.eq_def, turn_at_rest hrest]

theorem cancel_at_rest (hrest : c.isStreaming = false) : c.cancel = (c, false) := by
  rw [cancel, if_neg (by rw [hrest]; exact Bool.false_ne_true)]

end ChatStream.Controller

namespace ChatStream

/-- Whether an operation wants the session to go on, or to stop. -/
def Op.isUrge {σ : Type} : Op σ → Bool
  | .step _ => true
  | .cancel => true
  | .cancelHandle _ => true
  | _ => false

namespace Controller

variable {σ : Type} {c : Controller σ} {s : Session}

/-- Steps and cancels do nothing to a controller at rest but to tokens. -/
theorem run_urges (hrest : c.isStreaming = false) {ops : List (Op σ)}
    (hops : ∀ op ∈ ops, op.isUrge = true) :
    ∃ tokens, c.run ops = { c with cancelledTokens := tokens } := by
  induction ops generalizing c with
  | nil => exact ⟨c.cancelledTokens, rfl⟩
  | cons op ops ih =>
    obtain ⟨hop, hops⟩ := List.forall_mem_cons.mp hops
    have htokens : ∃ tokens, c.apply op = { c with cancelledTokens := tokens } := by
      cases op with
      | step w => exact ⟨c.cancelledTokens, congrArg Prod.fst (step_at_rest hrest w)⟩
      | cancel => exact ⟨c.cancelledTokens, congrArg Prod.fst (cancel_at_rest hrest)⟩
      | cancelHandle n =>
        rw [apply, cancelHandle, cancelToken_eq]
        split_ifs <;> exact ⟨_, rfl⟩
      | _ => cases hop
    obtain ⟨tokens, happly⟩ := htokens
    obtain ⟨tokens', hrun⟩ := ih (c := c.apply op) (by rw [happly]; exact hrest) hops
    refine ⟨tokens', ?_⟩
    change (c.apply op).run ops = _
    rw [hrun, happly]

/-! ## Consistency -/

/-- The controller is at work on nothing, and the given handles were cancelled so far. It is idle
only before its first session. A session that is streaming has its request or its stream, and no
step finds it with neither; of one that is over nothing is left but its text. The token of a
cancelled session is cancelled, and that of another only by its handle. A session that is over stays
as it is until the next one begins. -/
structure Consistent (c : Controller σ) (handles : List Nat) : Prop where
  idle : c.state = .idle ↔ c.sessionsBegun = 0
  streaming : ∀ s, c.session = some s → s.state = .streaming →
    s.request?.isSome = !s.stream?.isSome
  turn : ∀ c' outcome, c.turn = .over c' outcome → outcome = .finished .cancelled
  ended : ∀ s, c.session = some s → s.state ≠ .streaming →
    s.lines.carry = .empty ∧ s.schedule.waiting = none ∧ s.text.pending = ""
  token : ∀ s, c.session = some s → s.state = .cancelled → c.isCancelled s.id = true
  handle : ∀ f ∈ c.finales, f.state ≠ .cancelled → c.isCancelled f.session = true →
    f.session ∈ handles
  rests : c.isStreaming = false → ∀ ops, (∀ op ∈ ops, op.prompt? c.config = none) →
    (c.run ops).session = c.session ∧ (c.run ops).finales = c.finales ∧
      (c.run ops).offers = c.offers ∧ (c.run ops).requests = c.requests ∧
      (∀ w, (c.run ops).step w = (c.run ops, none)) ∧ (c.run ops).cancel = (c.run ops, false)
  still : c.isStreaming = false → ∀ ops, (∀ op ∈ ops, op.isUrge = true) →
    ∃ tokens, c.run ops = { c with cancelledTokens := tokens }

theorem isLive_eq_false (h : s.state ≠ .streaming) : s.isLive = false := by
  rw [← Bool.not_eq_true, ← s.state_eq_streaming_iff]
  exact h

/-- Idle is what a controller is before its first session. -/
theorem state_ne_idle (s : Session) : s.state ≠ .idle := by
  rw [Session.state]
  cases s.phase with
  | ended e => cases e <;> simp [Ending.state]
  | _ => simp

theorem Sound.consistent (hsound : c.Sound) (hsettled : c.Settled) {handles : List Nat}
    (haccounted : c.Accounted handles) : c.Consistent handles := by
  obtain ⟨h, ht⟩ := hsound.told
  constructor
  · rw [ht.sessionsBegun_eq_zero_iff, state]
    cases c.session with
    | none => exact iff_of_true rfl rfl
    | some s => exact iff_of_false (state_ne_idle s) (Option.some_ne_none s)
  · intro s hs hstreaming
    have hnotOpening := hsettled s hs
    have hl := s.state_eq_streaming_iff.mp hstreaming
    rw [Session.request?, Session.stream?]
    cases hp : s.phase with
    | unopened r => rfl
    | reading n => rfl
    | opening => exact absurd hp hnotOpening
    | ended e => cases hl.symm.trans (Session.isLive_of_ended hp)
  · intro c' outcome hturn
    have hturns := c.turns
    rw [hturn] at hturns
    cases hturns with
    | cancelled => rfl
    | opening hs hp => exact absurd hp (hsettled _ hs)
  · exact fun s hs hover ↦ hsound.spent s hs (isLive_eq_false hover)
  · intro s hs hcancelled
    have hover : s.state ≠ .streaming := by
      rw [hcancelled]
      simp
    obtain ⟨e, he⟩ := Session.exists_ending (isLive_eq_false hover)
    rw [Session.state_of_ended he] at hcancelled
    cases e with
    | cancelled => exact hsound.token s hs he
    | _ => cases hcancelled
  · intro f hf hnot hcancelled
    -- A session has one finale, so the controller has not cancelled this one.
    rw [isCancelled, List.contains_iff_mem] at hcancelled
    rcases haccounted _ hcancelled with hhandle | ⟨f', hf', hid, hstate⟩
    · exact hhandle
    · rw [ht.finale_unique hf' hf hid] at hstate
      exact absurd hstate hnot
  · intro hrest ops hops
    obtain ⟨hsession, ks, houtline⟩ := run_at_rest ht.watched hrest hops
    have hrest' : (c.run ops).isStreaming = false := (isStreaming_congr hsession).trans hrest
    exact ⟨hsession, finales_of_checks houtline, offers_of_checks houtline,
      requests_of_checks houtline, step_at_rest hrest', cancel_at_rest hrest'⟩
  · intro hrest ops hops
    exact run_urges hrest hops

/-- **Consistency.** A run in which no step is given up comes to a consistent controller, with a
session that has a failure if and only if it failed, and no request and no stream when it is over.
-/
theorem run_consistent (archive : Archive σ) (store : σ) (config : Config) (transportName : String)
    (ops : List (Op σ))
    (hops : (new archive store config transportName).runsThrough ops = true) :
    ((new archive store config transportName).run ops).Consistent (ops.flatMap Op.handles) ∧
      ∀ s, ((new archive store config transportName).run ops).session = some s →
        (s.failure.isSome = true ↔ s.state = .errored) ∧
          (s.state ≠ .streaming → s.request? = none ∧ s.stream? = none) := by
  have ht := Chronicle.Tells.new archive store config transportName
  have hnone {s : Session} : (new archive store config transportName).session ≠ some s := nofun
  have hsound : (new archive store config transportName).Sound :=
    ⟨⟨_, ht⟩, fun _ hs ↦ absurd hs hnone, fun _ hs ↦ absurd hs hnone⟩
  have hsettled : (new archive store config transportName).Settled := fun _ hs ↦ absurd hs hnone
  have haccounted : (new archive store config transportName).Accounted [] :=
    fun n hn ↦ absurd hn List.not_mem_nil
  have haccounted' := haccounted.run ht ops
  rw [List.nil_append] at haccounted'
  refine ⟨(hsound.run ops).consistent (hsettled.run rfl hops) haccounted', fun s _ ↦ ?_⟩
  exact ⟨s.isSome_failure_iff, fun h ↦ ⟨Session.request?_eq_none h, Session.stream?_eq_none h⟩⟩

/-- A run with an answer that fails, a late cancel and a session that is cancelled. -/
def lateCancel : List (Op History) :=
  [.start { message := "hi" } { now := 0, wake := .answer (.ok 0) },
    .step { now := 0, wake := .item (some (.error (.read "reset"))) },
    .cancelHandle 0,
    .begin { message := "more" },
    .cancel]

theorem run_consistent_lateCancel :
    ((new History.archive {} {} "scripted").run lateCancel).Consistent [0] ∧
      ∀ s, ((new History.archive {} {} "scripted").run lateCancel).session = some s →
        (s.failure.isSome = true ↔ s.state = .errored) ∧
          (s.state ≠ .streaming → s.request? = none ∧ s.stream? = none) :=
  run_consistent History.archive {} {} "scripted" lateCancel (by decide +kernel)

end Controller

end ChatStream
