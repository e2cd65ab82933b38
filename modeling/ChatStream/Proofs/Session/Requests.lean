import ChatStream.Proofs.Session.Finales

/-!
# Which requests are handed out

A request is made when its session begins and handed out by a step, if it comes to that. In between
anything may be done with the controller, and a session may be over before its request was ever
handed out. Every request of a run is nevertheless that of the last prompt taken, at most one for
each, and what is in it depends on the prompt, the settings and the words on a summary before it.

## The last word on a summary

A summary is asked for and declined by operations of their own, and asked for it stays until a
message is taken, whatever becomes of that message. So a summary is due for the next message if and
only if the last of these three was the acceptance. `SummaryDue` says that of a list of operations,
and nothing else in a run has a part in it: no prompt that is refused, no step and no end.
-/

namespace ChatStream

/-! ## Requests -/

/-- The system instruction with a directive behind it, or in its place if it is blank or missing. -/
def directedInstruction (base : Option String) (directive : String) : String :=
  match base with
  | some text => if Text.isBlankText text then directive else text ++ "\n\n" ++ directive
  | none => directive

/-- The request is that for a prompt: its message and attachments as they are, the rest as it is
set, and a system instruction with the directive if and only if a summary is due. -/
structure Request.IsFor (r : Request) (config : Config) (p : Prompt) (due : Prop) : Prop where
  message : r.message = p.message
  model : r.model = config.model
  sampling : r.sampling = config.sampling
  attachments : r.attachments = p.attachments
  directed : due → r.system =
    some (directedInstruction (p.system.or config.systemPrompt) config.directive)
  plain : ¬ due → r.system = p.system.or config.systemPrompt

theorem isFor_buildRequest (config : Config) (p : Prompt) {summarize : Bool} {due : Prop}
    (hdue : summarize = true ↔ due) :
    (Controller.buildRequest config p summarize).IsFor config p due := by
  rw [Controller.buildRequest]
  cases summarize with
  | true =>
    have hyes : due := hdue.mp rfl
    refine ⟨rfl, rfl, rfl, rfl, fun _ ↦ ?_, fun hno ↦ absurd hyes hno⟩
    rfl
  | false =>
    have hno : ¬ due := fun hyes ↦ Bool.false_ne_true (hdue.mpr hyes)
    exact ⟨rfl, rfl, rfl, rfl, fun hyes ↦ absurd hyes hno, fun _ ↦ rfl⟩

/-! ## Histories -/

/-- In a longer list the last such element is the new one, or it is where it was and the new one
is like those behind it. -/
theorem exists_split_append_singleton {α : Type} {x y : α} {l : List α} {P : α → Prop} :
    (∃ before after, l ++ [y] = before ++ x :: after ∧ ∀ z ∈ after, P z) ↔
      y = x ∨ P y ∧ ∃ before after, l = before ++ x :: after ∧ ∀ z ∈ after, P z := by
  constructor
  · rintro ⟨before, after, hsplit, hafter⟩
    rcases List.eq_nil_or_concat after with rfl | ⟨after', last, rfl⟩
    · obtain ⟨-, hlast⟩ := List.append_inj' hsplit rfl
      exact .inl (List.head_eq_of_cons_eq hlast)
    · rw [List.concat_eq_append, ← List.cons_append, ← List.append_assoc] at hsplit
      obtain ⟨rfl, hlast⟩ := List.append_inj' hsplit rfl
      obtain rfl := List.head_eq_of_cons_eq hlast
      rw [List.concat_eq_append, List.forall_mem_append, List.forall_mem_singleton] at hafter
      exact .inr ⟨hafter.2, before, after', rfl, hafter.1⟩
  · rintro (rfl | ⟨hlast, before, after, rfl, hafter⟩)
    · exact ⟨l, [], rfl, List.forall_mem_nil _⟩
    · refine ⟨before, after ++ [y], ?_, ?_⟩
      · rw [List.append_assoc, List.cons_append]
      · exact List.forall_mem_append.mpr ⟨hafter, List.forall_mem_singleton.mpr hlast⟩

section Histories

variable {σ : Type} {config : Config} {ops pre : List (Op σ)} {op : Op σ} {p : Prompt}

/-- A summary is due: it was accepted, and since then neither was it declined nor was a message
taken. -/
def SummaryDue (config : Config) (ops : List (Op σ)) : Prop :=
  ∃ before after, ops = before ++ .acceptSummary :: after ∧
    ∀ op ∈ after, op ≠ .declineSummary ∧ op.prompt? config = none

/-- The prompt was the last one taken, after the given operations. -/
def LastPrompt (config : Config) (ops pre : List (Op σ)) (p : Prompt) : Prop :=
  ∃ op after, ops = pre ++ op :: after ∧ op.prompt? config = some p ∧
    ∀ op ∈ after, op.prompt? config = none

theorem not_summaryDue_nil : ¬ SummaryDue config ([] : List (Op σ)) := by
  rintro ⟨before, after, hnil, -⟩
  exact List.cons_ne_nil _ _ (List.append_eq_nil_iff.mp hnil.symm).2

/-- One more operation makes a summary due or leaves it due. -/
theorem summaryDue_append_singleton :
    SummaryDue config (ops ++ [op]) ↔
      op = .acceptSummary ∨
        op ≠ .declineSummary ∧ op.prompt? config = none ∧ SummaryDue config ops := by
  rw [SummaryDue, exists_split_append_singleton, and_assoc, SummaryDue]

theorem lastPrompt_of_prompt (hp : op.prompt? config = some p) :
    LastPrompt config (ops ++ [op]) ops p :=
  ⟨op, [], rfl, hp, List.forall_mem_nil _⟩

theorem LastPrompt.append (h : LastPrompt config ops pre p) (hop : op.prompt? config = none) :
    LastPrompt config (ops ++ [op]) pre p := by
  obtain ⟨first, after, rfl, hp, hafter⟩ := h
  refine ⟨first, after ++ [op], ?_, hp, ?_⟩
  · rw [List.append_assoc, List.cons_append]
  · exact List.forall_mem_append.mpr ⟨hafter, List.forall_mem_singleton.mpr hop⟩

end Histories

namespace Controller

variable {σ : Type} {c c' c'' : Controller σ} {s : Session}

/-! ## Handing out -/

/-- The request that waits to be handed out. -/
def waiting? (c : Controller σ) : Option Request := c.session.bind Session.request?

/-- On the way from the first controller to the second, the request that waited still waits, was
dropped, or was handed out, and no other was. -/
inductive HandsOut (c c' : Controller σ) : Prop
  | waits : c'.waiting? = c.waiting? → c'.requests = c.requests → HandsOut c c'
  | drops : c'.waiting? = none → c'.requests = c.requests → HandsOut c c'
  | hands {r : Request} : c.waiting? = some r → c'.waiting? = none →
      c'.requests = c.requests ++ [r] → HandsOut c c'

namespace HandsOut

theorem trans (h : HandsOut c c') (h' : HandsOut c' c'') : HandsOut c c'' := by
  cases h with
  | waits hwaiting hrequests =>
    cases h' with
    | waits hwaiting' hrequests' =>
      exact .waits (hwaiting'.trans hwaiting) (hrequests'.trans hrequests)
    | drops hwaiting' hrequests' => exact .drops hwaiting' (hrequests'.trans hrequests)
    | hands hr hwaiting' hrequests' =>
      exact .hands (hwaiting.symm.trans hr) hwaiting' (hrequests ▸ hrequests')
  | drops hwaiting hrequests =>
    cases h' with
    | waits hwaiting' hrequests' =>
      exact .drops (hwaiting'.trans hwaiting) (hrequests'.trans hrequests)
    | drops hwaiting' hrequests' => exact .drops hwaiting' (hrequests'.trans hrequests)
    | hands hr => cases hwaiting.symm.trans hr
  | hands hr hwaiting hrequests =>
    cases h' with
    | waits hwaiting' hrequests' =>
      exact .hands hr (hwaiting'.trans hwaiting) (hrequests'.trans hrequests)
    | drops hwaiting' hrequests' => exact .hands hr hwaiting' (hrequests'.trans hrequests)
    | hands hr' => cases hwaiting.symm.trans hr'

/-- No one asks for a request that no one makes. -/
theorem of_session (hsession : c'.session = c.session) (houtline : c'.outline = c.outline) :
    HandsOut c c' := by
  refine .waits ?_ ?_
  · rw [waiting?, hsession, waiting?]
  · rw [requests_eq_filterMap_outline, houtline, requests_eq_filterMap_outline]

end HandsOut

theorem waiting?_of_session (hs : c.session = some s) : c.waiting? = s.request? := by
  rw [waiting?, hs, Option.bind_some]

/-- A move within a session hands out at most the request that waits. -/
theorem Within.handsOut {handles : List Nat} {h : Chronicle} (hwithin : Within handles c c')
    (ht : h.Tells c) : HandsOut c c' := by
  -- A session past its beginning has no request to hand out, before the move or after it.
  have hpast {s s' : Session} (hs : c.session = some s) (hs' : c'.session = some s')
      (hnone : s.request? = none) (hnone' : s'.request? = none)
      (hrequests : c'.requests = c.requests) : HandsOut c c' := by
    refine .waits ?_ hrequests
    rw [waiting?_of_session hs, waiting?_of_session hs', hnone, hnone']
  cases hwithin.move with
  | log l => exact .of_session rfl (outline_note c l)
  | time | store | summary => exact .of_session rfl rfl
  | token =>
    rw [cancelToken_eq]
    exact .of_session rfl rfl
  | @ask s r hs hp =>
    refine .hands (r := r) ?_ rfl ?_
    · rw [waiting?_of_session hs, Session.request?, hp]
    · rw [requests_eq_filterMap_outline, outline_act, List.filterMap_append,
        ← requests_eq_filterMap_outline]
      rfl
  | opened n hs hp =>
    refine hpast hs rfl ?_ rfl rfl
    rw [Session.request?, hp]
  | chunk bytes hs hp | streamEnd hs hp =>
    refine hpast hs rfl ?_ ?_ rfl
    · rw [Session.request?, hp]
    · rw [Session.request?, hp]
  | fragment text scheduled hs =>
    refine .waits ?_ rfl
    rw [waiting?_of_session hs, waiting?_of_session rfl, Session.fragment_eq, Session.request?,
      Session.request?]
  | @paint s n t hs hp hwaiting =>
    have hpainted := (keeps_tellUpdate { c with session := some (s.fired t.id) } s.id
      (s.schedule.fire t.id s.text).2.2).session
    obtain ⟨ds, houtline, hds⟩ := exists_outline_paint ht.watched hwaiting
    refine hpast hs hpainted ?_ ?_ (requests_of_outline houtline fun d hd ↦ ?_)
    · rw [Session.request?, hp]
    · rw [Session.request?, Session.fired, hp]
    · obtain ⟨text, rfl⟩ := hds d hd
      rfl
  | finish e hs hl =>
    refine .drops ?_ (ht.requests_finish e)
    rw [waiting?_of_session (keeps_finish hs hl e).session]
    rfl
  | launch p => exact absurd hwithin (not_within_launch c p)

theorem Course.handsOut {handles : List Nat} {h : Chronicle} (hcourse : Course handles c c')
    (ht : h.Tells c) : HandsOut c c' := by
  induction hcourse with
  | refl => exact .of_session rfl rfl
  | tail hbefore hwithin ih =>
    obtain ⟨h', ht', -, -⟩ := ht.moves (Course.moves hbefore)
    exact ih.trans (hwithin.handsOut ht')

/-- Beginning a session ends the one before it without a request. -/
theorem requests_settle {h : Chronicle} (ht : h.Tells c) : c.settle.requests = c.requests := by
  rw [settle]
  split
  · exact ht.requests_noteFinish _ _
  · rfl

/-- An operation that begins no session hands out at most the request that waits. -/
theorem handsOut_apply {h : Chronicle} (ht : h.Tells c) {op : Op σ}
    (hop : op.prompt? c.config = none) : HandsOut c (c.apply op) := by
  cases htouches : op.touches with
  | true => exact (course_of_touches hop htouches).handsOut ht
  | false =>
    obtain ⟨hsession, ks, houtline⟩ := apply_of_aloof ht.watched hop htouches
    refine .waits ?_ (requests_of_checks houtline)
    rw [waiting?, hsession, waiting?]

/-! ## The requests of a run -/

/-- The request is that for the last prompt of a run, and so many requests were handed out before
that prompt was taken. -/
def Ordered (c₀ : Controller σ) (ops : List (Op σ)) (before : List Request) (r : Request) : Prop :=
  ∃ pre p, LastPrompt c₀.config ops pre p ∧ (c₀.run pre).requests = before ∧
    r.IsFor c₀.config p (SummaryDue c₀.config pre)

/-- The controller has handed out no request of the session that it has yet to ask for. -/
def WaitsFor (c₀ : Controller σ) (ops : List (Op σ)) (c : Controller σ) : Prop :=
  ∀ r, c.waiting? = some r → Ordered c₀ ops c.requests r

variable {c₀ : Controller σ} {ops : List (Op σ)}

/-- What is handed out is what waited. -/
theorem WaitsFor.handsOut (h : WaitsFor c₀ ops c) (hands : HandsOut c c') :
    WaitsFor c₀ ops c' ∧ (c'.requests = c.requests ∨
      ∃ r, Ordered c₀ ops c.requests r ∧ c'.requests = c.requests ++ [r]) := by
  cases hands with
  | waits hwaiting hrequests =>
    refine ⟨fun r hr ↦ ?_, .inl hrequests⟩
    rw [hrequests]
    exact h r (hwaiting.symm.trans hr)
  | drops hnone hrequests =>
    exact ⟨fun r hr ↦ absurd (hnone.symm.trans hr) nofun, .inl hrequests⟩
  | @hands r hr hnone hrequests =>
    exact ⟨fun r hr ↦ absurd (hnone.symm.trans hr) nofun, .inr ⟨r, h r hr, hrequests⟩⟩

/-- A prompt that is taken makes its request, which waits from then on. -/
theorem waitsFor_launch {h : Chronicle} (ht : h.Tells (c₀.run ops)) {op : Op σ} {p : Prompt}
    (hp : op.prompt? c₀.config = some p)
    (hdue : (c₀.run ops).budget.summarize = true ↔ SummaryDue c₀.config ops) :
    WaitsFor c₀ (ops ++ [op]) ((c₀.run ops).settle.launch p) ∧
      ((c₀.run ops).settle.launch p).requests = (c₀.run ops).requests := by
  generalize hc : c₀.run ops = c at ht hdue ⊢
  have hconfig : c.settle.config = c₀.config := by
    rw [config_settle, ← hc, (later_run c₀ ops).config]
  have hsummarize : c.settle.budget.summarize = c.budget.summarize := c.course_settle.summarize
  obtain ⟨h', ht', -, -⟩ := ht.moves c.course_settle.moves
  have hrequests : (c.settle.launch p).requests = c.requests := by
    refine (requests_of_outline (outline_launch ht'.watched p) fun d hd ↦ ?_).trans
      (requests_settle ht)
    rcases List.mem_pair.mp hd with rfl | rfl <;> rfl
  refine ⟨fun r hr ↦ ?_, hrequests⟩
  rw [waiting?_of_session (keeps_launch c.settle p).session] at hr
  obtain rfl := Option.some.inj hr
  refine ⟨ops, p, lastPrompt_of_prompt hp, ?_, ?_⟩
  · rw [hc, hrequests]
  · rw [hconfig, hsummarize]
    exact isFor_buildRequest c₀.config p hdue

/-- What an operation without a prompt leaves of the request for a summary. -/
theorem summarize_apply {op : Op σ} (hop : op.prompt? c.config = none) :
    (c.apply op).budget.summarize = op.summary?.getD c.budget.summarize := by
  have hoperates := c.operates op
  generalize c.apply op = c' at hoperates ⊢
  cases hoperates with
  | measure => exact (keeps_measure c).summarize
  | summary summarize ls hsummary =>
    rw [(keeps_notes _ ls).summarize, hsummary]
    rfl
  | goesOn hgoes hcourse =>
    rw [hcourse.summarize, hgoes.2.1]
    rfl
  | begins hsome => cases hop.symm.trans hsome

/-- A prompt that is taken uses the request for a summary up. -/
theorem summarize_apply_of_prompt {op : Op σ} {p : Prompt} (hp : op.prompt? c.config = some p) :
    (c.apply op).budget.summarize = false := by
  rw [(course_of_prompt hp).summarize, (keeps_launch _ _).summarize]
  rfl

/-- One more operation, and the budget still knows whether a summary is due. -/
theorem summaryDue_apply {op : Op σ} (hconfig : c.config = c₀.config)
    (hdue : c.budget.summarize = true ↔ SummaryDue c₀.config ops) :
    (c.apply op).budget.summarize = true ↔ SummaryDue c₀.config (ops ++ [op]) := by
  rw [summaryDue_append_singleton, ← hconfig] at *
  cases hop : op.prompt? c.config with
  | some p =>
    rw [summarize_apply_of_prompt hop]
    -- The prompt is neither an acceptance nor behind one that still counts.
    refine iff_of_false Bool.false_ne_true ?_
    rintro (rfl | ⟨-, hnone, -⟩)
    · cases hop
    · cases hnone
  | none =>
    rw [summarize_apply hop]
    cases op with
    | acceptSummary => exact iff_of_true rfl (.inl rfl)
    | declineSummary =>
      refine iff_of_false Bool.false_ne_true ?_
      rintro (haccept | ⟨hdecline, -⟩)
      · cases haccept
      · exact hdecline rfl
    | _ =>
      refine hdue.trans ⟨fun h ↦ .inr ⟨nofun, rfl, h⟩, ?_⟩
      rintro (haccept | ⟨-, -, h⟩)
      · cases haccept
      · exact h

/-- A run from a new controller: the budget knows whether a summary is due, and the request that
waits is that for the last prompt. -/
structure Orders (c₀ : Controller σ) (ops : List (Op σ)) (c : Controller σ) : Prop where
  told : ∃ h : Chronicle, h.Tells c
  due : c.budget.summarize = true ↔ SummaryDue c₀.config ops
  waits : WaitsFor c₀ ops c

/-- One more operation hands out the request that waited or the one that it made, or none. -/
theorem Orders.apply (ho : Orders c₀ ops (c₀.run ops)) (op : Op σ) :
    Orders c₀ (ops ++ [op]) ((c₀.run ops).apply op) ∧
      (((c₀.run ops).apply op).requests = (c₀.run ops).requests ∨
        ∃ r, Ordered c₀ (ops ++ [op]) (c₀.run ops).requests r ∧
          ((c₀.run ops).apply op).requests = (c₀.run ops).requests ++ [r]) := by
  obtain ⟨⟨h, ht⟩, hdue, hwaits⟩ := ho
  obtain ⟨h', ht', -, -⟩ := ht.apply op
  have hconfig := (later_run c₀ ops).config
  have hdue' : ((c₀.run ops).apply op).budget.summarize = true ↔
      SummaryDue c₀.config (ops ++ [op]) := summaryDue_apply hconfig hdue
  cases hop : op.prompt? c₀.config with
  | none =>
    have hwaits' : WaitsFor c₀ (ops ++ [op]) (c₀.run ops) := by
      intro r hr
      obtain ⟨pre, p, hlast, hrequests, hfor⟩ := hwaits r hr
      exact ⟨pre, p, hlast.append hop, hrequests, hfor⟩
    obtain ⟨hwaits'', hrequests⟩ := hwaits'.handsOut (handsOut_apply ht (hconfig ▸ hop))
    exact ⟨⟨⟨h', ht'⟩, hdue', hwaits''⟩, hrequests⟩
  | some p =>
    -- The session before is settled first, so that its request is dropped when the new one is made.
    obtain ⟨hwaits', hrequests'⟩ := waitsFor_launch ht hop hdue
    obtain ⟨h₁, ht₁, -, -⟩ := ht.moves (course_settle _).moves
    have ht₂ := ht₁.launch (isStreaming_settle _) p
    have hcourse := course_of_prompt (c := c₀.run ops) (hconfig ▸ hop)
    obtain ⟨hwaits'', hrequests⟩ := hwaits'.handsOut (hcourse.handsOut ht₂)
    rw [hrequests'] at hrequests
    exact ⟨⟨⟨h', ht'⟩, hdue', hwaits''⟩, hrequests⟩

theorem orders_new (archive : Archive σ) (store : σ) (config : Config) (transportName : String) :
    Orders (new archive store config transportName) []
      (new archive store config transportName) where
  told := ⟨_, .new archive store config transportName⟩
  due := iff_of_false Bool.false_ne_true not_summaryDue_nil
  waits _ hr := absurd hr.symm (Option.some_ne_none _)

theorem orders_run (archive : Archive σ) (store : σ) (config : Config) (transportName : String)
    (ops : List (Op σ)) :
    Orders (new archive store config transportName) ops
      ((new archive store config transportName).run ops) :=
  run_induction (orders_new archive store config transportName) (fun _ op ho ↦ (ho.apply op).1) ops

/-- What becomes of prompts and of requests in a run that has come so far. A prompt is taken if it
has a message and there is a model, and changes nothing otherwise. The next operation hands out no
request, or one: that for the last prompt taken, that operation included, since which no other
request was handed out. -/
structure RequestLaw (c₀ : Controller σ) (ops : List (Op σ)) : Prop where
  taken : ∀ p, (∃ c' n, (c₀.run ops).begin p = .ok (c', n)) ↔ p.isTaken c₀.config = true
  refused : ∀ p w, p.isTaken c₀.config = false →
    c₀.run (ops ++ [.begin p]) = c₀.run ops ∧ c₀.run (ops ++ [.start p w]) = c₀.run ops
  due : (c₀.run ops).budget.summarize = true ↔ SummaryDue c₀.config ops
  next : ∀ op, (c₀.run (ops ++ [op])).requests = (c₀.run ops).requests ∨
    ∃ r pre p, (c₀.run (ops ++ [op])).requests = (c₀.run ops).requests ++ [r] ∧
      LastPrompt c₀.config (ops ++ [op]) pre p ∧ (c₀.run pre).requests = (c₀.run ops).requests ∧
      r.IsFor c₀.config p (SummaryDue c₀.config pre)

/-- **Requests.** In every run, whatever is handed out is the request for the last prompt taken, and
is handed out once. Its message and its attachments are those of the prompt, and it has the
directive if and only if the last word on a summary before that prompt was that there is to be one.
-/
theorem run_requests (archive : Archive σ) (store : σ) (config : Config) (transportName : String)
    (ops : List (Op σ)) : RequestLaw (new archive store config transportName) ops := by
  have horders := orders_run archive store config transportName ops
  generalize new archive store config transportName = c₀ at horders ⊢
  have hconfig := (later_run c₀ ops).config
  constructor
  · intro p
    rw [← hconfig]
    constructor
    · rintro ⟨c', n, hbegin⟩
      by_contra hnot
      obtain ⟨e, he⟩ := exists_begin_eq_error (Bool.eq_false_iff.mpr hnot)
      cases hbegin.symm.trans he
    · intro htaken
      exact ⟨_, _, begin_of_isTaken htaken⟩
  · intro p w hnot
    obtain ⟨e, he⟩ := exists_begin_eq_error (c := c₀.run ops) (hconfig ▸ hnot)
    rw [run_append, run_append, run_singleton, run_singleton, Controller.apply, Controller.apply,
      start, he]
    exact ⟨rfl, rfl⟩
  · exact horders.due
  · intro op
    rw [run_append, run_singleton]
    obtain ⟨-, hsame | ⟨r, ⟨pre, p, hlast, hbefore, hfor⟩, hnew⟩⟩ := horders.apply op
    · exact .inl hsame
    · exact .inr ⟨r, pre, p, hnew, hlast, hbefore, hfor⟩

/-- A summary is accepted twice, outlasts a message that is refused, and is used up by one that is
taken back before it was ever sent. -/
def summaryUsedUp : List (Op History) :=
  [.acceptSummary, .acceptSummary, .begin { message := " " }, .begin { message := "hi" }, .cancel,
    .start { message := "more" } { now := 0, wake := .answer (.ok 0) }]

example : ((new History.archive {} {} "scripted").run summaryUsedUp).requests.map Request.system =
    [none] := by decide +kernel

end Controller

end ChatStream
