import ChatStream.Proofs.Session.Finales

/-!
# What is kept of a conversation

A session hands in its records when it ends: its message, and behind it the answer, if that is kept.
So what an archive is given can be told from the prompts that were taken and from how the sessions
ended, without a look at the controller: the prompts and the finales, pair by pair, say which
records there are and what is in them.

`Filed` is this as an invariant. It holds for the records handed in, whatever the archive says to
them; over an archive that refuses nothing, these are the records kept. The numbers of the records
are those of a count that only grows, so no record is handed in twice.
-/

namespace ChatStream

/-! ## The records that a session calls for -/

/-- What a record says, beside its number and its date. -/
structure Entry where
  role : Role
  content : String
  model : Option String
  tokens : Option Nat
  deriving DecidableEq, Repr

def Record.entry (r : Record) : Entry where
  role := r.role
  content := r.content
  model := r.model
  tokens := r.tokenCount

/-- The answer of the session is kept. That of a completed session always is; one that failed or
was cancelled needs some text, and a cancelled one is kept only where that is set. -/
def Finale.KeepsAnswer (config : Config) (f : Finale) : Prop :=
  f.state = .completed ∨
    f.text ≠ "" ∧ (f.state = .errored ∨ f.state = .cancelled ∧ config.keepCancelled = true)

instance (config : Config) (f : Finale) : Decidable (f.KeepsAnswer config) :=
  inferInstanceAs (Decidable (_ ∨ _))

/-- The record of a message. -/
def Prompt.entry (p : Prompt) : Entry where
  role := .user
  content := p.message
  model := none
  tokens := some (tokenEstimate p.message)

/-- The record of an answer. -/
def Finale.entry (config : Config) (f : Finale) : Entry where
  role := .assistant
  content := f.text
  model := some config.model
  tokens := some (tokenEstimate f.text)

/-- The records of a session that was begun with a prompt and ended so. -/
def Finale.entries (config : Config) (p : Prompt) (f : Finale) : List Entry :=
  p.entry :: if f.KeepsAnswer config then [f.entry config] else []

/-- The record that a deed hands in, and what came of it. -/
def Deed.offer? : Deed → Option Offer
  | .committed record refusal => some { record, refusal }
  | _ => none

namespace Controller

variable {σ : Type} {c c' : Controller σ} {s : Session}

/-- The records handed in, oldest first. -/
def offers (c : Controller σ) : List Offer := c.deeds.filterMap Deed.offer?

/-- The records that the archive took, oldest first. -/
def kept (c : Controller σ) : List Record :=
  (c.offers.filter fun o ↦ o.refusal.isNone).map Offer.record

theorem keepsAnswer_iff (config : Config) (session : Nat) (e : Ending) (text : String) :
    keepsAnswer config e text = true ↔
      Finale.KeepsAnswer config { session, text, state := e.state } := by
  rw [keepsAnswer.eq_def, Finale.KeepsAnswer]
  cases e with
  | completed => simp [Ending.state]
  | errored f => simp [Ending.state]
  | cancelled => simp [Ending.state, and_comm]

/-- The record of a message as it is made now, and that of an answer made behind it. -/
theorem recordsOf_eq (c : Controller σ) (s : Session) (e : Ending) :
    c.recordsOf s e = (c.makeRecord .user s.message none).2 ::
      if keepsAnswer c.config e s.text.committed then
        [((c.makeRecord .user s.message none).1.makeRecord .assistant s.text.committed
          (some s.model)).2]
      else [] := by
  cases hkeeps : keepsAnswer c.config e s.text.committed with
  | true => exact if_pos hkeeps
  | false => exact if_neg (by rw [hkeeps]; exact Bool.false_ne_true)

theorem entry_recordsOf (s : Session) {p : Prompt} (hmessage : s.message = p.message)
    (hmodel : s.model = c.config.model) (e : Ending) :
    (c.recordsOf s e).map Record.entry = Finale.entries c.config p
      { session := s.id, text := s.text.committed, state := e.state } := by
  rw [recordsOf_eq, Finale.entries, List.map_cons, hmessage, hmodel]
  refine congrArg (p.entry :: ·) ?_
  by_cases hkeeps : keepsAnswer c.config e s.text.committed = true
  · rw [if_pos hkeeps, if_pos ((keepsAnswer_iff _ s.id e _).mp hkeeps)]
    rfl
  · rw [if_neg hkeeps, if_neg (mt (keepsAnswer_iff _ s.id e _).mpr hkeeps)]
    rfl

/-- The records of a session get the next numbers. -/
theorem id_recordsOf (c : Controller σ) (s : Session) (e : Ending) :
    (c.recordsOf s e).map Record.id =
      (List.range' c.recordsMade (c.recordsOf s e).length).map messageId := by
  rw [recordsOf_eq]
  split_ifs <;> rfl

end Controller

/-! ## Where records are handed in -/

theorem filterMap_offer?_map_shown (es : List ViewEvent) :
    (es.map Deed.shown).filterMap Deed.offer? = [] := by
  rw [List.filterMap_eq_nil_iff]
  intro d hd
  obtain ⟨e, -, rfl⟩ := List.mem_map.mp hd
  rfl

theorem Check.filterMap_offer? (k : Check) : k.deeds.filterMap Deed.offer? = [] := by
  rw [deeds, List.filterMap_cons_none rfl, filterMap_offer?_map_shown]

theorem Offer.filterMap_offer? (o : Offer) : o.deeds.filterMap Deed.offer? = [o] := by
  have hoffer : (Deed.committed o.record o.refusal).offer? = some o := rfl
  rw [deeds, List.filterMap_cons_some hoffer, filterMap_offer?_map_shown]

/-- The end of a session hands in its records, and nothing else does. -/
theorem Closing.filterMap_offer? (session : Nat) (committed : String) (k : Closing) :
    (k.deeds session committed).filterMap Deed.offer? = k.offers := by
  have hoffers : (k.offers.flatMap Offer.deeds).filterMap Deed.offer? = k.offers := by
    rw [List.filterMap_flatMap, funext Offer.filterMap_offer?, List.flatMap_singleton']
  have hlater : (k.later.flatMap Check.deeds).filterMap Deed.offer? = [] :=
    filterMap_flatMap_eq_nil Check.filterMap_offer? k.later
  rw [deeds, List.filterMap_append, List.filterMap_append, List.filterMap_append, hlater,
    k.check.filterMap_offer?, List.append_nil, List.append_nil, List.filterMap_cons_none rfl,
    List.filterMap_cons_none rfl, filterMap_offer?_map_shown, List.append_nil, hoffers]

theorem Passage.filterMap_offer? (session : Nat) (p : Passage) :
    (p.deeds session).filterMap Deed.offer? = [] := by
  cases p with
  | frame delta hne => rfl
  | check k => exact k.filterMap_offer?

theorem Block.filterMap_offer? (b : Block) :
    b.deeds.filterMap Deed.offer? = b.closing.toList.flatMap Closing.offers := by
  have hpassages := filterMap_flatMap_eq_nil (Passage.filterMap_offer? b.session) b.passages
  rw [deeds, List.filterMap_append, List.filterMap_cons_none rfl, List.filterMap_cons_none rfl,
    hpassages, List.nil_append, List.filterMap_flatMap,
    funext (Closing.filterMap_offer? b.session b.painted)]

namespace Controller

variable {σ : Type} {c c' : Controller σ} {s : Session}

theorem offers_of_outline {ds : List Deed} (h : c'.outline = c.outline ++ ds) :
    c'.offers = c.offers ++ ds.filterMap Deed.offer? := by
  rw [offers, ← filterMap_outline (fun _ ↦ rfl), h, List.filterMap_append,
    filterMap_outline (fun _ ↦ rfl), offers]

theorem offers_of_checks {ks : List Check} (h : c'.outline = c.outline ++ ks.flatMap Check.deeds) :
    c'.offers = c.offers := by
  rw [offers_of_outline h, filterMap_flatMap_eq_nil Check.filterMap_offer? ks, List.append_nil]

/-! ## Moves that end no session -/

/-- The second controller is further on with the session of the first, which has not ended between:
no record was made, and at most a request was handed out or a frame shown. -/
structure Advances (c c' : Controller σ) : Prop where
  recordsMade : c'.recordsMade = c.recordsMade
  session : ∀ s', c'.session = some s' →
    ∃ s, c.session = some s ∧ s'.message = s.message ∧ s'.model = s.model
  outline : ∃ ds, c'.outline = c.outline ++ ds ∧
    ∀ d ∈ ds, (∃ r, d = .asked r) ∨ ∃ session text, d = .shown (.render session (.frame text))

namespace Advances

/-- No one is told. -/
theorem of_outline (hmade : c'.recordsMade = c.recordsMade) (houtline : c'.outline = c.outline)
    (hsession : ∀ s', c'.session = some s' →
      ∃ s, c.session = some s ∧ s'.message = s.message ∧ s'.model = s.model) : Advances c c' :=
  ⟨hmade, hsession, [], houtline.trans (List.append_nil _).symm, List.forall_mem_nil _⟩

/-- The session changes elsewhere than in what its records say. -/
theorem onSession (hs : c.session = some s) {s' : Session} (hmessage : s'.message = s.message)
    (hmodel : s'.model = s.model) : Advances c { c with session := some s' } := by
  refine .of_outline rfl rfl fun _ hs' ↦ ?_
  obtain rfl := Option.some.inj hs'
  exact ⟨s, hs, hmessage, hmodel⟩

theorem paint (hw : c.watched = true) (hs : c.session = some s) {t : Tick}
    (hwaiting : s.schedule.waiting = some t) : Advances c (c.paint s t.id) := by
  have hpainted (update : Option Update) :=
    does_tellUpdate { c with session := some (s.fired t.id) } s.id update
  refine ⟨(hpainted _).recordsMade, fun s' hs' ↦ ?_, ?_⟩
  · cases (hpainted _).keeps.session.symm.trans hs'
    exact ⟨s, hs, rfl, rfl⟩
  · obtain ⟨ds, houtline, hds⟩ := exists_outline_paint hw hwaiting
    exact ⟨ds, houtline, fun d hd ↦ .inr ⟨s.id, hds d hd⟩⟩

end Advances

/-- A move within a session ends it, or takes it further. -/
theorem Within.advances_or_finish {handles : List Nat} (h : Within handles c c')
    (hw : c.watched = true) :
    Advances c c' ∨ ∃ s e, c.session = some s ∧ s.isLive = true ∧ c' = c.finish e := by
  have hsame : ∀ s', c.session = some s' →
      ∃ s, c.session = some s ∧ s'.message = s.message ∧ s'.model = s.model :=
    fun s' hs' ↦ ⟨s', hs', rfl, rfl⟩
  cases h.move with
  | log l => exact .inl (.of_outline rfl (outline_note c l) hsame)
  | time | store | summary => exact .inl (.of_outline rfl rfl hsame)
  | token =>
    rw [cancelToken_eq]
    exact .inl (.of_outline rfl rfl hsame)
  | @ask s r hs =>
    refine .inl ⟨rfl, fun s' hs' ↦ ?_, [.asked r], outline_act _ _, ?_⟩
    · cases hs'
      exact ⟨s, hs, rfl, rfl⟩
    · exact List.forall_mem_singleton.mpr (.inl ⟨r, rfl⟩)
  | opened _ hs | chunk _ hs | streamEnd hs => exact .inl (.onSession hs rfl rfl)
  | fragment text scheduled hs =>
    rw [Session.fragment_eq]
    exact .inl (.onSession hs rfl rfl)
  | paint hs _ hwaiting => exact .inl (.paint hw hs hwaiting)
  | finish e hs hl => exact .inr ⟨_, e, hs, hl, rfl⟩
  | launch p => exact absurd h (not_within_launch c p)

theorem model_buildRequest (config : Config) (p : Prompt) (summarize : Bool) :
    (buildRequest config p summarize).model = config.model := by
  rw [buildRequest]
  split <;> rfl

/-! ## The records of a run -/

/-- The controller was given those prompts, and has handed in the records that they and the ends of
its sessions call for. -/
structure Filed (c : Controller σ) (prompts : List Prompt) : Prop where
  told : ∃ h : Chronicle, h.Tells c
  begun : c.sessionsBegun = prompts.length
  current : ∀ s, c.session = some s →
    ∃ before p, prompts = before ++ [p] ∧ s.message = p.message ∧ s.model = c.config.model
  answered : ∀ o ∈ c.offers, Answered c.archive o
  entries : c.offers.map (fun o ↦ o.record.entry) =
    (prompts.zip c.finales).flatMap fun (p, f) ↦ f.entries c.config p
  ids : c.offers.map (fun o ↦ o.record.id) = (List.range c.recordsMade).map messageId

/-- A prompt whose session has not ended has no part in the pairs of prompts and finales. -/
theorem zip_concat {before : List Prompt} {fs : List Finale} (h : before.length = fs.length)
    {p : Prompt} : (before ++ [p]).zip fs = before.zip fs := by
  have hpairs : (before ++ [p]).zip (fs ++ []) = before.zip fs ++ [p].zip [] := List.zip_append h
  rwa [List.append_nil, List.zip_nil_right, List.append_nil] at hpairs

namespace Filed

variable {prompts : List Prompt}

/-- Neither a record is handed in nor does a session end. -/
theorem congr (hf : c.Filed prompts) (hlater : Later c c') (htold : ∃ h : Chronicle, h.Tells c')
    (hbegun : c'.sessionsBegun = c.sessionsBegun) (hmade : c'.recordsMade = c.recordsMade)
    (hsession : ∀ s', c'.session = some s' →
      ∃ s, c.session = some s ∧ s'.message = s.message ∧ s'.model = s.model)
    (hoffers : c'.offers = c.offers) (hfinales : c'.finales = c.finales) : c'.Filed prompts where
  told := htold
  begun := hbegun.trans hf.begun
  current s' hs' := by
    obtain ⟨s, hs, hmessage, hmodel⟩ := hsession s' hs'
    obtain ⟨before, p, hprompts, hmessage', hmodel'⟩ := hf.current s hs
    exact ⟨before, p, hprompts, hmessage.trans hmessage', by rw [hmodel, hmodel', hlater.config]⟩
  answered := by
    rw [hoffers, hlater.archive]
    exact hf.answered
  entries := by rw [hoffers, hfinales, hlater.config, hf.entries]
  ids := by rw [hoffers, hmade, hf.ids]

/-- The end of a session hands in its records. -/
theorem finish (hf : c.Filed prompts) (hs : c.session = some s) (hl : s.isLive = true)
    (e : Ending) : (c.finish e).Filed prompts := by
  obtain ⟨h, ht⟩ := hf.told
  obtain ⟨h', ht', -, -⟩ := ht.finish hs hl e
  obtain ⟨k, -, -, -, hrecords, hanswered, houtline⟩ := ht.exists_closing hs hl e
  obtain ⟨before, p, hprompts, hmessage, hmodel⟩ := hf.current s hs
  have hoffers : (c.finish e).offers = c.offers ++ k.offers := by
    rw [offers_of_outline houtline, k.filterMap_offer?]
  have hlater : Later c (c.finish e) := Move.later (.finish e hs hl)
  have hkeeps := keeps_finish hs hl e
  -- The session that ends is that of the last prompt, and all before it have ended.
  have hlength : before.length = c.finales.length := by
    rw [ht.length_finales, sessionsEnded, (isStreaming_of_session hs).trans hl, if_pos rfl,
      hf.begun, hprompts, List.length_append, List.length_singleton, Nat.add_sub_cancel]
  constructor
  · exact ⟨h', ht'⟩
  · exact hkeeps.sessionsBegun.trans hf.begun
  · intro s' hs'
    cases hkeeps.session.symm.trans hs'
    exact ⟨before, p, hprompts, hmessage, hmodel.trans (congrArg Config.model hlater.config.symm)⟩
  · rw [hoffers, hlater.archive]
    exact List.forall_mem_append.mpr ⟨hf.answered, hanswered⟩
  · have hentries := hf.entries
    have hnew : k.offers.map (fun o ↦ o.record.entry) =
        Finale.entries c.config p
          { session := s.id, text := s.text.committed, state := e.state } := by
      rw [← entry_recordsOf s hmessage hmodel, ← hrecords, List.map_map]
      rfl
    rw [hprompts, zip_concat hlength] at hentries
    rw [hoffers, ht.finales_finish hs hl, hlater.config, hprompts, List.zip_append hlength,
      List.map_append, hentries, hnew, List.flatMap_append]
    exact congrArg _ (List.flatMap_singleton _ _).symm
  · have hids : k.offers.map (fun o ↦ o.record.id) =
        (List.range' c.recordsMade (c.recordsOf s e).length).map messageId := by
      rw [← id_recordsOf, ← hrecords, List.map_map]
      rfl
    rw [hoffers, List.map_append, hf.ids, hids, recordsMade_finish hs hl, ← List.map_append,
      List.range_eq_range', List.range_eq_range', ← List.range'_append]
    simp

theorem within {handles : List Nat} (hf : c.Filed prompts) (h : Within handles c c') :
    c'.Filed prompts := by
  obtain ⟨chronicle, ht⟩ := hf.told
  rcases h.advances_or_finish ht.watched with hadvances | ⟨s, e, hs, hl, rfl⟩
  · obtain ⟨hmade, hsession, ds, houtline, hds⟩ := hadvances
    obtain ⟨chronicle', ht', -, -⟩ := ht.move h.move
    -- Neither a request nor a frame is a record or the end of a session.
    have hoffer : ∀ d ∈ ds, d.offer? = none := by
      intro d hd
      rcases hds d hd with ⟨r, rfl⟩ | ⟨n, text, rfl⟩ <;> rfl
    have hfinale : ∀ d ∈ ds, d.finale? = none := by
      intro d hd
      rcases hds d hd with ⟨r, rfl⟩ | ⟨n, text, rfl⟩ <;> rfl
    refine hf.congr h.move.later ⟨chronicle', ht'⟩ h.begun hmade hsession ?_ ?_
    · rw [offers_of_outline houtline, List.filterMap_eq_nil_iff.mpr hoffer, List.append_nil]
    · rw [finales_of_outline houtline, List.filterMap_eq_nil_iff.mpr hfinale, List.append_nil]
  · exact hf.finish hs hl e

theorem course {handles : List Nat} (hf : c.Filed prompts) (h : Course handles c c') :
    c'.Filed prompts := by
  induction h with
  | refl => exact hf
  | tail _ hwithin ih => exact ih.within hwithin

theorem measure (hf : c.Filed prompts) : c.measure.1.Filed prompts := by
  obtain ⟨chronicle, ht⟩ := hf.told
  obtain ⟨chronicle', ht', -, -⟩ := ht.measure
  have hkeeps := keeps_measure c
  have houtline : c.measure.1.outline = c.outline ++ [c.checked].flatMap Check.deeds := by
    rw [outline_measure ht.watched, List.flatMap_singleton]
  exact hf.congr hkeeps.later ⟨chronicle', ht'⟩ hkeeps.sessionsBegun (recordsMade_measure c)
    (fun s hs ↦ ⟨s, hkeeps.session.symm.trans hs, rfl, rfl⟩) (offers_of_checks houtline)
    (finales_of_checks houtline)

/-- A new session adds its prompt, and nothing else yet. -/
theorem launch (hf : c.Filed prompts) (hrest : c.isStreaming = false) (p : Prompt) :
    (c.launch p).Filed (prompts ++ [p]) := by
  obtain ⟨chronicle, ht⟩ := hf.told
  have hlater : Later c (c.launch p) := Move.later (.launch p hrest)
  have hkeeps := keeps_launch c p
  have houtline := outline_launch ht.watched p
  have hoffers : (c.launch p).offers = c.offers :=
    (offers_of_outline houtline).trans (List.append_nil _)
  have hfinales : (c.launch p).finales = c.finales :=
    (finales_of_outline houtline).trans (List.append_nil _)
  have hlength : prompts.length = c.finales.length := by
    rw [ht.length_finales, sessionsEnded, hrest, if_neg Bool.false_ne_true, hf.begun]
  constructor
  · exact ⟨_, ht.launch hrest p⟩
  · rw [hkeeps.sessionsBegun, List.length_append, ← hf.begun]
    rfl
  · intro s hs
    cases hkeeps.session.symm.trans hs
    refine ⟨prompts, p, rfl, rfl, ?_⟩
    rw [hlater.config, newSession, model_buildRequest]
  · rw [hoffers, hlater.archive]
    exact hf.answered
  · rw [hoffers, hfinales, hlater.config, hf.entries, zip_concat hlength]
  · rw [hoffers, hf.ids, (does_launch c p).recordsMade]
    rfl

theorem apply (hf : c.Filed prompts) (op : Op σ) :
    (c.apply op).Filed (prompts ++ (op.prompt? c.config).toList) := by
  have hoperates := c.operates op
  generalize c.apply op = c' at hoperates ⊢
  cases hoperates with
  | measure =>
    have hnone : (Op.measure : Op σ).prompt? c.config = none := rfl
    rw [hnone, Option.toList_none, List.append_nil]
    exact hf.measure
  | summary summarize ls _ hnone =>
    have hnotes : Course [] { c with budget := { c.budget with summarize } } _ := course_notes _ ls
    rw [hnone, Option.toList_none, List.append_nil]
    obtain ⟨chronicle, ht⟩ := hf.told
    have hchanged : Filed { c with budget := { c.budget with summarize } } prompts :=
      hf.congr (Move.later (.summary c summarize)) ⟨_, ht.congr rfl rfl rfl rfl⟩ rfl rfl
        (fun s hs ↦ ⟨s, hs, rfl, rfl⟩) rfl rfl
    exact hchanged.course hnotes
  | goesOn hgoes hcourse =>
    rw [hgoes.1, Option.toList_none, List.append_nil]
    exact hf.course hcourse
  | begins hsome _ hcourse =>
    rw [hsome, Option.toList_some]
    have hsettled := hf.course c.course_settle
    exact (hsettled.launch c.isStreaming_settle _).course hcourse

end Filed

theorem filed_new (archive : Archive σ) (store : σ) (config : Config) (transportName : String) :
    (new archive store config transportName).Filed [] where
  told := ⟨_, .new archive store config transportName⟩
  begun := rfl
  current _ hs := absurd hs.symm (Option.some_ne_none _)
  answered _ ho := absurd ho List.not_mem_nil
  entries := rfl
  ids := rfl

theorem filed_run (archive : Archive σ) (store : σ) (config : Config) (transportName : String)
    (ops : List (Op σ)) :
    ((new archive store config transportName).run ops).Filed
      (ops.filterMap (Op.prompt? config)) := by
  refine run_induction (P := fun ops c ↦ c.Filed (ops.filterMap (Op.prompt? config)))
    (filed_new archive store config transportName) (fun ops op hf ↦ ?_) ops
  have hconfig := (later_run (new archive store config transportName) ops).config
  have happlied := hf.apply op
  have hprompt : [op].filterMap (Op.prompt? config) = (op.prompt? config).toList := by
    rw [List.filterMap_cons, List.filterMap_nil]
    cases op.prompt? config <;> rfl
  rw [hconfig] at happlied
  rw [List.filterMap_append, hprompt]
  exact happlied

/-! ## What the archive has of a conversation -/

theorem messageId_injective : Function.Injective messageId := by
  intro m n h
  have hdigits := congrArg String.toList h
  simp only [messageId, Decimal.natText, Decimal.toDigits, String.toList_append,
    String.toList_ofList, List.append_cancel_left_eq] at hdigits
  rw [← Nat.ofDigitChars_ten_toDigits (n := m), hdigits, Nat.ofDigitChars_ten_toDigits]

/-- Over an archive that refuses nothing, every record that is handed in is kept. -/
theorem Filed.kept_eq {prompts : List Prompt} (hf : c.Filed prompts)
    (haccepts : ∀ store r, (c.archive.commit store r).refusal = none) :
    c.kept = c.offers.map Offer.record := by
  rw [kept, List.filter_eq_self.mpr]
  intro o ho
  obtain ⟨store, hrefusal⟩ := hf.answered o ho
  rw [hrefusal, haccepts]
  rfl

/-- The archive has kept the records that the prompts and the ends of sessions call for, session by
session: the message of each session that has ended, and behind it the answer where that is kept.
No two have one number, and a later record has a greater one. -/
structure Persists (c : Controller σ) (prompts : List Prompt) : Prop where
  begun : c.sessionsBegun = prompts.length
  ended : c.finales.map Finale.session = List.range c.sessionsEnded
  last : ∀ s e, c.session = some s → s.phase = .ended e →
    c.finales.getLast? = some { session := s.id, text := s.text.committed, state := e.state }
  entries : c.kept.map Record.entry =
    (prompts.zip c.finales).flatMap fun (p, f) ↦ f.entries c.config p
  numbers : ∃ ns : List Nat, ns.Pairwise (· < ·) ∧ c.kept.map Record.id = ns.map messageId
  nodup : (c.kept.map Record.id).Nodup

theorem Filed.persists {prompts : List Prompt} (hf : c.Filed prompts)
    (haccepts : ∀ store r, (c.archive.commit store r).refusal = none) : c.Persists prompts := by
  obtain ⟨h, ht⟩ := hf.told
  have hkept := hf.kept_eq haccepts
  have hids : c.kept.map Record.id = (List.range c.recordsMade).map messageId := by
    rw [hkept, List.map_map, ← hf.ids]
    rfl
  constructor
  · exact hf.begun
  · exact ht.sessions_finales
  · intro s e hs he
    obtain ⟨fs, hfs⟩ := ht.exists_finales_eq hs he
    rw [hfs, List.getLast?_concat]
  · rw [hkept, List.map_map, ← hf.entries]
    rfl
  · exact ⟨_, List.pairwise_lt_range, hids⟩
  · rw [hids]
    exact List.nodup_range.map messageId_injective

/-- **Persistence.** Whatever is done with a controller over an archive that takes every record, the
archive has the records of the sessions that have ended, in that order and once: the message of
each, and its answer where that is kept. -/
theorem run_persists (archive : Archive σ) (store : σ) (config : Config) (transportName : String)
    (ops : List (Op σ)) (haccepts : ∀ store r, (archive.commit store r).refusal = none) :
    ((new archive store config transportName).run ops).Persists
      (ops.filterMap (Op.prompt? config)) := by
  have hlater := later_run (new archive store config transportName) ops
  refine (filed_run archive store config transportName ops).persists fun store' r ↦ ?_
  rw [hlater.archive]
  exact haccepts store' r

/-- A run with an answer that comes to its end and a message that is taken back. -/
def oneAnswered : List (Op History) :=
  [.begin { message := "hi" },
    .step { now := 0, wake := .answer (.ok 0) },
    .step { now := 0, wake := .item (some (.ok
      "data: \x7b\"content\":\"a\",\"done\":true\x7d\n".toUTF8.toList)) },
    .begin { message := "more" },
    .drop]

theorem run_persists_oneAnswered :
    ((new History.archive {} {} "scripted").run oneAnswered).Persists
        [{ message := "hi" }, { message := "more" }] ∧
      ((new History.archive {} {} "scripted").run oneAnswered).kept.map Record.entry =
        [Prompt.entry { message := "hi" },
          { role := .assistant, content := "a", model := some "llama3.2", tokens := some 1 },
          Prompt.entry { message := "more" }] := by
  have hprompts : oneAnswered.filterMap (Op.prompt? {}) =
      [{ message := "hi" }, { message := "more" }] := by decide +kernel
  refine ⟨?_, by decide +kernel⟩
  rw [← hprompts]
  exact run_persists History.archive {} {} "scripted" oneAnswered fun _ _ ↦ rfl

end Controller

end ChatStream
