import ChatStream.Proofs.Session.Crossings
import ChatStream.Proofs.Session.Records
import ChatStream.Proofs.Terminal.Turns

/-!
# The first turn of a conversation

The first turn leaves on a terminal what its prompt and the verdict on its answer say, and nothing
depends on the frames in which the answer was painted. For standard output that is known of any
turn. On standard error there may also be a notice that the conversation is near its limit, so it
has to be known what the check at the end of the turn reads: the records of this one session.

Two things are in the way. The records go into a ledger, which could refuse them; one that does not
is as good as the history in it, by a tandem (`overOpen`). And the records bear dates, which depend
on the pace of the clock; nothing that is read of a history depends on them (`firstNotice_eq`).
-/

namespace ChatStream

open Controller

/-! ## A ledger that refuses nothing -/

namespace Ledger

variable {l : Ledger}

/-- Nothing is to be refused, and the history is measured. -/
structure IsOpen (l : Ledger) : Prop where
  refusals : l.refusals = []
  readings : l.readings = none

theorem IsOpen.commit_eq (h : l.IsOpen) (r : Record) :
    l.commit r =
      { state := { l with commits := l.commits + 1, history := l.history.commit r }
        log := l.history.commitLog r } := by
  rw [commit, h.refusals]
  rfl

theorem IsOpen.usage_eq (h : l.IsOpen) (count : Nat) :
    l.usage count = (l, l.history.usage count) := by
  rw [usage, h.readings]

end Ledger

namespace Controller

variable {c : Controller Ledger}

/-- The controller, had its records gone into the history itself. -/
def onHistory (c : Controller Ledger) : Controller History where
  archive := History.archive
  store := c.store.history
  config := c.config
  transportName := c.transportName
  budget := c.budget
  session := c.session
  cancelledTokens := c.cancelledTokens
  sessionsBegun := c.sessionsBegun
  recordsMade := c.recordsMade
  now := c.now
  watched := c.watched
  deeds := c.deeds

theorem onHistory_notes (c : Controller Ledger) (ls : List LogLine) :
    (c.notes ls).onHistory = c.onHistory.notes ls := by
  induction ls generalizing c with
  | nil => rfl
  | cons l ls ih => exact ih (c.note l)

theorem onHistory_tell (c : Controller Ledger) (e : ViewEvent) :
    (c.tell e).onHistory = c.onHistory.tell e := by
  have hwatched : c.onHistory.watched = c.watched := rfl
  rw [tell, tell, hwatched]
  split_ifs <;> rfl

/-- The store is an open ledger. -/
structure OverOpen (c : Controller Ledger) : Prop where
  archive : c.archive = Ledger.archive
  store : c.store.IsOpen

/-- An open ledger is as good as its history. -/
theorem OverOpen.commit (h : c.OverOpen) (r : Record) :
    (c.commit r).OverOpen ∧ (c.commit r).onHistory = c.onHistory.commit r := by
  have hreceipt : c.archive.commit c.store r = c.store.commit r := by rw [h.archive]; rfl
  rw [h.store.commit_eq] at hreceipt
  obtain ⟨hstore, -⟩ := c.commit_eq r
  rw [hreceipt] at hstore
  refine ⟨⟨(keeps_commit c r).archive.trans h.archive, ?_⟩, ?_⟩
  · rw [hstore]
    exact ⟨h.store.refusals, h.store.readings⟩
  · have hkept : c.onHistory.commit r = ({ c.onHistory with store := c.store.history.commit r }.notes
      (c.store.history.commitLog r)).act (.committed r none) := rfl
    rw [Controller.commit, hreceipt, hkept]
    exact congrArg (act · _) (onHistory_notes _ _)

theorem OverOpen.measure (h : c.OverOpen) :
    c.measure.1.OverOpen ∧ c.measure.1.onHistory = c.onHistory.measure.1 := by
  have husage : c.archive.usage c.store (c.archive.size c.store) =
      (c.store, c.store.history.usage c.store.history.size) := by
    rw [h.archive]
    exact h.store.usage_eq _
  have hstore := c.measure_eq.1
  rw [husage] at hstore
  refine ⟨⟨(keeps_measure c).archive.trans h.archive, hstore ▸ h.store⟩, ?_⟩
  have hsize : c.archive.size c.store = c.store.history.size := by
    rw [h.archive]
    rfl
  have hread : (c.onHistory.archive.usage c.onHistory.store
      (c.onHistory.archive.size c.onHistory.store)) =
        (c.store.history, c.store.history.usage c.store.history.size) := rfl
  have hbudget : c.onHistory.budget = c.budget := rfl
  rw [Controller.measure, Controller.measure, husage, hread, hbudget, hsize]
  dsimp only
  generalize c.budget.observe (c.store.history.usage c.store.history.size) = observed
  obtain ⟨budget, _ | n⟩ := observed
  · rfl
  · dsimp only
    rw [onHistory_tell]
    rfl

end Controller

def overOpen : Tandem Ledger History where
  rel c d := c.OverOpen ∧ d = c.onHistory
  core := by
    rintro c _ ⟨-, rfl⟩
    rfl
  withCore := by
    rintro c _ ⟨h, rfl⟩ k
    exact ⟨⟨h.archive, h.store⟩, rfl⟩
  act := by
    rintro c _ ⟨h, rfl⟩ x -
    exact ⟨⟨h.archive, h.store⟩, rfl⟩
  commit := by
    rintro c _ ⟨h, rfl⟩ r
    exact ⟨(h.commit r).1, (h.commit r).2.symm⟩
  measure := by
    rintro c _ ⟨h, rfl⟩
    exact ⟨h.measure.1, h.measure.2.symm⟩

/-! ## What the check at the end of a session reads -/

/-- The record that says so, without a number and a date. -/
def Entry.record (e : Entry) : Record where
  id := ""
  role := e.role
  content := e.content
  timestamp := 0
  model := e.model
  tokenCount := e.tokens

namespace History

/-- The history without the numbers and the dates of its records. -/
def undated (t : History) : History := { t with records := t.records.map fun r ↦ r.entry.record }

theorem prune_map {f : Record → Record} (hf : ∀ r, (f r).content = r.content)
    (maxMessages maxBytes : Nat) (rs : List Record) (count bytes removed : Nat) :
    prune maxMessages maxBytes (rs.map f) count bytes removed =
      ((prune maxMessages maxBytes rs count bytes removed).1.map f,
        (prune maxMessages maxBytes rs count bytes removed).2) := by
  induction rs generalizing count bytes removed with
  | nil => rfl
  | cons r rs ih =>
    cases rs with
    | nil => rfl
    | cons r' rs =>
      rw [List.map_cons] at ih
      rw [List.map_cons, List.map_cons, prune, prune, hf, ih]
      split_ifs <;> rfl

/-- Which records go does not depend on their numbers and dates. -/
theorem undated_commit (t : History) (r : Record) :
    (t.commit r).undated = t.undated.commit r.entry.record := by
  have happend : t.undated.records ++ [r.entry.record] =
      (t.records ++ [r]).map fun r ↦ r.entry.record := by
    rw [List.map_append]
    rfl
  rw [commit, commit, commitCounting, commitCounting]
  simp only [happend, prune_map (f := fun r ↦ r.entry.record) (fun _ ↦ rfl), List.length_map]
  rfl

theorem undated_foldl_commit (t : History) (rs : List Record) :
    (rs.foldl commit t).undated =
      ((rs.map Record.entry).map Entry.record).foldl commit t.undated := by
  induction rs generalizing t with
  | nil => rfl
  | cons r rs ih => rw [List.foldl_cons, ih, undated_commit, List.map_cons, List.map_cons,
      List.foldl_cons]

theorem reading_undated (t : History) :
    archive.reading t.undated = archive.reading t := by
  rw [reading_archive, reading_archive, total, undated, List.map_map, total]
  rfl

end History

/-- The history of a conversation at its start. -/
def Config.history (config : Config) : History where
  maxMessages := config.historyMaxMessages
  maxBytes := config.historyMaxBytes
  contextLimit := config.contextLimit

/-- The notice that is due when the first records of a conversation say so. -/
def firstNotice (config : Config) (es : List Entry) : Option NearLimit :=
  ((Budget.new config.contextLimit config.nearFraction).observe
    (History.archive.reading ((es.map Entry.record).foldl History.commit config.history))).2

theorem firstNotice_eq (config : Config) (rs : List Record) :
    ((Budget.new config.contextLimit config.nearFraction).observe
      (History.archive.reading (rs.foldl History.commit config.history))).2 =
        firstNotice config (rs.map Record.entry) := by
  have hundated := History.undated_foldl_commit config.history rs
  rw [← History.reading_undated, hundated]
  rfl

/-! ## The deeds of a first turn -/

namespace Journal

variable {σ : Type} (archive : Archive σ) (j : Journal σ)

theorem follow_filter_isTraced (ds : List Deed) :
    j.follow archive (ds.filter Deed.isTraced) = j.follow archive ds := by
  induction ds generalizing j with
  | nil => rfl
  | cons d ds ih =>
    cases d with
    | shown e => exact ih _
    | committed r refusal => exact ih _
    | measured count => exact ih _
    | asked r | logged l => exact ih j

theorem follow_offers (os : List Offer) :
    j.follow archive (os.flatMap Offer.deeds) =
      { j with
        store := (os.map Offer.record).foldl (fun store r ↦ (archive.commit store r).state)
          j.store } := by
  induction os generalizing j with
  | nil => rfl
  | cons o os ih => rw [List.flatMap_cons, follow_append, follow_offer, ih, List.map_cons,
      List.foldl_cons]

/-- The check at the end of a session finds the records of the session in the archive. -/
theorem found_closing (session : Nat) (committed : String) {k : Closing} (hlater : k.later = []) :
    (j.follow archive (k.deeds session committed)).found =
      j.found ++ [(k.offers.map Offer.record).foldl
        (fun store r ↦ (archive.commit store r).state) j.store] := by
  have hending : ∀ d ∈ k.ending.events.map Deed.shown, d.isOwn = true := by
    cases k.ending with
    | errored f => exact List.forall_mem_singleton.mpr rfl
    | completed | cancelled => exact List.forall_mem_nil _
  have hown (j : Journal σ) {d : Deed} (hd : d.isOwn = true) (ds : List Deed) :
      j.follow archive (d :: ds) = j.follow archive ds := by
    rw [follow, List.foldl_cons, enter_of_isOwn archive j hd, follow]
  rw [Closing.deeds, hlater, List.flatMap_nil, List.append_nil, follow_append, follow_append,
    follow_check, hown j rfl, follow_offers, hown _ rfl, follow_of_isOwn archive _ hending]

end Journal

/-- A deed of which nobody is told anything but the answer. -/
def Deed.IsSilent (d : Deed) : Prop := ∃ e, d = .shown e ∧ statusText? e = none

theorem Deed.IsSilent.isOwn {d : Deed} (hd : d.IsSilent) : d.isOwn = true := by
  obtain ⟨e, rfl, he⟩ := hd
  cases e with
  | notice level message => cases he
  | budgetNearLimit tokens limit => cases he
  | _ => rfl

theorem Deed.IsSilent.offer? {d : Deed} (hd : d.IsSilent) : d.offer? = none := by
  obtain ⟨e, rfl, -⟩ := hd
  rfl

/-- Without a check on demand a block is silent up to its closing, and that closing is its end. -/
theorem Block.exists_deeds {b : Block} (hasides : b.asides = 0) {k : Closing}
    (hk : b.closing = some k) :
    k.later = [] ∧ ∃ ds : List Deed, (∀ d ∈ ds, d.IsSilent) ∧
      b.deeds = ds ++ k.deeds b.session b.painted := by
  rw [asides, hk, Nat.add_eq_zero_iff, List.countP_eq_zero] at hasides
  obtain ⟨hpassages, hlater⟩ := hasides
  refine ⟨List.length_eq_zero_iff.mp hlater,
    .shown (.sessionStarted b.session b.model) :: .shown (.stateChanged b.session .streaming) ::
      b.passages.flatMap (Passage.deeds b.session), ?_, ?_⟩
  · intro d hd
    rcases List.mem_cons.mp hd with rfl | hd
    · exact ⟨_, rfl, rfl⟩
    rcases List.mem_cons.mp hd with rfl | hd
    · exact ⟨_, rfl, rfl⟩
    obtain ⟨p, hp, hd⟩ := List.mem_flatMap.mp hd
    cases p with
    | frame delta hdelta => exact ⟨_, List.mem_singleton.mp hd, rfl⟩
    | check k => exact absurd rfl (hpassages _ hp)
  · rw [deeds, hk, Option.toList_some, List.flatMap_singleton]

/-- What was done in the first turn of a conversation. -/
theorem Chronicle.Tells.exists_first {σ : Type} {c : Controller σ} {h : Chronicle} {v : Verdict}
    (ht : h.Tells c) (hasides : h.asides = 0) (hended : c.Ended 0 v) :
    ∃ (ds : List Deed) (k : Closing), k.ending = v.ending ∧ k.later = [] ∧
      (∀ d ∈ ds, d.IsSilent) ∧ c.trace = ds ++ k.deeds 0 v.text := by
  obtain ⟨s, hs, hid, hphase, htext⟩ := hended
  obtain ⟨b, hcurrent, hb⟩ := ht.exists_current hs
  obtain ⟨-, holder⟩ := ht.older_sessions hs
  rw [hid, List.range_zero, List.map_eq_nil_iff] at holder
  have hblocks : h.blocks = [b] := by
    rw [blocks_of_current hcurrent, holder, List.nil_append]
  rw [asides, hblocks, List.map_singleton, List.sum_singleton, Nat.add_eq_zero_iff,
    List.length_eq_zero_iff] at hasides
  obtain ⟨hbefore, hasides⟩ := hasides
  have hending := hb.ending
  rw [Session.ending?, hphase] at hending
  obtain ⟨k, hk, hke⟩ := Option.map_eq_some_iff.mp hending
  obtain ⟨hlater, ds, hds, hdeeds⟩ := b.exists_deeds hasides hk
  have hpainted : b.painted = v.text := by
    rw [← htext, ← hb.painted, hb.drained (Session.isLive_of_ended hphase), String.append_empty]
  refine ⟨ds, k, hke, hlater, hds, ?_⟩
  rw [ht.trace, deeds, hbefore, hblocks, List.flatMap_nil, List.nil_append, List.flatMap_singleton,
    hdeeds, hpainted, hb.session, hid]

theorem join_statusLine_of_silent {ds : List Deed} (hds : ∀ d ∈ ds, d.IsSilent) :
    .join ((ds.filterMap Deed.event?).map Screen.statusLine) = "" := by
  induction ds with
  | nil => rfl
  | cons d ds ih =>
    obtain ⟨⟨e, rfl, he⟩, hrest⟩ := List.forall_mem_cons.mp hds
    rw [filterMap_event?_shown, List.map_cons, String.join_cons, ih hrest, Screen.statusLine, he]
    rfl

/-- What the user is told at the end of the first turn of a conversation. -/
def firstAsides (config : Config) (p : Prompt) (v : Verdict) : List ViewEvent :=
  .stateChanged 0 v.ending.state :: v.ending.events ++
    Check.events
      { count := 0
        notice := firstNotice config
          (Finale.entries config p { session := 0, text := v.text, state := v.ending.state }) }

/-- What the first turn of a conversation leaves on a terminal. -/
def firstScreen (config : Config) (p : Prompt) (v : Verdict) : Screen where
  out := lineEnded v.text
  err := .join ((firstAsides config p v).map Screen.statusLine)

theorem out_firstScreen (config : Config) (p : Prompt) (v : Verdict) :
    (firstScreen config p v).out = lineEnded v.text := rfl

namespace Controller

section First

variable {σ : Type} {c c' : Controller σ} {config : Config} {name : String} {p : Prompt}
  {v : Verdict}

theorem Filed.playsTo {prompts : List Prompt} (hf : c.Filed prompts) (hplays : c.PlaysTo c') :
    c'.Filed prompts := by
  refine hplays.keeps (P := fun c ↦ c.Filed prompts) hf ?_
  intro c op hop hf
  have happlied := hf.apply op
  rwa [(Op.goesOn c.config hop).1, Option.toList_none, List.append_nil] at happlied

theorem offers_eq_filterMap_trace (c : Controller σ) :
    c.offers = c.trace.filterMap Deed.offer? := by
  refine (c.filterMap_trace fun d hd ↦ ?_).symm
  cases d with
  | committed r refusal => cases hd
  | _ => rfl

end First

variable {d : Controller History} {config : Config} {name : String} {p : Prompt} {v : Verdict}

section History

variable (hplays : ((new History.archive config.history config name).launch p).PlaysTo d)
include hplays

/-- In the first turn of a conversation that a history keeps, the records are those of its prompt
and its end, and none is refused. -/
theorem exists_closing_of_first (hended : d.Ended 0 v) :
    ∃ (ds : List Deed) (k : Closing), (∀ d ∈ ds, d.IsSilent) ∧ k.ending = v.ending ∧
      k.later = [] ∧ d.trace = ds ++ k.deeds 0 v.text ∧
      (∀ o ∈ k.offers, o.refusal = none) ∧
      (k.offers.map Offer.record).map Record.entry =
        Finale.entries config p { session := 0, text := v.text, state := v.ending.state } := by
  have hnew := Chronicle.Tells.new History.archive config.history config name
  obtain ⟨h, ht, hasides⟩ := tells_of_turn hnew rfl hplays
  obtain ⟨ds, k, hending, hlater, hds, htrace⟩ := ht.exists_first hasides hended
  have hgrown := (Move.later (.launch p rfl)).trans hplays.moves.later
  have hfiled : d.Filed [p] := ((filed_new _ _ _ _).launch rfl p).playsTo hplays
  have hoffers : d.offers = k.offers := by
    rw [offers_eq_filterMap_trace, htrace, List.filterMap_append, k.filterMap_offer?,
      List.filterMap_eq_nil_iff.mpr fun d hd ↦ (hds d hd).offer?, List.nil_append]
  refine ⟨ds, k, hds, hending, hlater, htrace, ?_, ?_⟩
  · intro o ho
    obtain ⟨t, hrefusal⟩ := hfiled.answered o (hoffers ▸ ho)
    rw [hgrown.archive] at hrefusal
    exact hrefusal
  · have hentries := hfiled.entries
    rw [hoffers, finales_of_turn hnew rfl hplays hended, hgrown.config] at hentries
    rw [List.map_map]
    exact hentries.trans (List.flatMap_singleton _ _)

/-- The one check of the turn finds these records in the history. -/
theorem notice_of_first {ds : List Deed} {k : Closing} (hds : ∀ d ∈ ds, d.IsSilent)
    (hlater : k.later = []) (htrace : d.trace = ds ++ k.deeds 0 v.text) :
    k.check.notice = firstNotice config ((k.offers.map Offer.record).map Record.entry) := by
  have hown : ∀ d ∈ ds, d.isOwn = true := fun d hd ↦ (hds d hd).isOwn
  have hnew := accounts_new History.archive config.history config name
  obtain ⟨-, -, -, -, -, es, houtline, haccounts⟩ :=
    (followed _ _ _).playsTo ((followed _ _ _).launch ⟨rfl, rfl, rfl, [], rfl, hnew⟩ p) hplays
  have hes : es = d.outline := houtline.symm
  have hgrown := (Move.later (.launch p rfl)).trans hplays.moves.later
  have hfound := Journal.found_closing History.archive { store := config.history } 0 v.text hlater
  have hchecks : d.checks = [k.check] := by
    rw [checks, ← Check.read_filter_isTraced, ← trace_eq_filter_outline, htrace,
      Check.read_append, Check.read_of_isOwn _ hown, k.read_deeds, Closing.checks, hlater,
      List.nil_append]
  have hnotices := haccounts.notices
  rw [hes, ← Journal.follow_filter_isTraced, ← trace_eq_filter_outline, htrace,
    Journal.follow_append, Journal.follow_of_isOwn _ _ hown, hchecks, hgrown.archive] at hnotices
  have harchive : (new History.archive config.history config name).archive = History.archive := rfl
  rw [harchive, hfound] at hnotices
  rw [← firstNotice_eq]
  exact (List.cons.inj hnotices).1

end History

theorem painting_of_first
    (hplays : ((new History.archive config.history config name).launch p).PlaysTo d)
    (hended : d.Ended 0 v) : d.painting = firstScreen config p v := by
  have hnew := Chronicle.Tells.new History.archive config.history config name
  have hdisplays := displays_of_turn hnew rfl hplays (displays_new _ _ _ _)
  have hfinales := finales_of_turn hnew rfl hplays hended
  obtain ⟨hout, hstart⟩ := hdisplays.shows (isStreaming_of_ended hended)
  obtain ⟨ds, k, hds, hending, hlater, htrace, hoffers, hentries⟩ :=
    exists_closing_of_first hplays hended
  have hnotice := notice_of_first hplays hds hlater htrace
  rw [hentries] at hnotice
  have hwarnings : k.offers.flatMap Offer.events = [] := by
    rw [List.flatMap_eq_nil_iff]
    intro o ho
    rw [Offer.events, hoffers o ho]
    rfl
  have hevents : d.events = ds.filterMap Deed.event? ++ k.events 0 v.text := by
    rw [events_eq_filterMap_trace, htrace, List.filterMap_append, k.filterMap_deeds]
  have hasides : k.events 0 v.text =
      .render 0 (.final k.delta v.text v.ending.state) :: firstAsides config p v := by
    rw [Closing.events, hwarnings, hlater, hending, firstAsides, Check.events, Check.events,
      hnotice, List.flatMap_nil, List.append_nil]
    rfl
  have herr : d.painting.err = (firstScreen config p v).err := by
    rw [painting, Screen.err_paintAll, hevents, hasides, List.map_append, String.join_append,
      join_statusLine_of_silent hds, List.map_cons, String.join_cons]
    have hrender : Screen.statusLine (.render 0 (.final k.delta v.text v.ending.state)) = "" := rfl
    rw [hrender, String.empty_append, String.empty_append, String.empty_append]
    rfl
  have hanswers : d.answers = lineEnded v.text :=
    (answers_of_finales hfinales).trans String.empty_append
  rw [hanswers, String.append_empty] at hout
  calc d.painting = ⟨d.painting.out, d.painting.err, d.painting.atLineStart⟩ := rfl
    _ = firstScreen config p v := by
      rw [hout, herr, hstart]
      rfl

end Controller

end ChatStream
