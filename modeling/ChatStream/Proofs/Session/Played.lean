import ChatStream.Proofs.Session.Simulated
import ChatStream.Proofs.Session.Verdict

/-!
# Scripts that come to an end

A script may keep a session waiting for ever: with a stream that somebody still feeds, with a
request that is never answered. In a script that `Ends` there is none of that. Each answer is a
rejection or a stream, and each stream holds all that it will ever give. Then a session that nobody
cancels is over before its drive runs out of steps, whatever the pace of the clock, and it comes to
the verdict on what the script holds for it: `Simulation.drive_ends`.

What happens on the way is a run of steps and of time that passes, so what is known of runs is known
of the controller that is left.
-/

namespace ChatStream

/-! ## Scripts -/

/-- Each answer is a stream or a rejection, and nobody is left to feed a stream. -/
structure Scripted.Ends (t : Scripted) : Prop where
  answers : ∀ a ∈ t.answers, (∃ n, a = .stream n) ∨ ∃ e, a = .rejection e
  pipes : ∀ p ∈ t.pipes, p.writers = 0

/-- What a queue gives until it fails: its chunks, and the failure. -/
def cutQueue : List Item → List Bytes × Option TransportError
  | [] => ([], none)
  | .error e :: _ => ([], some e)
  | .ok chunk :: rest => (chunk :: (cutQueue rest).1, (cutQueue rest).2)

namespace Scripted

variable {t : Scripted} {n : Nat}

/-- What a pipe holds. -/
def queue (t : Scripted) (n : Nat) : List Item := ((t.pipes[n]?).map Pipe.queue).getD []

/-- What the script holds for the next request. -/
def supply (t : Scripted) : Supply :=
  match t.answers with
  | .stream n :: _ => .stream n (cutQueue (t.queue n)).1 (cutQueue (t.queue n)).2
  | .rejection e :: _ => .rejection e
  | _ => .rejection t.afterwards

theorem ends_empty : ({} : Scripted).Ends := ⟨List.forall_mem_nil _, List.forall_mem_nil _⟩

theorem Ends.addChunks (h : t.Ends) (chunks : List Bytes) : (t.addChunks chunks).Ends where
  answers := List.forall_mem_append.mpr
    ⟨h.answers, List.forall_mem_singleton.mpr (.inl ⟨t.pipes.length, rfl⟩)⟩
  pipes := List.forall_mem_append.mpr ⟨h.pipes, List.forall_mem_singleton.mpr rfl⟩

theorem Ends.addRejection (h : t.Ends) (e : TransportError) : (t.addRejection e).Ends where
  answers := List.forall_mem_append.mpr
    ⟨h.answers, List.forall_mem_singleton.mpr (.inr ⟨e, rfl⟩)⟩
  pipes := h.pipes

theorem Ends.modify (h : t.Ends) {change : Pipe → Pipe}
    (hchange : ∀ p, (change p).writers = p.writers) : (t.onPipe n change).Ends where
  answers := h.answers
  pipes p hp := by
    obtain ⟨i, hi⟩ := List.mem_iff_getElem?.mp hp
    rw [onPipe, List.getElem?_modify] at hi
    obtain ⟨q, hq, hqp⟩ := Option.map_eq_some_iff.mp hi
    have hwriters := h.pipes q (List.mem_of_getElem? hq)
    split_ifs at hqp
    · rw [← hqp, hchange, hwriters]
    · rw [← hqp]
      exact hwriters

theorem Ends.set (h : t.Ends) {p : Pipe} (hp : p.writers = 0) :
    ({ t with pipes := t.pipes.set n p } : Scripted).Ends where
  answers := h.answers
  pipes q hq := by
    rcases List.mem_or_eq_of_mem_set hq with hq | rfl
    · exact h.pipes q hq
    · exact hp

theorem queue_set {p : Pipe} (hn : n < t.pipes.length) :
    ({ t with pipes := t.pipes.set n p } : Scripted).queue n = p.queue := by
  rw [queue, List.getElem?_set_self hn]
  rfl

/-- A pipe gives the first item that it holds. -/
theorem read_cons {i : Item} {rest : List Item} (h : t.Ends) (hqueue : t.queue n = i :: rest) :
    ∃ t', t.read n = (t', .item i) ∧ t'.Ends ∧ t'.queue n = rest ∧ t'.requests = t.requests := by
  rw [queue] at hqueue
  cases hp : t.pipes[n]? with
  | none =>
    rw [hp] at hqueue
    cases hqueue
  | some p =>
    rw [hp] at hqueue
    have hn : n < t.pipes.length := (List.getElem?_eq_some_iff.mp hp).1
    have hread : p.read = ({ p with queue := rest, reads := p.reads + 1 }, .item i) := by
      have hqueue' : p.queue = i :: rest := hqueue
      rw [Pipe.read, hqueue']
    refine ⟨_, ?_, h.set (p := { p with queue := rest, reads := p.reads + 1 }) ?_, queue_set hn, rfl⟩
    · rw [read, hp]
      dsimp only
      rw [hread]
    · exact h.pipes p (List.mem_of_getElem? hp)

/-- A pipe that holds nothing has come to its end. -/
theorem read_nil (h : t.Ends) (hqueue : t.queue n = []) :
    ∃ t', t.read n = (t', .ended) ∧ t'.Ends ∧ t'.requests = t.requests := by
  rw [queue] at hqueue
  cases hp : t.pipes[n]? with
  | none =>
    refine ⟨t, ?_, h, rfl⟩
    rw [read, hp]
  | some p =>
    rw [hp] at hqueue
    have hwriters := h.pipes p (List.mem_of_getElem? hp)
    have hread : p.read = ({ p with reads := p.reads + 1 }, .ended) := by
      have hqueue' : p.queue = [] := hqueue
      rw [Pipe.read, hqueue']
      dsimp only
      rw [if_pos hwriters]
    refine ⟨_, ?_, h.set (n := n) (p := { p with reads := p.reads + 1 }) hwriters, rfl⟩
    rw [read, hp]
    dsimp only
    rw [hread]

/-- A request is answered with a stream, or rejected as the script says. -/
theorem Ends.ask_cases (h : t.Ends) (r : Request) :
    (∃ n rest, t.answers = .stream n :: rest) ∨
      ∃ e rest, t.supply = .rejection e ∧ rest ⊆ t.answers ∧
        t.ask r = ({ t with requests := t.requests ++ [r], answers := rest }, .rejection e) := by
  cases hanswers : t.answers with
  | nil =>
    refine .inr ⟨t.afterwards, [], ?_, List.Subset.refl _, ?_⟩
    · rw [supply, hanswers]
    · rw [ask]
      dsimp only
      rw [hanswers]
  | cons a rest =>
    have ha : a ∈ t.answers := hanswers ▸ List.mem_cons_self
    rcases h.answers a ha with ⟨n, rfl⟩ | ⟨e, rfl⟩
    · exact .inl ⟨n, rest, rfl⟩
    · refine .inr ⟨e, rest, ?_, List.subset_cons_self _ _, ?_⟩
      · rw [supply, hanswers]
      · rw [ask]
        dsimp only
        rw [hanswers]

theorem Ends.asked (h : t.Ends) (r : Request) {rest : List Answer} (hrest : rest ⊆ t.answers) :
    ({ t with requests := t.requests ++ [r], answers := rest } : Scripted).Ends :=
  ⟨fun a ha ↦ h.answers a (hrest ha), h.pipes⟩

end Scripted

/-! ## What is played -/

/-- Whether a drive does the operation. -/
def Op.isPlayed {σ : Type} : Op σ → Bool
  | .step _ => true
  | .passTime _ => true
  | _ => false

theorem Op.goesOn {σ : Type} (config : Config) {op : Op σ} (hop : op.isPlayed = true) :
    op.GoesOn config := by
  cases op with
  | step | passTime => exact ⟨rfl, rfl, rfl⟩
  | _ => cases hop

namespace Controller

variable {σ : Type} {c c' c'' : Controller σ}

/-- The second controller is what steps and the passing of time make of the first. -/
def PlaysTo (c c' : Controller σ) : Prop :=
  ∃ ops, (∀ op ∈ ops, op.isPlayed = true) ∧ c' = c.run ops

namespace PlaysTo

theorem refl (c : Controller σ) : PlaysTo c c := ⟨[], List.forall_mem_nil _, rfl⟩

theorem trans (h : PlaysTo c c') (h' : PlaysTo c' c'') : PlaysTo c c'' := by
  obtain ⟨ops, hops, rfl⟩ := h
  obtain ⟨more, hmore, rfl⟩ := h'
  exact ⟨ops ++ more, List.forall_mem_append.mpr ⟨hops, hmore⟩, (c.run_append ops more).symm⟩

theorem step (c : Controller σ) (w : Wait) : PlaysTo c (c.step w).1 :=
  ⟨[.step w], List.forall_mem_singleton.mpr rfl, rfl⟩

theorem passTime (c : Controller σ) (now : Instant) : PlaysTo c { c with now } :=
  ⟨[.passTime now], List.forall_mem_singleton.mpr rfl, rfl⟩

/-- What steps and the passing of time keep, playing keeps. -/
theorem keeps {P : Controller σ → Prop} (h : PlaysTo c c') (hc : P c)
    (happly : ∀ c op, op.isPlayed = true → P c → P (c.apply op)) : P c' := by
  obtain ⟨ops, hops, rfl⟩ := h
  induction ops generalizing c with
  | nil => exact hc
  | cons op ops ih =>
    obtain ⟨hop, hops⟩ := List.forall_mem_cons.mp hops
    exact ih (happly c op hop hc) hops

theorem numbered (h : PlaysTo c c') (hc : c.Numbered) : c'.Numbered :=
  h.keeps hc fun _ op _ hc ↦ hc.apply op

theorem moves (h : PlaysTo c c') : Moves c c' :=
  h.keeps .refl fun c _ hop hmoves ↦ hmoves.trans (moves_apply c (Op.goesOn c.config hop).2.2)

end PlaysTo

theorem Stands.passTime {wire : LineFormat} {id : Nat} {phase : Phase} {carry : Carry}
    {text : String} (h : c.Stands wire id phase carry text) (now : Instant) :
    Stands { c with now } wire id phase carry text :=
  ⟨h.wire, h.free, h.session⟩

theorem Stands.stream?_eq {wire : LineFormat} {id n : Nat} {carry : Carry} {text : String}
    (h : c.Stands wire id (.reading n) carry text) :
    c.session.bind Session.stream? = some n := by
  obtain ⟨s, hs, -, hphase, -⟩ := h.session
  rw [hs, Option.bind_some, Session.stream?, hphase]

end Controller

/-! ## Simulations -/

namespace Simulation

open Controller

variable {s s' : Simulation}

/-- The script comes to an end, and nobody interferes. -/
structure Plays (s : Simulation) : Prop where
  script : s.transport.Ends
  agenda : s.agenda = []
  interruptions : s.interruptions = []

theorem advance_of_idle (h : s.agenda = []) (ms : Nat) :
    s.advance ms = s.setClock (s.clock + ms) := by
  obtain ⟨controller, transport, clock, agenda, interruptions, pace⟩ := s
  cases h
  rfl

theorem Plays.exists_elapse (h : s.Plays) :
    ∃ now, s.elapse.controller = { s.controller with now } ∧ s.elapse.transport = s.transport ∧
      s.elapse.Plays := by
  rw [elapse]
  split
  · exact ⟨s.controller.now, rfl, rfl, h⟩
  · rename_i ms rest _
    rw [advance_of_idle (s := { s with pace := rest }) h.agenda]
    exact ⟨_, rfl, rfl, h.script, h.agenda, h.interruptions⟩

theorem Plays.put (h : s.Plays) (c : Controller Ledger) :
    (s.put c).Plays ∧ (s.put c).transport.requests = s.transport.requests := by
  rw [Simulation.put]
  dsimp only
  split
  · split_ifs
    · exact ⟨⟨h.script, h.agenda, h.interruptions⟩, rfl⟩
    · exact ⟨⟨h.script.modify fun _ ↦ rfl, h.agenda, h.interruptions⟩, rfl⟩
  · exact ⟨⟨h.script, h.agenda, h.interruptions⟩, rfl⟩

/-- A stream that is still read keeps its reader. -/
theorem transport_put {c : Controller Ledger} (hkept : c.session.bind Session.stream? = s.stream?) :
    (s.put c).transport = s.transport := by
  rw [Simulation.put]
  dsimp only
  split
  · rename_i n hn
    rw [if_pos (hkept.trans hn)]
  · rfl

/-! ### Reading -/

/-- What a drive comes to. -/
structure Comes (s s' : Simulation) (id : Nat) (v : Verdict) : Prop where
  plays : s'.Plays
  ended : s'.controller.Ended id v
  played : s.controller.PlaysTo s'.controller
  requests : s'.transport.requests = s.transport.requests

/-- A drive comes to a verdict. -/
def Drives (s : Simulation) (limit fuel id : Nat) (v : Verdict) : Prop :=
  ∃ s', s.driveWith limit fuel false = (s', .reached v.ending.state) ∧ s.Comes s' id v

theorem playsTo_attempt {o : StepResult} (hnumbered : s.controller.Numbered)
    (hdid : s.attempt = (s', .did o)) : s.controller.PlaysTo s'.controller := by
  obtain ⟨w, hstep⟩ := attempt_eq_step hnumbered hdid
  have hcame := PlaysTo.step s.controller w
  rwa [hstep] at hcame

theorem driveWith_did {limit fuel : Nat} {o : StepResult} (h : s.elapse.attempt = (s', .did o))
    (ho : ∀ state, o ≠ .finished state) :
    s.driveWith limit (fuel + 1) false = s'.driveWith limit fuel false := by
  rw [driveWith, h]
  cases o with
  | finished state => exact absurd rfl (ho state)
  | _ => rfl

theorem driveWith_finished {limit fuel : Nat} {state : SessionState}
    (h : s.elapse.attempt = (s', .did (.finished state))) :
    s.driveWith limit (fuel + 1) false = (s', .reached state) := by
  rw [driveWith, h]

/-- An attempt with which the session goes on is one step of a drive. -/
theorem Drives.behind {limit fuel id : Nat} {v : Verdict} {o : StepResult}
    (hdrives : s'.Drives limit fuel id v) (hdid : s.elapse.attempt = (s', .did o))
    (ho : ∀ state, o ≠ .finished state) (hplayed : s.controller.PlaysTo s'.controller)
    (hrequests : s'.transport.requests = s.transport.requests) :
    s.Drives limit (fuel + 1) id v := by
  obtain ⟨s₁, hdrive, hcomes⟩ := hdrives
  refine ⟨s₁, ?_, hcomes.plays, hcomes.ended, hplayed.trans hcomes.played,
    hcomes.requests.trans hrequests⟩
  rw [driveWith_did hdid ho, hdrive]

/-- A session that reads takes its tick if that is due, and otherwise reads. -/
theorem attempt_of_reading {n : Nat} {tick : Option Tick}
    (hturn : s.controller.turn = .reading n tick) :
    s.attempt =
      match tick.filter s.isDue with
      | some t => s.conclude (s.controller.onTick t.id)
      | none => s.readStream n tick := by
  rw [attempt, hturn]
  cases tick with
  | none => rfl
  | some t =>
    dsimp only
    rw [Option.filter_some]
    cases s.isDue t <;> rfl

theorem Plays.readStream_cons (h : s.Plays) {n : Nat} {i : Item} {rest : List Item}
    (hqueue : s.transport.queue n = i :: rest) (tick : Option Tick) :
    ∃ t : Scripted, t.Ends ∧ t.queue n = rest ∧ t.requests = s.transport.requests ∧
      s.readStream n tick =
        conclude { s with transport := t } (s.controller.onItem (some i)) := by
  obtain ⟨t, hread, hends, hrest, hrequests⟩ := Scripted.read_cons h.script hqueue
  refine ⟨t, hends, hrest, hrequests, ?_⟩
  rw [readStream, h.interruptions, hread]
  rfl

theorem Plays.readStream_nil (h : s.Plays) {n : Nat} (hqueue : s.transport.queue n = [])
    (tick : Option Tick) :
    ∃ t : Scripted, t.Ends ∧ t.requests = s.transport.requests ∧
      s.readStream n tick = conclude { s with transport := t } (s.controller.onItem none) := by
  obtain ⟨t, hread, hends, hrequests⟩ := Scripted.read_nil h.script hqueue
  refine ⟨t, hends, hrequests, ?_⟩
  rw [readStream, h.interruptions, hread]
  rfl

section Reading

variable {id n : Nat} {wire : LineFormat} {carry : Carry} {text : String}

theorem attempt_of_due (hplays : s.Plays)
    (h : s.controller.Stands wire id (.reading n) carry text) {t : Tick}
    (hdue : s.controller.tick?.filter s.isDue = some t) :
    ∃ s', s.attempt = (s', .did .painted) ∧ s'.Plays ∧
      s'.controller.Stands wire id (.reading n) carry text ∧ s'.controller.tick? = none ∧
      s'.transport = s.transport := by
  have ht : s.controller.tick? = some t := (Option.filter_eq_some_iff.mp hdue).1
  obtain ⟨hstands, htick, hpainted⟩ := h.onTick ht
  refine ⟨s.put (s.controller.onTick t.id).1, ?_, (hplays.put _).1, hstands, htick, ?_⟩
  · rw [attempt_of_reading h.turn_eq, hdue]
    dsimp only
    rw [conclude, hpainted]
  · exact transport_put (hstands.stream?_eq.trans h.stream?_eq.symm)

/-- A chunk is worth its lines. -/
theorem attempt_of_chunk (hplays : s.Plays)
    (h : s.controller.Stands wire id (.reading n) carry text)
    (hdue : s.controller.tick?.filter s.isDue = none) {chunk : Bytes} {rest : List Item}
    (hqueue : s.transport.queue n = .ok chunk :: rest) :
    ∃ s', s.attempt = (s', .did (resultAfter (carry.read chunk).2.length
          (((carry.read chunk).2.map wire.parse).findSome? Event.ending?))) ∧
      s'.Plays ∧ s'.transport.requests = s.transport.requests ∧
      s'.controller.Goes wire id (.reading n) (carry.read chunk).1
        (text ++ Event.heardText ((carry.read chunk).2.map wire.parse))
        (((carry.read chunk).2.map wire.parse).findSome? Event.ending?) ∧
      (((carry.read chunk).2.map wire.parse).findSome? Event.ending? = none →
        s'.transport.queue n = rest) := by
  obtain ⟨t, hends, hrest, hrequests, hread⟩ := hplays.readStream_cons hqueue s.controller.tick?
  obtain ⟨hgoes, hresult⟩ := h.onChunk chunk
  have hplays' : ({ s with transport := t } : Simulation).Plays :=
    ⟨hends, hplays.agenda, hplays.interruptions⟩
  obtain ⟨hput, hsame⟩ := hplays'.put (s.controller.onItem (some (.ok chunk))).1
  refine ⟨_, ?_, hput, hsame.trans hrequests, hgoes, fun hnone ↦ ?_⟩
  · rw [attempt_of_reading h.turn_eq, hdue]
    dsimp only
    rw [hread, conclude, hresult]
  · rw [hnone] at hgoes
    have hstands : (s.controller.onItem (some (.ok chunk))).1.Stands wire id (.reading n)
      (carry.read chunk).1 (text ++ Event.heardText ((carry.read chunk).2.map wire.parse)) := hgoes
    rw [transport_put (s := { s with transport := t })
      (hstands.stream?_eq.trans h.stream?_eq.symm)]
    exact hrest

/-- An error and the end of the stream end the session. -/
theorem attempt_of_last (hplays : s.Plays)
    (h : s.controller.Stands wire id (.reading n) carry text)
    (hdue : s.controller.tick?.filter s.isDue = none) {failure : Option TransportError}
    (hqueue : (s.transport.queue n).head? = failure.map .error) :
    ∃ s', s.attempt = (s', .did (.finished
          (verdictFrom wire carry text [] failure).ending.state)) ∧
      s'.Plays ∧ s'.transport.requests = s.transport.requests ∧
      s'.controller.Ended id (verdictFrom wire carry text [] failure) := by
  have hread : ∃ t : Scripted, t.Ends ∧ t.requests = s.transport.requests ∧
      s.readStream n s.controller.tick? =
        conclude { s with transport := t } (s.controller.onItem (failure.map .error)) := by
    cases failure with
    | none =>
      exact hplays.readStream_nil (List.head?_eq_none_iff.mp hqueue) _
    | some e =>
      obtain ⟨rest, hcons⟩ := List.head?_eq_some_iff.mp hqueue
      obtain ⟨t, hends, -, hrequests, hread⟩ := hplays.readStream_cons hcons s.controller.tick?
      exact ⟨t, hends, hrequests, hread⟩
  have hlast : (s.controller.onItem (failure.map .error)).1.Ended id
        (verdictFrom wire carry text [] failure) ∧
      (s.controller.onItem (failure.map .error)).2 =
        .finished (verdictFrom wire carry text [] failure).ending.state := by
    cases failure with
    | none => exact h.onEnd
    | some e =>
      have hverdict : verdictFrom wire carry text [] (some e) =
          { text, ending := .errored (.transport e) } := by
        rw [verdictFrom, Carry.linesToCome, List.flatten_nil, Carry.read_nil, List.map_nil,
          Event.heardText_nil, String.append_empty]
        rfl
      rw [hverdict]
      exact h.onError e
  obtain ⟨t, hends, hrequests, hread⟩ := hread
  have hplays' : ({ s with transport := t } : Simulation).Plays :=
    ⟨hends, hplays.agenda, hplays.interruptions⟩
  obtain ⟨hput, hsame⟩ := hplays'.put (s.controller.onItem (failure.map .error)).1
  refine ⟨_, ?_, hput, hsame.trans hrequests, hlast.1⟩
  rw [attempt_of_reading h.turn_eq, hdue]
  dsimp only
  rw [hread, conclude, hlast.2]

/-- Before an attempt time passes, and the session stands where it stood. -/
theorem Plays.elapsed (hplays : s.Plays) (hnumbered : s.controller.Numbered) {phase : Phase}
    (h : s.controller.Stands wire id phase carry text) :
    s.elapse.Plays ∧ s.elapse.transport = s.transport ∧
      s.elapse.controller.Stands wire id phase carry text ∧
      s.elapse.controller.tick? = s.controller.tick? ∧
      ∀ {s₁ : Simulation} {o : StepResult}, s.elapse.attempt = (s₁, .did o) →
        s.controller.PlaysTo s₁.controller := by
  obtain ⟨now, hcontroller, htransport, hplays'⟩ := hplays.exists_elapse
  have hpassed : s.controller.PlaysTo s.elapse.controller := by
    rw [hcontroller]
    exact .passTime _ now
  refine ⟨hplays', htransport, ?_, ?_, fun hdid ↦
    hpassed.trans (playsTo_attempt (hpassed.numbered hnumbered) hdid)⟩
  · rw [hcontroller]
    exact h.passTime now
  · rw [hcontroller]
    rfl

/-- With nothing left to read but an error, a session is at its end. -/
theorem drives_of_last (limit fuel : Nat) (hplays : s.Plays) (hnumbered : s.controller.Numbered)
    (h : s.controller.Stands wire id (.reading n) carry text)
    (hdue : s.elapse.controller.tick?.filter s.elapse.isDue = none)
    {failure : Option TransportError}
    (hqueue : (s.transport.queue n).head? = failure.map .error) :
    s.Drives limit (fuel + 1) id (verdictFrom wire carry text [] failure) := by
  obtain ⟨hplays₁, htransport, hstands, -, hplayed⟩ := hplays.elapsed hnumbered h
  rw [← htransport] at hqueue
  obtain ⟨s', hdid, hplays', hrequests, hended⟩ := attempt_of_last hplays₁ hstands hdue hqueue
  rw [htransport] at hrequests
  exact ⟨s', driveWith_finished hdid, hplays', hended, hplayed hdid, hrequests⟩

/-- From wherever a session stands in its stream, a drive comes to the verdict on the rest. -/
theorem drives_of_reading (limit fuel : Nat) (hplays : s.Plays)
    (hnumbered : s.controller.Numbered)
    (h : s.controller.Stands wire id (.reading n) carry text)
    (hfuel : 2 * (s.transport.queue n).length + 1 + s.controller.tick?.toList.length ≤ fuel) :
    s.Drives limit fuel id (verdictFrom wire carry text (cutQueue (s.transport.queue n)).1
      (cutQueue (s.transport.queue n)).2) := by
  induction fuel generalizing s carry text with
  | zero => omega
  | succ fuel ih =>
    obtain ⟨hplays₁, htransport, hstands, htick, hplayed⟩ := hplays.elapsed hnumbered h
    cases hdue : s.elapse.controller.tick?.filter s.elapse.isDue with
    | some t =>
      -- A tick fires once, and then an item is next.
      obtain ⟨s₁, hdid, hplays₂, hstands₂, htick₂, htransport₂⟩ :=
        attempt_of_due hplays₁ hstands hdue
      have hsome : s.controller.tick? = some t :=
        htick.symm.trans (Option.filter_eq_some_iff.mp hdue).1
      rw [hsome, Option.toList_some, List.length_singleton] at hfuel
      rw [htransport] at htransport₂
      have hnumbered₂ := (hplayed hdid).numbered hnumbered
      have hdrives := ih hplays₂ hnumbered₂ hstands₂ (by
        rw [htick₂, htransport₂, Option.toList_none, List.length_nil]
        omega)
      rw [htransport₂] at hdrives
      exact hdrives.behind hdid nofun (hplayed hdid) (congrArg Scripted.requests htransport₂)
    | none =>
      cases hqueue : s.transport.queue n with
      | nil =>
        exact drives_of_last limit fuel hplays hnumbered h hdue (congrArg List.head? hqueue)
      | cons item rest =>
        cases item with
        | error e =>
          exact drives_of_last limit fuel hplays hnumbered h hdue (congrArg List.head? hqueue)
        | ok chunk =>
          -- A chunk is one item less, and may leave a tick waiting behind it: two steps at most.
          rw [hqueue, List.length_cons] at hfuel
          rw [← htransport] at hqueue
          obtain ⟨s₁, hdid, hplays₂, hrequests, hgoes, hrest⟩ :=
            attempt_of_chunk hplays₁ hstands hdue hqueue
          rw [htransport] at hrequests
          rw [cutQueue, verdictFrom_cons]
          generalize ((carry.read chunk).2.map wire.parse).findSome? Event.ending? = ending
            at hdid hgoes hrest ⊢
          cases ending with
          | some e =>
            exact ⟨s₁, driveWith_finished hdid, hplays₂, hgoes, hplayed hdid, hrequests⟩
          | none =>
            have htickLength := length_tick?_le s₁.controller
            have hnumbered₂ := (hplayed hdid).numbered hnumbered
            have hdrives := ih hplays₂ hnumbered₂ hgoes (by
              rw [hrest rfl]
              omega)
            rw [hrest rfl] at hdrives
            exact hdrives.behind hdid nofun (hplayed hdid) hrequests

/-! ### The opening of a stream -/

/-- The request is handed to the transport, and nobody else hears of it. -/
theorem attempt_of_unopened {r : Request}
    (h : s.controller.Stands wire id (.unopened r) carry text) :
    ∃ c₁ : Controller Ledger, c₁.Stands wire id .opening carry text ∧
      c₁.tick? = s.controller.tick? ∧ c₁.session.bind Session.stream? = none ∧
      s.attempt = ask { s with controller := c₁ } r := by
  obtain ⟨session, hs, hid, hphase, hcarry, -⟩ := h.session
  have hasked := (h.onSession hs { session with phase := .opening } rfl rfl hcarry rfl).keeps
    (keeps_act _ (.asked r))
  refine ⟨_, hasked, ?_, rfl, ?_⟩
  · rw [tick?, tick?, hs]
    rfl
  · rw [attempt, turn_of_free hs (hid ▸ h.free), hphase]

/-- A rejection ends the session before anything is read. -/
theorem attempt_of_rejection (hplays : s.Plays) {r : Request}
    (h : s.controller.Stands wire id (.unopened r) carry text) {e : TransportError}
    {rest : List Answer} (hrest : rest ⊆ s.transport.answers)
    (hask : s.transport.ask r = ({ s.transport with
      requests := s.transport.requests ++ [r], answers := rest }, .rejection e)) :
    ∃ s', s.attempt = (s', .did (.finished .errored)) ∧ s'.Plays ∧
      s'.transport.requests = s.transport.requests ++ [r] ∧
      s'.controller.Ended id { text, ending := .errored (.transport e) } := by
  obtain ⟨c₁, hopening, -, -, hattempt⟩ := attempt_of_unopened h
  obtain ⟨hended, hresult⟩ := hopening.onRejection e
  have hasked : ({ s with controller := c₁, transport := { s.transport with
      requests := s.transport.requests ++ [r], answers := rest } } : Simulation).Plays :=
    ⟨hplays.script.asked r hrest, hplays.agenda, hplays.interruptions⟩
  obtain ⟨hput, hrequests⟩ := hasked.put (c₁.onAnswer (.error e)).1
  refine ⟨_, ?_, hput, hrequests, hended⟩
  rw [hattempt, Simulation.ask]
  dsimp only
  rw [hask]
  dsimp only
  rw [conclude, hresult]

/-- A stream is read from where the session stands. -/
theorem attempt_of_stream (hplays : s.Plays) {r : Request}
    (h : s.controller.Stands wire id (.unopened r) carry text) {n : Nat} {rest : List Answer}
    (hanswers : s.transport.answers = .stream n :: rest) :
    ∃ s', s.attempt = (s', .did .opened) ∧ s'.Plays ∧
      s'.transport.requests = s.transport.requests ++ [r] ∧
      s'.transport.queue n = s.transport.queue n ∧
      s'.controller.tick? = s.controller.tick? ∧
      s'.controller.Stands wire id (.reading n) carry text := by
  obtain ⟨c₁, hopening, htick, hstream, hattempt⟩ := attempt_of_unopened h
  obtain ⟨hreading, htick', hresult⟩ := hopening.onStream n
  have hrest : rest ⊆ s.transport.answers := hanswers ▸ List.subset_cons_self _ _
  have hask : s.transport.ask r = ({ s.transport with
      requests := s.transport.requests ++ [r], answers := rest }, .stream n) := by
    rw [Scripted.ask]
    dsimp only
    rw [hanswers]
  have hasked : ({ s with controller := c₁, transport := { s.transport with
      requests := s.transport.requests ++ [r], answers := rest } } : Simulation).Plays :=
    ⟨hplays.script.asked r hrest, hplays.agenda, hplays.interruptions⟩
  obtain ⟨hput, hrequests⟩ := hasked.put (c₁.onAnswer (.ok n)).1
  refine ⟨_, ?_, hput, hrequests, ?_, htick'.trans htick, hreading⟩
  · have hreads : stream? (put { s with controller := c₁, transport := { s.transport with
        requests := s.transport.requests ++ [r], answers := rest } } (c₁.onAnswer (.ok n)).1) =
          some n := hreading.stream?_eq
    rw [hattempt, Simulation.ask]
    dsimp only
    rw [hask]
    dsimp only
    rw [giveStream, conclude]
    dsimp only
    rw [if_pos hreads, hresult]
  · -- The session read no stream before, so no reader is lost.
    rw [Simulation.put, Simulation.stream?]
    dsimp only
    rw [hstream]
    rfl

theorem length_queue_le_backlog (s : Simulation) (n : Nat) :
    (s.transport.queue n).length ≤ s.backlog := by
  rw [Scripted.queue]
  cases hp : s.transport.pipes[n]? with
  | none => exact Nat.zero_le _
  | some p =>
    have hmem : p.queue.length ∈ s.transport.pipes.map (·.queue.length) :=
      List.mem_map_of_mem (List.mem_of_getElem? hp)
    have hsum := List.le_sum_of_mem hmem
    rwa [List.sum_eq_foldl] at hsum

/-- **A script that ends** brings every session to its end, whatever the pace: what it holds for the
request is what the session comes to. -/
theorem drive_ends (hplays : s.Plays) (hnumbered : s.controller.Numbered) {r : Request}
    (h : s.controller.Stands wire id (.unopened r) .empty "")
    (htick : s.controller.tick? = none) :
    ∃ s', s.drive = (s', .reached (s.transport.supply.verdict wire).ending.state) ∧
      s'.Plays ∧ s'.controller.Ended id (s.transport.supply.verdict wire) ∧
      s.controller.PlaysTo s'.controller ∧
      s'.transport.requests = s.transport.requests ++ [r] := by
  obtain ⟨hplays₁, htransport, hstands, htick₁, hplayed⟩ := hplays.elapsed hnumbered h
  obtain ⟨fuel, hfuel⟩ : ∃ fuel, 8 * (s.backlog + s.agenda.length + 2) = fuel + 1 :=
    ⟨8 * (s.backlog + s.agenda.length + 2) - 1, by omega⟩
  rw [drive, hfuel]
  rcases hplays₁.script.ask_cases r with ⟨n, rest, hanswers⟩ | ⟨e, rest, hsupply, hrest, hask⟩
  · obtain ⟨s₁, hdid, hplays₂, hrequests₂, hqueue, htick₂, hreading⟩ :=
      attempt_of_stream hplays₁ hstands hanswers
    have hbacklog := length_queue_le_backlog s n
    rw [htransport] at hqueue hanswers
    rw [htick₁, htick] at htick₂
    have hnumbered₂ := (hplayed hdid).numbered hnumbered
    obtain ⟨s', hdrive, hplays', hended, hcame, hrequests⟩ :=
      drives_of_reading (s.clock + driveLimit) fuel hplays₂ hnumbered₂ hreading (by
        rw [htick₂, hqueue, Option.toList_none, List.length_nil]
        omega)
    have hverdict : verdictFrom wire .empty "" (cutQueue (s.transport.queue n)).1
        (cutQueue (s.transport.queue n)).2 = s.transport.supply.verdict wire := by
      rw [verdictFrom_empty wire n, Scripted.supply, hanswers]
    rw [hqueue, hverdict] at hdrive hended
    rw [driveWith_did hdid nofun]
    refine ⟨s', hdrive, hplays', hended, (hplayed hdid).trans hcame, ?_⟩
    rw [hrequests, hrequests₂, htransport]
  · obtain ⟨s₁, hdid, hplays₂, hrequests₂, hended⟩ :=
      attempt_of_rejection hplays₁ hstands hrest hask
    rw [htransport] at hsupply hrequests₂
    rw [driveWith_finished hdid, hsupply]
    exact ⟨s₁, rfl, hplays₂, hended, hplayed hdid, hrequests₂⟩

end Reading

end Simulation

end ChatStream
