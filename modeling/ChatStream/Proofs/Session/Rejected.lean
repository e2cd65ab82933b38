import ChatStream.Proofs.Session.Driven
import ChatStream.Proofs.Text.Encoding
import ChatStream.Proofs.Transport.Replies

/-!
# Sessions that get no stream

A server that answers with anything but success has nothing for the reader of a stream: its body is
never cut into lines, and none of it becomes text or a record. The session fails in the step that
hands its request out, and the user is told once.

## What is told of one session

Notices and records carry no session, so what belongs to a session is known by where it stands:
behind its beginning, as long as no other has begun (`since`). There the deeds are those of its
block in the chronicle.
-/

namespace ChatStream

/-! ## Beginnings and errors among deeds -/

namespace Deed

/-- The session that a deed begins. -/
def begun? : Deed → Option Nat
  | .shown (.sessionStarted session _) => some session
  | _ => none

/-- The error that a deed tells. -/
def error? : Deed → Option String
  | .shown (.notice .error message) => some message
  | _ => none

theorem error?_of_not_traced {d : Deed} (hd : d.isTraced = false) : d.error? = none := by
  cases d with
  | shown e => cases hd
  | _ => rfl

theorem offer?_of_not_traced {d : Deed} (hd : d.isTraced = false) : d.offer? = none := by
  cases d with
  | committed r refusal => cases hd
  | _ => rfl

/-- Only the beginnings of sessions and what is told of failures are picked. -/
structure PicksEnds {β : Type} (f : Deed → Option β) : Prop where
  measured : ∀ n, f (.measured n) = none
  near : ∀ tokens limit, f (.shown (.budgetNearLimit tokens limit)) = none
  committed : ∀ r refusal, f (.committed r refusal) = none
  warning : ∀ message, f (.shown (.notice .warning message)) = none
  render : ∀ n update, f (.shown (.render n update)) = none
  state : ∀ n state, f (.shown (.stateChanged n state)) = none

theorem picksEnds_begun? : PicksEnds begun? where
  measured _ := rfl
  near _ _ := rfl
  committed _ _ := rfl
  warning _ := rfl
  render _ _ := rfl
  state _ _ := rfl

theorem picksEnds_error? : PicksEnds error? where
  measured _ := rfl
  near _ _ := rfl
  committed _ _ := rfl
  warning _ := rfl
  render _ _ := rfl
  state _ _ := rfl

namespace PicksEnds

variable {β : Type} {f : Deed → Option β} (hf : PicksEnds f)
include hf

theorem check (k : Check) : k.deeds.filterMap f = [] := by
  rw [List.filterMap_eq_nil_iff]
  simp [Check.deeds, Check.events, hf.measured, hf.near]

theorem offer (o : Offer) : o.deeds.filterMap f = [] := by
  rw [List.filterMap_eq_nil_iff]
  simp [Offer.deeds, Offer.events, hf.committed, hf.warning]

theorem passage (session : Nat) (p : Passage) : (p.deeds session).filterMap f = [] := by
  cases p with
  | frame delta hne => exact List.filterMap_cons_none (hf.render _ _)
  | check k => exact hf.check k

theorem closing (session : Nat) (committed : String) (k : Closing) :
    (k.deeds session committed).filterMap f = (k.ending.events.map .shown).filterMap f := by
  have hoffers := filterMap_flatMap_eq_nil hf.offer k.offers
  have hlater := filterMap_flatMap_eq_nil hf.check k.later
  simp only [Closing.deeds, List.cons_append]
  rw [List.filterMap_cons_none (hf.render _ _), List.filterMap_append, List.filterMap_append,
    List.filterMap_append, hoffers, List.filterMap_cons_none (hf.state _ _), hf.check, hlater,
    List.append_nil, List.append_nil, List.nil_append]

theorem block (b : Block) :
    b.deeds.filterMap f =
      [.shown (.sessionStarted b.session b.model)].filterMap f ++
        b.closing.toList.flatMap fun k ↦ (k.ending.events.map .shown).filterMap f := by
  have hpassages := filterMap_flatMap_eq_nil (hf.passage b.session) b.passages
  have hclosing : (b.closing.toList.flatMap (Closing.deeds b.session b.painted)).filterMap f =
      b.closing.toList.flatMap fun k ↦ (k.ending.events.map .shown).filterMap f := by
    rw [List.filterMap_flatMap]
    exact congrArg (b.closing.toList.flatMap ·) (funext (hf.closing b.session b.painted))
  simp only [Block.deeds, List.cons_append]
  rw [← List.singleton_append, List.filterMap_append, List.filterMap_cons_none (hf.state _ _),
    List.filterMap_append, hpassages, hclosing, List.nil_append]

end PicksEnds

end Deed

theorem Block.filterMap_begun? (b : Block) : b.deeds.filterMap Deed.begun? = [b.session] := by
  have hendings (e : Ending) : (e.events.map Deed.shown).filterMap Deed.begun? = [] := by
    cases e <;> rfl
  rw [Deed.picksEnds_begun?.block, List.flatMap_eq_nil_iff.mpr fun k _ ↦ hendings k.ending]
  rfl

/-- What is picked from the end of a list can be picked from what is left of it by a filter, if the
filter leaves where the end begins and all that is picked. -/
theorem filterMap_dropWhile_filter {α β : Type} {p q : α → Bool} {f : α → Option β}
    (hp : ∀ a, q a = false → p a = true) (hf : ∀ a, q a = false → f a = none) (as : List α) :
    ((as.filter q).dropWhile p).filterMap f = (as.dropWhile p).filterMap f := by
  induction as with
  | nil => rfl
  | cons a as ih =>
    cases hq : q a with
    | false =>
      rw [List.filter_cons_of_neg (Bool.eq_false_iff.mp hq), List.dropWhile_cons_of_pos (hp a hq)]
      exact ih
    | true =>
      rw [List.filter_cons_of_pos hq]
      cases hdrops : p a with
      | true =>
        rw [List.dropWhile_cons_of_pos hdrops, List.dropWhile_cons_of_pos hdrops]
        exact ih
      | false =>
        have hkept := Bool.eq_false_iff.mp hdrops
        rw [List.dropWhile_cons_of_neg hkept, List.dropWhile_cons_of_neg hkept,
          ← List.filter_cons_of_pos hq, List.filterMap_filter]
        congr 1
        funext a'
        cases hq' : q a' with
        | true => rfl
        | false => exact (hf a' hq').symm

theorem Session.exists_unopened (s : Session) (h : s.request?.isSome = true) :
    ∃ request, s.phase = .unopened request := by
  rw [Session.request?] at h
  cases hp : s.phase with
  | unopened request => exact ⟨request, rfl⟩
  | _ =>
    rw [hp] at h
    cases h

namespace Controller

variable {σ : Type} {c c' : Controller σ} {s : Session} {h : Chronicle} {b : Block}

/-! ## Since a session began -/

/-- All that was done since a session began. -/
def since (c : Controller σ) (session : Nat) : List Deed :=
  c.deeds.dropWhile fun d ↦ d.begun? ≠ some session

theorem filterMap_since {β : Type} {f : Deed → Option β}
    (hf : ∀ d, d.isTraced = false → f d = none) (c : Controller σ) (session : Nat) :
    (c.since session).filterMap f =
      (c.trace.dropWhile fun d ↦ d.begun? ≠ some session).filterMap f := by
  refine (filterMap_dropWhile_filter (fun d hd ↦ ?_) hf c.deeds).symm
  cases d with
  | shown e => cases hd
  | _ => rfl

/-- What was done since the current session began is told in its block, and behind that. -/
theorem filterMap_since_of_trace (ht : h.Tells c) (hcurrent : h.current = some b) {ds : List Deed}
    (htrace : c'.trace = c.trace ++ ds) {β : Type} {f : Deed → Option β}
    (hf : ∀ d, d.isTraced = false → f d = none) :
    (c'.since b.session).filterMap f = b.deeds.filterMap f ++ ds.filterMap f := by
  have hbegun : (h.before.flatMap Check.deeds ++ h.older.flatMap Block.deeds).filterMap
      Deed.begun? = h.older.map Block.session := by
    rw [List.filterMap_append, filterMap_flatMap_eq_nil Deed.picksEnds_begun?.check,
      List.filterMap_flatMap, funext Block.filterMap_begun?, List.nil_append]
    exact List.map_eq_flatMap.symm
  have hnew : b.session ∉ h.older.map Block.session := by
    have hnodup : (h.blocks.map Block.session).Nodup := ht.sessions ▸ List.nodup_range
    rw [Chronicle.blocks_of_current hcurrent, List.map_append, List.nodup_append] at hnodup
    exact fun hmem ↦ hnodup.2.2 _ hmem _ List.mem_cons_self rfl
  have hdropped : ∀ d ∈ h.before.flatMap Check.deeds ++ h.older.flatMap Block.deeds,
      decide (d.begun? ≠ some b.session) = true := by
    intro d hd
    refine decide_eq_true fun hbegins ↦ hnew ?_
    rw [← hbegun, List.mem_filterMap]
    exact ⟨d, hd, hbegins⟩
  have hsplit : c'.trace = (h.before.flatMap Check.deeds ++ h.older.flatMap Block.deeds) ++
      (b.deeds ++ ds) := by
    rw [htrace, ht.trace, Chronicle.deeds, Chronicle.blocks_of_current hcurrent,
      List.flatMap_append, List.flatMap_singleton]
    simp only [List.append_assoc]
  rw [filterMap_since hf, hsplit, List.dropWhile_append_of_pos hdropped, ← List.filterMap_append]
  congr 1
  simp [Block.deeds, Deed.begun?]

/-! ## The step that is refused a stream -/

/-- What is left of a session that failed without a stream: no text, one word on the failure, and
the record of the message alone. -/
structure FailsBare (c : Controller σ) (session : Nat) (f : Failure) : Prop where
  ended : c.Ended session { text := "", ending := .errored f }
  told : (c.since session).filterMap Deed.error? = [f.message]
  records : (((c.since session).filterMap Deed.offer?).map Offer.record).map Record.role = [.user]

/-- A session whose request is rejected ends where it stands. -/
theorem exists_step_eq_failed (hs : c.session = some s) {request : Request}
    (hp : s.phase = .unopened request) (hfree : c.isCancelled s.id = false) {w : Wait}
    (hw : s.id ∉ w.cancelled) {e : TransportError} (hwake : w.wake = .answer (.error e)) :
    ∃ c₀, c.StandsBy s c₀ ∧
      c.step w = (c₀.finish (.errored (.transport e)), some (.finished .errored)) := by
  have hasked : c.StandsBy s
      ({ c with session := some { s with phase := .opening } }.act (.asked request)) :=
    ⟨.single (.ask hs hp hfree), ⟨.opening, rfl, rfl⟩, (trace_act _ _).trans (List.append_nil _)⟩
  have hstands : Stands ({ c with session := some { s with phase := .opening } }.act
      (.asked request)) c.config.wire s.id .opening s.lines.carry s.text.committed :=
    ⟨rfl, hfree, _, rfl, rfl, rfl, rfl, rfl⟩
  refine ⟨_, hasked.waits w [], ?_⟩
  rw [step.eq_def, turn_of_free hs hfree, hp]
  dsimp only
  rw [hwake]
  dsimp only
  rw [onAnswer.eq_def, (hstands.pass hw).tokenCancelled, if_neg Bool.false_ne_true]
  rfl

theorem FailsBare.of_standsBy (ht : h.Tells c) (hs : c.session = some s) (hl : s.isLive = true)
    (hempty : s.text = {}) {c₀ : Controller σ} (hstands : c.StandsBy s c₀) (f : Failure) :
    (c₀.finish (.errored f)).FailsBare s.id f := by
  obtain ⟨hmoves, ⟨phase, hs₀, hl₀⟩, htrace⟩ := hstands
  obtain ⟨h₀, ht₀, -, -⟩ := ht.moves hmoves
  obtain ⟨k, hending, -, -, hrecords, -, houtline⟩ := ht₀.exists_closing hs₀ hl₀ (.errored f)
  obtain ⟨b, hcurrent, hb⟩ := ht.exists_current hs
  have hopen : b.closing = none := hb.closing_eq_none hl
  have htext : s.text.committed = "" := congrArg RunningText.committed hempty
  have htraced : (c₀.finish (.errored f)).trace = c.trace ++ k.deeds s.id s.text.committed := by
    rw [trace_of_outline houtline (k.isTraced_of_mem _ _), htrace]
  constructor
  · have hended := ended_finish hs₀ hl₀ (.errored f)
    rwa [htext] at hended
  · have htold := filterMap_since_of_trace ht hcurrent htraced fun _ ↦ Deed.error?_of_not_traced
    rw [hb.session] at htold
    rw [htold, Deed.picksEnds_error?.block, hopen, Deed.picksEnds_error?.closing, hending]
    rfl
  · have hoffered := filterMap_since_of_trace ht hcurrent htraced fun _ ↦ Deed.offer?_of_not_traced
    have hkept : keepsAnswer c₀.config (.errored f) s.text.committed = false := by
      rw [htext]
      rfl
    rw [hb.session] at hoffered
    rw [hoffered, b.filterMap_offer?, hopen, k.filterMap_offer?, Option.toList_none,
      List.flatMap_nil, List.nil_append, hrecords, recordsOf_eq, hkept]
    rfl

/-- A session whose request is rejected is over after one step of a drive. -/
theorem Reached.exists_drive_eq_failed (hc : c.Reached) (hs : c.session = some s)
    {request : Request} (hp : s.phase = .unopened request) (hfree : c.isCancelled s.id = false)
    (e : TransportError) (items : List Item) {m : Moment} (hm : s.id ∉ m.cancelled)
    (moments : List Moment) :
    ∃ c', c.drive (.error e) items (m :: moments) = (c', some .errored) ∧
      c'.FailsBare s.id (.transport e) := by
  have hl : s.isLive = true := by rw [Session.isLive, hp]
  have hclosed := hasStream_eq_false hs (stream?_of_unopened hp)
  have hempty : s.text = {} :=
    (hc.hearsPast.unheard (isStreaming_iff.mpr ⟨s, hs, hl⟩) hclosed s hs).1
  have hstands : c.Stands c.config.wire s.id (.unopened request) s.lines.carry s.text.committed :=
    ⟨rfl, hfree, s, hs, rfl, hp, rfl, rfl⟩
  have hwake := hstands.nextWake_unopened (.error e) items m.tickIsDue
  obtain ⟨h, ht⟩ := hc.tells
  obtain ⟨c₀, hby, hstep⟩ :=
    exists_step_eq_failed hs hp hfree (w := m.wait (.answer (.error e))) hm rfl
  exact ⟨_, drive_cons_finished hwake hstep moments, .of_standsBy ht hs hl hempty hby _⟩

/-- **An answer that is no success is no stream.** A server's answer is a stream exactly if its
status says so. Any other is an error with the status and the longest start of the body that fits
into the limit; the search backwards from there comes to its end, after three bytes at most. The
session that asked fails, whatever stands in the body: it has no text and no record of an answer,
and the user is told once. -/
theorem fails_of_status (endpoint : String) (r : Reply) :
    ((∃ items, openHttp endpoint false (some r) = .ok items) ↔
      200 ≤ r.status ∧ r.status ≤ 299) ∧
    (¬ (200 ≤ r.status ∧ r.status ≤ 299) →
      ∃ kept, openHttp endpoint false (some r) = .error (.status r.status kept) ∧
        LongestStart 512 r.text kept ∧
        (r.text.utf8ByteSize ≤ 512 → kept = r.text) ∧
        (512 < r.text.utf8ByteSize →
          kept.utf8ByteSize = boundaryFrom r.text 512 ∧ 512 ≤ kept.utf8ByteSize + 3) ∧
        ∀ {σ : Type} {c : Controller σ} {s : Session} {request : Request}, c.Reached →
          c.session = some s → s.phase = .unopened request → c.isCancelled s.id = false →
          ∀ (stream : Nat) (items : List Item) (m : Moment) (moments : List Moment),
            s.id ∉ m.cancelled →
            ∃ c', c.drive ((openHttp endpoint false (some r)).map fun _ ↦ stream) items
                (m :: moments) = (c', some .errored) ∧
              c'.FailsBare s.id (.transport (.status r.status kept))) := by
  refine ⟨openHttp_eq_ok_iff endpoint r, fun hstatus ↦ ?_⟩
  have herror := openHttp_eq_error endpoint hstatus
  have hlongest := r.longestStart_description
  refine ⟨r.description, herror, hlongest, hlongest.eq_of_le,
    fun hlong ↦ ⟨hlongest.boundaryFrom_eq.symm, hlongest.limit_le hlong⟩, ?_⟩
  intro σ c s request hc hs hp hfree stream items m moments hm
  rw [herror]
  exact hc.exists_drive_eq_failed hs hp hfree _ items hm moments

/-- An event of a stream with a long text. -/
def longEvent : String :=
  "data: \x7b\"content\":\"" ++ String.ofList (List.replicate 200 '€') ++ "\"\x7d\n\n"

/-- A rejection whose body is a whole stream. -/
def refusedInFull : Reply where
  status := 503
  pieces := [Utf8.encode longEvent]

/-- The limit falls within a character. -/
theorem fails_of_status_refusedInFull :
    ∃ kept, openHttp "http://localhost" false (some refusedInFull) = .error (.status 503 kept) ∧
      kept.utf8ByteSize = 510 ∧
      ∃ c', ((new History.archive {} {} "scripted").run [.begin { message := "hi" }]).drive
          ((openHttp "http://localhost" false (some refusedInFull)).map fun _ ↦ 0)
          refusedInFull.items [⟨[], 20, false⟩] = (c', some .errored) ∧
        c'.FailsBare 0 (.transport (.status 503 kept)) := by
  have htext : refusedInFull.text = longEvent := by
    rw [Reply.text, if_neg (show ¬ refusedInFull.cut = true by decide), refusedInFull,
      List.flatten_singleton, Utf8.lossy_encode]
  have hlong : 512 < longEvent.utf8ByteSize := by decide +kernel
  have hback : boundaryFrom longEvent 512 = 510 := by decide +kernel
  obtain ⟨kept, herror, -, -, hcut, hfails⟩ :=
    (fails_of_status "http://localhost" refusedInFull).2 (by decide)
  rw [htext, hback] at hcut
  have hsome : ((new History.archive {} {} "scripted").run [.begin { message := "hi" }]).session.map
      (fun s ↦ (s.id, s.request?.isSome)) = some (0, true) := by decide +kernel
  obtain ⟨s, hs, hsome⟩ := Option.map_eq_some_iff.mp hsome
  obtain ⟨hid, hrequest⟩ := Prod.mk.inj hsome
  obtain ⟨request, hp⟩ := s.exists_unopened hrequest
  have hfree : ((new History.archive {} {} "scripted").run
      [.begin { message := "hi" }]).isCancelled s.id = false := by
    rw [hid]
    decide +kernel
  obtain ⟨c', hdrive, hbare⟩ := hfails ⟨_, _, _, _, _, rfl⟩ hs hp hfree 0
    refusedInFull.items ⟨[], 20, false⟩ [] List.not_mem_nil
  rw [hid] at hbare
  exact ⟨kept, herror, (hcut hlong).1, c', hdrive, hbare⟩

end Controller

end ChatStream
