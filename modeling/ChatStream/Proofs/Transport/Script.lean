import Mathlib.Tactic
import ChatStream.Proofs.Transport.Lanes
import ChatStream.Proofs.Transport.Pieces

/-!
# Scripts that are played

Every stream has its lane and the script its answers, and everything that is done keeps that
(`Keeps`). So the log of a run says of each reply what it has to be (`Exchange.run_follows`).
-/

namespace ChatStream

open ExchangeLog

namespace Exchange

/-- What is kept by everything that is done. -/
structure Keeps (x : Exchange) (log : List ExchangeEntry) : Prop where
  answers : x.transport.answers = Laid.answers (opened log) ((script log).drop (served log))
  afterwards : x.transport.afterwards = outOfScript
  requests : x.transport.requests = requested log
  length_pipes : x.transport.pipes.length = (Laid.streams (script log)).length
  length_streams : x.streams.length = opened log
  lane : ∀ n chunks p, (Laid.streams (script log))[n]? = some chunks →
    x.transport.pipes[n]? = some p → Lane chunks (words log n) n p x.streams[n]?
  /-- Nothing happens to a stream before it is laid down. -/
  words : ∀ n, (Laid.streams (script log)).length ≤ n → words log n = []

section
variable {x : Exchange} {log : List ExchangeEntry} {n m : Nat} {p p' : Pipe} {e : ExchangeEntry}
  {chunks : List Bytes}

theorem keeps_start : ({} : Exchange).Keeps [] where
  answers := rfl
  afterwards := rfl
  requests := rfl
  length_pipes := rfl
  length_streams := rfl
  lane n chunks p hchunks := by simp [script, Laid.streams] at hchunks
  words n _ := rfl

/-- Whatever is no request adds to the script what it lays down, and has to be looked at only in
the streams. -/
theorem Keeps.extend (h : x.Keeps log) (hrequest : e.request? = none) {t : Scripted}
    {streams : List (Option Opened)}
    (hanswers : t.answers =
      x.transport.answers ++ Laid.answers x.transport.pipes.length e.laid?.toList)
    (hafterwards : t.afterwards = x.transport.afterwards)
    (hrequests : t.requests = x.transport.requests)
    (hpipes : t.pipes.length = (Laid.streams (script (log ++ [e]))).length)
    (hstreams : streams.length = x.streams.length)
    (hlane : ∀ n chunks p, (Laid.streams (script (log ++ [e])))[n]? = some chunks →
      t.pipes[n]? = some p →
        Lane chunks (ExchangeLog.words log n ++ (e.tells? n).toList) n p streams[n]?)
    (hwords : ∀ n, t.pipes.length ≤ n → e.tells? n = none) :
    Keeps { transport := t, streams } (log ++ [e]) := by
  have hopened := opened_concat_of_none log hrequest
  refine ⟨?_, hafterwards.trans h.afterwards, ?_, hpipes, ?_, ?_, ?_⟩
  · rw [drop_served_concat_of_none log hrequest, hopened, Laid.answers_append, opened_add_length,
      ← h.length_pipes, ← h.answers]
    exact hanswers
  · rw [hrequests, h.requests, requested_concat, hrequest, Option.toList_none, List.append_nil]
  · rw [hopened, hstreams, h.length_streams]
  · intro n chunks p hchunks hp
    rw [words_concat]
    exact hlane n chunks p hchunks hp
  · intro n hn
    have hnone : e.tells? n = none := hwords n (hpipes ▸ hn)
    rw [streams_concat, List.length_append] at hn
    rw [words_concat, h.words n (by omega), hnone]
    rfl

theorem script_concat_of_none (hlaid : e.laid? = none) : script (log ++ [e]) = script log := by
  simp [script_concat, hlaid]

/-- What was not there leaves everything as it was. -/
theorem Keeps.spare (h : x.Keeps log) (hlaid : e.laid? = none) (hrequest : e.request? = none)
    (hword : e.word? = none) : x.Keeps (log ++ [e]) := by
  have htells : ∀ n, e.tells? n = none := fun n ↦ by rw [ExchangeEntry.tells?, hword]; rfl
  refine h.extend hrequest ?_ rfl rfl ?_ rfl ?_ fun n _ ↦ htells n
  · rw [hlaid]
    exact (List.append_nil _).symm
  · rw [script_concat_of_none hlaid]
    exact h.length_pipes
  · rw [script_concat_of_none hlaid]
    intro n chunks p hchunks hp
    rw [htells, Option.toList_none, List.append_nil]
    exact h.lane n chunks p hchunks hp

/-- What happens to one stream has to be looked at there alone. -/
theorem Keeps.touch (h : x.Keeps log) (ws : List LaneWord)
    (hp : x.transport.pipes[m]? = some p) (hlaid : e.laid? = none) (hrequest : e.request? = none)
    (htells : (e.tells? m).toList = ws)
    (hothers : ∀ n ≠ m, e.tells? n = none) {streams : List (Option Opened)}
    (hlength : streams.length = x.streams.length) (hstreams : ∀ n ≠ m, streams[n]? = x.streams[n]?)
    (hlane : ∀ chunks, Lane chunks (ExchangeLog.words log m) m p x.streams[m]? →
      Lane chunks (ExchangeLog.words log m ++ ws) m p' streams[m]?) :
    Keeps { transport := { x.transport with pipes := x.transport.pipes.set m p' }, streams }
      (log ++ [e]) := by
  have hm : m < x.transport.pipes.length := (List.getElem?_eq_some_iff.mp hp).1
  refine h.extend hrequest ?_ rfl rfl ?_ hlength ?_ ?_
  · rw [hlaid]
    exact (List.append_nil _).symm
  · rw [script_concat_of_none hlaid, List.length_set]
    exact h.length_pipes
  · rw [script_concat_of_none hlaid]
    intro n chunks q hchunks hq
    by_cases hn : n = m
    · subst hn
      rw [List.getElem?_set_self hm, Option.some_inj] at hq
      rw [htells, ← hq]
      exact hlane chunks (h.lane n chunks p hchunks hp)
    · rw [List.getElem?_set_ne (Ne.symm hn)] at hq
      rw [hothers n hn, hstreams n hn, Option.toList_none, List.append_nil]
      exact h.lane n chunks q hchunks hq
  · intro n hn
    rw [List.length_set] at hn
    exact hothers n (by omega)

theorem Keeps.word (h : x.Keeps log) (hp : x.transport.pipes[m]? = some p) (hlaid : e.laid? = none)
    (hrequest : e.request? = none) {w : LaneWord} (hword : e.word? = some (m, w))
    {streams : List (Option Opened)} (hlength : streams.length = x.streams.length)
    (hstreams : ∀ n ≠ m, streams[n]? = x.streams[n]?)
    (hlane : ∀ chunks, Lane chunks (ExchangeLog.words log m) m p x.streams[m]? →
      Lane chunks (ExchangeLog.words log m ++ [w]) m p' streams[m]?) :
    Keeps { transport := { x.transport with pipes := x.transport.pipes.set m p' }, streams }
      (log ++ [e]) := by
  refine h.touch [w] hp hlaid hrequest ?_ ?_ hlength hstreams hlane
  · rw [ExchangeEntry.tells?, hword]
    simp
  · intro n hn
    rw [ExchangeEntry.tells?, hword]
    simp [hn.symm]

/-! ## Feeds -/

theorem exists_pipe_of_hasFeed (h : x.hasFeed n = true) :
    ∃ p, x.transport.pipes[n]? = some p ∧ 0 < p.writers := by
  rw [hasFeed, Option.any_eq_true] at h
  obtain ⟨p, hp, hwriters⟩ := h
  exact ⟨p, hp, of_decide_eq_true hwriters⟩

theorem onPipe_eq_set (t : Scripted) (hp : t.pipes[n]? = some p) (change : Pipe → Pipe) :
    t.onPipe n change = { t with pipes := t.pipes.set n (change p) } := by
  rw [Scripted.onPipe, List.modify_eq_set_getElem?, hp]
  rfl

theorem send_eq_set (t : Scripted) (hp : t.pipes[n]? = some p) (i : Item) :
    t.send n i = ({ t with pipes := t.pipes.set n (p.send i).1 }, (p.send i).2) := by
  rw [Scripted.send, hp]

theorem Keeps.copyFeed (h : x.Keeps log) (n : Nat) :
    (x.step (.copyFeed n)).1.Keeps (log ++ [⟨.copyFeed n, (x.step (.copyFeed n)).2⟩]) := by
  rw [step]
  by_cases hfeed : x.hasFeed n = true
  · obtain ⟨p, hp, hwriters⟩ := exists_pipe_of_hasFeed hfeed
    rw [if_pos hfeed, onPipe_eq_set _ hp]
    exact h.word hp rfl rfl rfl rfl (fun _ _ ↦ rfl) fun _ hlane ↦ hlane.copyFeed hwriters
  · rw [if_neg hfeed]
    exact h.spare rfl rfl rfl

theorem Keeps.dropFeed (h : x.Keeps log) (n : Nat) :
    (x.step (.dropFeed n)).1.Keeps (log ++ [⟨.dropFeed n, (x.step (.dropFeed n)).2⟩]) := by
  rw [step]
  by_cases hfeed : x.hasFeed n = true
  · obtain ⟨p, hp, hwriters⟩ := exists_pipe_of_hasFeed hfeed
    rw [if_pos hfeed, onPipe_eq_set _ hp]
    exact h.word hp rfl rfl rfl rfl (fun _ _ ↦ rfl) fun _ hlane ↦ hlane.dropFeed hwriters
  · rw [if_neg hfeed]
    exact h.spare rfl rfl rfl

theorem Keeps.send (h : x.Keeps log) (n : Nat) (i : Item) :
    (x.step (.send n i)).1.Keeps (log ++ [⟨.send n i, (x.step (.send n i)).2⟩]) := by
  rw [step]
  by_cases hfeed : x.hasFeed n = true
  · obtain ⟨p, hp, hwriters⟩ := exists_pipe_of_hasFeed hfeed
    rw [if_pos hfeed, send_eq_set _ hp, Pipe.send]
    by_cases hreader : p.hasReader = true
    · rw [if_pos hreader]
      exact h.word hp rfl rfl rfl rfl (fun _ _ ↦ rfl) fun _ hlane ↦ hlane.send hwriters i hreader
    · rw [if_neg hreader]
      refine h.touch [] hp rfl rfl rfl (fun _ _ ↦ rfl) rfl (fun _ _ ↦ rfl) ?_
      intro chunks hlane
      rwa [List.append_nil]
  · rw [if_neg hfeed]
    exact h.spare rfl rfl rfl

/-! ## Readers -/

theorem exists_stream (h : x.Keeps log) (hstream : (x.stream? n).isSome = true) :
    ∃ o p, x.stream? n = some o ∧ x.streams[n]? = some (some o) ∧
      x.transport.pipes[n]? = some p := by
  obtain ⟨o, ho⟩ := Option.isSome_iff_exists.mp hstream
  have hs : x.streams[n]? = some (some o) := Option.join_eq_some_iff.mp ho
  have hlt : n < x.transport.pipes.length := by
    have hn := (List.getElem?_eq_some_iff.mp hs).1
    have hle := opened_le log
    rw [h.length_streams] at hn
    rw [h.length_pipes]
    omega
  exact ⟨o, _, ho, hs, List.getElem?_eq_getElem hlt⟩

/-- Whoever has a pipe has the chunks with which it was laid down. -/
theorem Keeps.exists_lane (h : x.Keeps log) (hp : x.transport.pipes[n]? = some p) :
    ∃ chunks, (Laid.streams (script log))[n]? = some chunks ∧
      Lane chunks (ExchangeLog.words log n) n p x.streams[n]? := by
  have hn : n < (Laid.streams (script log)).length :=
    h.length_pipes ▸ (List.getElem?_eq_some_iff.mp hp).1
  have hchunks := List.getElem?_eq_getElem hn
  exact ⟨_, hchunks, h.lane n _ p hchunks hp⟩

theorem Keeps.drop (h : x.Keeps log) (n : Nat) :
    (x.step (.drop n)).1.Keeps (log ++ [⟨.drop n, (x.step (.drop n)).2⟩]) := by
  rw [step]
  by_cases hstream : (x.stream? n).isSome = true
  · obtain ⟨o, p, ho, hs, hp⟩ := exists_stream h hstream
    obtain ⟨chunks, -, hlane⟩ := h.exists_lane hp
    rw [if_pos hstream, Exchange.drop, ho]
    dsimp only
    rw [hlane.pipe o hs, onPipe_eq_set _ hp]
    have hn : n < x.streams.length := (List.getElem?_eq_some_iff.mp hs).1
    refine h.word hp rfl rfl rfl List.length_set (fun m hm ↦ List.getElem?_set_ne hm.symm) ?_
    intro chunks hlane
    rw [List.getElem?_set_self hn]
    exact hlane.drop
  · rw [if_neg hstream]
    exact h.spare rfl rfl rfl

theorem next_eq (h : x.Keeps log) {o : Opened} (ho : x.stream? n = some o)
    (hs : x.streams[n]? = some (some o)) (hp : x.transport.pipes[n]? = some p) :
    x.next n =
      ({ transport := { x.transport with pipes := x.transport.pipes.set n (o.stream.next p).2.1 },
         streams := x.streams.set n (some { o with stream := (o.stream.next p).1 }) },
        (o.stream.next p).2.2) := by
  obtain ⟨chunks, -, hlane⟩ := h.exists_lane hp
  rw [Exchange.next, ho]
  dsimp only
  rw [hlane.pipe o hs, Scripted.next, hp]

theorem Keeps.next (h : x.Keeps log) (n : Nat) :
    (x.step (.next n)).1.Keeps (log ++ [⟨.next n, (x.step (.next n)).2⟩]) := by
  rw [step]
  by_cases hstream : (x.stream? n).isSome = true
  · obtain ⟨o, p, ho, hs, hp⟩ := exists_stream h hstream
    obtain ⟨chunks, -, hlane⟩ := h.exists_lane hp
    have hn : n < x.streams.length := (List.getElem?_eq_some_iff.mp hs).1
    rw [if_pos hstream, next_eq h ho hs hp]
    dsimp only
    rw [(hlane.next hs).1]
    refine h.touch (LaneWord.ofPoll (Lane.found p)) hp rfl rfl ?_ ?_ List.length_set
      (fun m hm ↦ List.getElem?_set_ne hm.symm) ?_
    · cases Lane.found p <;> simp [ExchangeEntry.tells?, ExchangeEntry.word?, LaneWord.ofPoll]
    · intro m hm
      cases Lane.found p <;> simp [ExchangeEntry.tells?, ExchangeEntry.word?, hm.symm]
    · intro chunks hlane
      rw [List.getElem?_set_self hn]
      exact (hlane.next hs).2
  · rw [if_neg hstream]
    exact h.spare rfl rfl rfl

/-! ## The script -/

/-- A stream is laid down. -/
theorem Keeps.lay (h : x.Keeps log) (hlaid : e.laid? = some (.stream chunks))
    (hrequest : e.request? = none) (hothers : ∀ m ≠ x.transport.pipes.length, e.tells? m = none)
    (hlane : Lane chunks (e.tells? x.transport.pipes.length).toList x.transport.pipes.length p
      none) :
    Keeps { x with
      transport := (x.transport.addPipe p).1.addAnswer (.stream x.transport.pipes.length) }
      (log ++ [e]) := by
  have hscript : Laid.streams (script (log ++ [e])) = Laid.streams (script log) ++ [chunks] := by
    rw [streams_concat, hlaid]
    rfl
  have hpipes : (x.transport.pipes ++ [p]).length = x.transport.pipes.length + 1 :=
    List.length_append
  refine h.extend hrequest ?_ rfl rfl ?_ rfl ?_ ?_
  · rw [hlaid]
    rfl
  · rw [hscript, List.length_append, ← h.length_pipes]
    exact hpipes
  · rw [hscript]
    intro n chunks' q hchunks hq
    have hq' : (x.transport.pipes ++ [p])[n]? = some q := hq
    by_cases hn : n = x.transport.pipes.length
    · subst hn
      have hstream : x.streams[x.transport.pipes.length]? = none := by
        rw [List.getElem?_eq_none_iff, h.length_streams, h.length_pipes]
        exact opened_le log
      rw [List.getElem?_concat_length, Option.some_inj] at hq'
      rw [h.length_pipes, List.getElem?_concat_length, Option.some_inj] at hchunks
      rw [h.words _ h.length_pipes.ge, hstream, ← hq', ← hchunks, List.nil_append]
      exact hlane
    · have hlt : n < x.transport.pipes.length := by
        have hlt := (List.getElem?_eq_some_iff.mp hq').1
        omega
      rw [List.getElem?_append_left hlt] at hq'
      rw [List.getElem?_append_left (h.length_pipes ▸ hlt)] at hchunks
      rw [hothers n hn, Option.toList_none, List.append_nil]
      exact h.lane n chunks' q hchunks hq'
  · intro n hn
    have hn' : (x.transport.pipes ++ [p]).length ≤ n := hn
    exact hothers n (by omega)

theorem Keeps.addStream (h : x.Keeps log) :
    (x.step .addStream).1.Keeps (log ++ [⟨.addStream, (x.step .addStream).2⟩]) := by
  have hself : (⟨.addStream, (x.step .addStream).2⟩ : ExchangeEntry).tells?
      x.transport.pipes.length = some .fed := if_pos rfl
  refine h.lay rfl rfl ?_ ?_
  · intro m hm
    exact if_neg hm.symm
  · rw [hself]
    exact .fed _

theorem Keeps.addChunks (h : x.Keeps log) (chunks : List Bytes) :
    (x.step (.addChunks chunks)).1.Keeps
      (log ++ [⟨.addChunks chunks, (x.step (.addChunks chunks)).2⟩]) :=
  h.lay (p := .ofChunks chunks) rfl rfl (fun _ _ ↦ rfl) (.ofChunks chunks _)

theorem Keeps.addRejection (h : x.Keeps log) (e : TransportError) :
    (x.step (.addRejection e)).1.Keeps
      (log ++ [⟨.addRejection e, (x.step (.addRejection e)).2⟩]) := by
  have hscript (reply : ExchangeReply) :
      Laid.streams (script (log ++ [⟨.addRejection e, reply⟩])) = Laid.streams (script log) := by
    rw [streams_concat]
    exact List.append_nil _
  refine h.extend rfl rfl rfl rfl ?_ rfl ?_ fun _ _ ↦ rfl
  · rw [hscript]
    exact h.length_pipes
  · rw [hscript]
    intro n chunks p hchunks hp
    exact (List.append_nil _).symm ▸ h.lane n chunks p hchunks hp

/-! ## Requests -/

/-- A request takes what comes first of what is left. -/
theorem of_drop_served {a : Laid} {rest : List Laid}
    (h : (script log).drop (served log) = a :: rest) (r : Request) (reply : ExchangeReply) :
    (script log)[served log]? = some a ∧
      served (log ++ [⟨.request r, reply⟩]) = served log + 1 ∧
      (script log).drop (served log + 1) = rest ∧
      opened (log ++ [⟨.request r, reply⟩]) = opened log + a.chunks?.toList.length := by
  have hlt : served log < (script log).length := by
    have hlength := congrArg List.length h
    rw [List.length_drop, List.length_cons] at hlength
    omega
  have hget : (script log)[served log]? = some a := by
    rw [← List.head?_drop, h, List.head?_cons]
  have hserved : served (log ++ [⟨.request r, reply⟩]) = served log + 1 := by
    rw [served_concat]
    exact Nat.min_eq_right hlt
  refine ⟨hget, hserved, ?_, ?_⟩
  · rw [← List.drop_drop, h]
    rfl
  · rw [opened, hserved, script_concat_of_none rfl, List.take_add_one, hget, Laid.streams,
      List.filterMap_append, List.length_append, opened, Laid.streams]
    cases a <;> rfl

/-- A request leaves all streams as they were, but may hand one out. -/
theorem Keeps.asked (h : x.Keeps log) {r : Request} {reply : ExchangeReply}
    (hword : (⟨.request r, reply⟩ : ExchangeEntry).word? = none) {answers : List Answer}
    {streams : List (Option Opened)}
    (hanswers : answers = Laid.answers (opened (log ++ [⟨.request r, reply⟩]))
      ((script log).drop (served (log ++ [⟨.request r, reply⟩]))))
    (hlength : streams.length = opened (log ++ [⟨.request r, reply⟩]))
    (hstreams : ∀ n, streams[n]? = x.streams[n]? ∨
      x.streams[n]? = none ∧ streams[n]? = some (some (Opened.mk n {}))) :
    Keeps
      { transport :=
          { x.transport with requests := x.transport.requests ++ [r], answers },
        streams }
      (log ++ [⟨.request r, reply⟩]) := by
  have hscript : script (log ++ [⟨.request r, reply⟩]) = script log := script_concat_of_none rfl
  have hwords (n : Nat) :
      ExchangeLog.words (log ++ [⟨.request r, reply⟩]) n = ExchangeLog.words log n := by
    rw [words_concat, ExchangeEntry.tells?, hword]
    exact List.append_nil _
  refine ⟨?_, h.afterwards, ?_, ?_, hlength, ?_, ?_⟩
  · rw [hscript]
    exact hanswers
  · rw [requested_concat, ← h.requests]
    rfl
  · rw [hscript]
    exact h.length_pipes
  · rw [hscript]
    intro n chunks p hchunks hp
    have hlane := h.lane n chunks p hchunks hp
    rw [hwords]
    rcases hstreams n with hsame | ⟨hnone, hopened⟩
    · rwa [hsame]
    · rw [hnone] at hlane
      rw [hopened]
      exact hlane.handOut
  · rw [hscript]
    intro n hn
    rw [hwords, h.words n hn]

/-- A request for which nothing was laid down is refused. -/
theorem Keeps.request_of_nil (h : x.Keeps log) (hdrop : (script log).drop (served log) = [])
    (r : Request) :
    (x.step (.request r)).2 = reply log ∧
      (x.step (.request r)).1.Keeps (log ++ [⟨.request r, reply log⟩]) := by
  have hanswers : x.transport.answers = [] := by
    rw [h.answers, hdrop]
    rfl
  have hstep : x.step (.request r) =
      ({ x with transport := { x.transport with requests := x.transport.requests ++ [r] } },
        .refused outOfScript) := by
    rw [step, Exchange.request, Scripted.ask]
    simp only [hanswers, h.afterwards]
  have hle : (script log).length ≤ served log := List.drop_eq_nil_iff.mp hdrop
  have hreply : reply log = .refused outOfScript := by
    rw [reply, List.getElem?_eq_none hle]
  have hserved : served (log ++ [⟨.request r, .refused outOfScript⟩]) = served log := by
    rw [served_concat, le_antisymm (served_le log) hle]
    exact Nat.min_eq_left (Nat.le_succ _)
  have hopened : opened (log ++ [⟨.request r, .refused outOfScript⟩]) = opened log := by
    rw [opened, hserved, script_concat_of_none rfl, opened]
  rw [hstep, hreply]
  refine ⟨rfl, h.asked rfl ?_ ?_ fun n ↦ .inl rfl⟩
  · rw [hserved, hdrop, hanswers]
    rfl
  · rw [hopened, h.length_streams]

/-- A request for which a stream was laid down opens it. -/
theorem Keeps.request_of_stream (h : x.Keeps log) {rest : List Laid}
    (hdrop : (script log).drop (served log) = .stream chunks :: rest) (r : Request) :
    (x.step (.request r)).2 = reply log ∧
      (x.step (.request r)).1.Keeps (log ++ [⟨.request r, reply log⟩]) := by
  obtain ⟨hget, hserved, hrest, hopened⟩ := of_drop_served hdrop r (.opened (opened log))
  have hanswers : x.transport.answers =
      .stream (opened log) :: Laid.answers (opened log + 1) rest := by
    rw [h.answers, hdrop]
    rfl
  have hstep : x.step (.request r) =
      ({ transport :=
           { x.transport with
             requests := x.transport.requests ++ [r]
             answers := Laid.answers (opened log + 1) rest },
         streams := x.streams ++ [some { pipe := opened log }] },
        .opened (opened log)) := by
    rw [step, Exchange.request, Scripted.ask]
    simp only [hanswers, handOut, h.length_streams]
  have hreply : reply log = .opened (opened log) := by
    rw [reply, hget]
  rw [hstep, hreply]
  refine ⟨rfl, h.asked rfl ?_ ?_ fun n ↦ ?_⟩
  · rw [hserved, hrest, hopened]
    rfl
  · rw [hopened, List.length_append, h.length_streams]
    rfl
  · by_cases hn : n = x.streams.length
    · subst hn
      refine .inr ⟨List.getElem?_eq_none le_rfl, ?_⟩
      rw [List.getElem?_concat_length, h.length_streams]
    · refine .inl ?_
      rw [List.getElem?_append, List.getElem?_singleton]
      split_ifs
      · rfl
      · omega
      · rw [List.getElem?_eq_none (by omega)]

/-- A request for which a rejection was laid down is told that. -/
theorem Keeps.request_of_rejection (h : x.Keeps log) {error : TransportError} {rest : List Laid}
    (hdrop : (script log).drop (served log) = .rejection error :: rest) (r : Request) :
    (x.step (.request r)).2 = reply log ∧
      (x.step (.request r)).1.Keeps (log ++ [⟨.request r, reply log⟩]) := by
  obtain ⟨hget, hserved, hrest, hopened⟩ := of_drop_served hdrop r (.refused error)
  have hanswers : x.transport.answers =
      .rejection error :: Laid.answers (opened log) rest := by
    rw [h.answers, hdrop]
    rfl
  have hstep : x.step (.request r) =
      ({ x with
         transport :=
           { x.transport with
             requests := x.transport.requests ++ [r]
             answers := Laid.answers (opened log) rest } },
        .refused error) := by
    rw [step, Exchange.request, Scripted.ask]
    simp only [hanswers]
  have hreply : reply log = .refused error := by
    rw [reply, hget]
  rw [hstep, hreply]
  refine ⟨rfl, h.asked rfl ?_ ?_ fun n ↦ .inl rfl⟩
  · rw [hserved, hrest, hopened]
    rfl
  · rw [hopened, h.length_streams]
    rfl

theorem Keeps.request (h : x.Keeps log) (r : Request) :
    (x.step (.request r)).2 = reply log ∧
      (x.step (.request r)).1.Keeps (log ++ [⟨.request r, reply log⟩]) :=
  match hdrop : (script log).drop (served log) with
  | [] => h.request_of_nil hdrop r
  | .stream _ :: _ => h.request_of_stream hdrop r
  | .rejection _ :: _ => h.request_of_rejection hdrop r

/-! ## Runs -/

theorem Keeps.step (h : x.Keeps log) (a : ExchangeAct) :
    (x.step a).1.Keeps (log ++ [⟨a, (x.step a).2⟩]) :=
  match a with
  | .addStream => h.addStream
  | .addChunks chunks => h.addChunks chunks
  | .addRejection e => h.addRejection e
  | .copyFeed n => h.copyFeed n
  | .send n i => h.send n i
  | .dropFeed n => h.dropFeed n
  | .request r => (h.request r).1.symm ▸ (h.request r).2
  | .next n => h.next n
  | .drop n => h.drop n

/-- The feeds that the log counts are there. -/
theorem Keeps.hasFeed_iff (h : x.Keeps log) (n : Nat) : x.hasFeed n = true ↔ 0 < feeds log n := by
  rw [hasFeed]
  cases hp : x.transport.pipes[n]? with
  | none =>
    have hn : x.transport.pipes.length ≤ n := List.getElem?_eq_none_iff.mp hp
    rw [feeds, h.words n (h.length_pipes ▸ hn)]
    simp
  | some p =>
    obtain ⟨chunks, -, hlane⟩ := h.exists_lane hp
    have hfeeds := hlane.feeds
    rw [Option.any_some, decide_eq_true_iff, feeds]
    omega

theorem Keeps.isSome_stream?_iff (h : x.Keeps log) (n : Nat) :
    (x.stream? n).isSome = true ↔ IsHeld log n := by
  rw [IsHeld, ← h.length_streams, stream?]
  cases hs : x.streams[n]? with
  | none =>
    have hn : x.streams.length ≤ n := List.getElem?_eq_none_iff.mp hs
    simpa using fun hlt ↦ absurd hlt (Nat.not_lt.mpr hn)
  | some s =>
    have hn : n < x.streams.length := (List.getElem?_eq_some_iff.mp hs).1
    have hpipe : n < x.transport.pipes.length := by
      have hle := opened_le log
      rw [← h.length_streams, ← h.length_pipes] at hle
      omega
    obtain ⟨chunks, -, hlane⟩ := h.exists_lane (List.getElem?_eq_getElem hpipe)
    rw [HasLeft, ← hlane.left, hs]
    cases s <;> simp [hn]

/-- A reader finds in the pipe what is due. -/
theorem Keeps.due_eq (h : x.Keeps log) (hp : x.transport.pipes[n]? = some p)
    (hreader : p.hasReader = true) : due log n = Lane.found p := by
  obtain ⟨chunks, hchunks, hlane⟩ := h.exists_lane hp
  have hsent : sent log n = returned log n ++ p.queue := by
    rw [sent, hchunks]
    exact hlane.items hreader
  have hfeeds : feeds log n = p.writers := by
    have hfeeds := hlane.feeds
    rw [feeds]
    omega
  rw [due, hsent, List.drop_left, hfeeds, Lane.found]

theorem Keeps.step_eq (h : x.Keeps log) (a : ExchangeAct) : (x.step a).2 = expected log a := by
  cases a with
  | addStream =>
    rw [expected, ← h.length_pipes]
    rfl
  | addChunks chunks => rfl
  | addRejection e => rfl
  | copyFeed n =>
    rw [Exchange.step, expected, if_congr (h.hasFeed_iff n) rfl rfl]
    split_ifs <;> rfl
  | send n i =>
    rw [Exchange.step, expected]
    by_cases hfeed : x.hasFeed n = true
    · obtain ⟨p, hp, hwriters⟩ := exists_pipe_of_hasFeed hfeed
      obtain ⟨chunks, -, hlane⟩ := h.exists_lane hp
      have hreader : p.hasReader = true ↔ ¬HasLeft log n := hlane.reader
      have hheard : (p.send i).2 = decide ¬HasLeft log n := by
        rw [Pipe.send, ← decide_eq_decide.mpr hreader]
        split_ifs with hthere
        · exact (decide_eq_true hthere).symm
        · exact (decide_eq_false hthere).symm
      rw [if_pos hfeed, if_pos ((h.hasFeed_iff n).mp hfeed), send_eq_set _ hp]
      exact congrArg ExchangeReply.sent hheard
    · rw [if_neg hfeed, if_neg (mt (h.hasFeed_iff n).mpr hfeed)]
  | dropFeed n =>
    rw [Exchange.step, expected, if_congr (h.hasFeed_iff n) rfl rfl]
    split_ifs <;> rfl
  | request r => exact (h.request r).1
  | next n =>
    rw [Exchange.step, expected]
    by_cases hstream : (x.stream? n).isSome = true
    · obtain ⟨o, p, ho, hs, hp⟩ := exists_stream h hstream
      obtain ⟨chunks, -, hlane⟩ := h.exists_lane hp
      rw [if_pos hstream, if_pos ((h.isSome_stream?_iff n).mp hstream), next_eq h ho hs hp,
        h.due_eq hp (hlane.hasReader hs), ← (hlane.next hs).1]
    · rw [if_neg hstream, if_neg (mt (h.isSome_stream?_iff n).mpr hstream)]
  | drop n =>
    rw [Exchange.step, expected, if_congr (h.isSome_stream?_iff n) rfl rfl]
    split_ifs <;> rfl

/-- What is promised of a run, from the log that it leaves. -/
structure Follows (acts : List ExchangeAct) (x : Exchange) (log : List ExchangeEntry) : Prop where
  acts : log.map ExchangeEntry.act = acts
  /-- Every reply is the one that is due after all that went before. -/
  replies : ∀ before e after, log = before ++ e :: after → e.reply = expected before e.act
  /-- All requests are remembered, also those that were refused. -/
  requests : x.transport.requests = requested log
  /-- What is left of the script. -/
  answers : x.transport.answers = Laid.answers (opened log) ((script log).drop (served log))
  /-- What a stream returned went into it, in this order, and nothing before it is missing. -/
  returned : ∀ n, returned log n <+: sent log n
  /-- It ends when nobody can send any more and all of it was returned. -/
  ended : ∀ n, due log n = .ended ↔ feeds log n = 0 ∧ ExchangeLog.returned log n = sent log n

/-- Nothing is returned that was not sent. -/
theorem Keeps.returned_prefix (h : x.Keeps log) (n : Nat) : returned log n <+: sent log n := by
  by_cases hn : n < x.transport.pipes.length
  · obtain ⟨chunks, hchunks, hlane⟩ := h.exists_lane (List.getElem?_eq_getElem hn)
    rw [sent, hchunks]
    exact hlane.returned
  · rw [returned, h.words n (h.length_pipes ▸ Nat.not_lt.mp hn)]
    exact List.nil_prefix

theorem due_eq_ended_iff (h : returned log n <+: sent log n) :
    due log n = .ended ↔ feeds log n = 0 ∧ returned log n = sent log n := by
  obtain ⟨rest, hrest⟩ := h
  rw [due, ← hrest, List.drop_left]
  cases rest with
  | nil => simp
  | cons i rest => simp

theorem keeps_run (h : x.Keeps log) (acts : List ExchangeAct) :
    (x.run acts).1.Keeps (log ++ (x.run acts).2) ∧ (x.run acts).2.map ExchangeEntry.act = acts ∧
      ∀ before e after, (x.run acts).2 = before ++ e :: after →
        e.reply = expected (log ++ before) e.act := by
  induction acts generalizing x log with
  | nil => exact ⟨(List.append_nil log).symm ▸ h, rfl, by simp [run]⟩
  | cons a acts ih =>
    obtain ⟨hkeeps, hacts, hreplies⟩ := ih (h.step a)
    rw [List.append_assoc] at hkeeps
    refine ⟨hkeeps, congrArg (a :: ·) hacts, ?_⟩
    rintro (_ | ⟨e', before⟩) e after hlog
    · obtain ⟨rfl, -⟩ := List.cons.inj hlog
      rw [List.append_nil]
      exact h.step_eq a
    · obtain ⟨rfl, hrest⟩ := List.cons.inj hlog
      rw [List.append_cons]
      exact hreplies before e after hrest

theorem follows_run (acts : List ExchangeAct) :
    Follows acts (run {} acts).1 (run {} acts).2 := by
  obtain ⟨hkeeps, hacts, hreplies⟩ := keeps_run keeps_start acts
  exact ⟨hacts, hreplies, hkeeps.requests, hkeeps.answers, hkeeps.returned_prefix,
    fun n ↦ due_eq_ended_iff (hkeeps.returned_prefix n)⟩

/-! ## Streams that nobody feeds any more -/

/-- What can still happen to a stream that has no feed left. -/
theorem tells_of_shut (hn : n < (Laid.streams (script log)).length) (hshut : feeds log n = 0)
    (hreply : e.reply = expected log e.act) :
    ∀ w ∈ e.tells? n, w.isFed = false ∧ w.isUnfed = false ∧ w.sent? = none := by
  intro w hw
  rw [ExchangeEntry.tells?, Option.mem_def, Option.bind_eq_some_iff] at hw
  obtain ⟨⟨m, w'⟩, hword, hm⟩ := hw
  obtain ⟨rfl, rfl⟩ : m = n ∧ w' = w := by simpa using hm
  obtain ⟨act, reply⟩ := e
  dsimp only at hreply
  subst hreply
  cases act with
  | addStream =>
    obtain ⟨rfl, -⟩ : (Laid.streams (script log)).length = m ∧ LaneWord.fed = w' := by
      simpa [ExchangeEntry.word?, expected] using hword
    exact absurd hn (lt_irrefl _)
  | addChunks chunks => simp [ExchangeEntry.word?, expected] at hword
  | addRejection error => simp [ExchangeEntry.word?, expected] at hword
  | copyFeed k =>
    by_cases hk : 0 < feeds log k
    · obtain ⟨rfl, -⟩ : k = m ∧ LaneWord.fed = w' := by
        simpa [ExchangeEntry.word?, expected, hk] using hword
      omega
    · simp [ExchangeEntry.word?, expected, hk] at hword
  | send k i =>
    by_cases hk : 0 < feeds log k
    · by_cases hleft : HasLeft log k
      · simp [ExchangeEntry.word?, expected, hk, hleft] at hword
      · obtain ⟨rfl, -⟩ : k = m ∧ LaneWord.sent i = w' := by
          simpa [ExchangeEntry.word?, expected, hk, hleft] using hword
        omega
    · simp [ExchangeEntry.word?, expected, hk] at hword
  | dropFeed k =>
    by_cases hk : 0 < feeds log k
    · obtain ⟨rfl, -⟩ : k = m ∧ LaneWord.unfed = w' := by
        simpa [ExchangeEntry.word?, expected, hk] using hword
      omega
    · simp [ExchangeEntry.word?, expected, hk] at hword
  | request r =>
    have hnone : (⟨.request r, reply log⟩ : ExchangeEntry).word? = none := by
      rw [reply]
      split <;> rfl
    exact absurd (hnone.symm.trans hword) nofun
  | next k =>
    by_cases hk : IsHeld log k
    · cases hdue : due log k with
      | item i =>
        obtain ⟨-, rfl⟩ : k = m ∧ LaneWord.returned i = w' := by
          simpa [ExchangeEntry.word?, expected, hk, hdue] using hword
        exact ⟨rfl, rfl, rfl⟩
      | ended => simp [ExchangeEntry.word?, expected, hk, hdue] at hword
      | waiting => simp [ExchangeEntry.word?, expected, hk, hdue] at hword
    · simp [ExchangeEntry.word?, expected, hk] at hword
  | drop k =>
    by_cases hk : IsHeld log k
    · obtain ⟨-, rfl⟩ : k = m ∧ LaneWord.left = w' := by
        simpa [ExchangeEntry.word?, expected, hk] using hword
      exact ⟨rfl, rfl, rfl⟩
    · simp [ExchangeEntry.word?, expected, hk] at hword

theorem shut_concat (hn : n < (Laid.streams (script log)).length) (hshut : feeds log n = 0)
    (hreply : e.reply = expected log e.act) :
    n < (Laid.streams (script (log ++ [e]))).length ∧ feeds (log ++ [e]) n = 0 ∧
      sent (log ++ [e]) n = sent log n := by
  have htells := tells_of_shut hn hshut hreply
  refine ⟨?_, ?_, ?_⟩
  · rw [streams_concat, List.length_append]
    exact Nat.lt_add_right _ hn
  · rw [feeds, words_concat, List.countP_append, List.countP_append, ← hshut, feeds]
    cases hw : e.tells? n with
    | none => rfl
    | some w =>
      obtain ⟨hfed, hunfed, -⟩ := htells w hw
      simp [hfed, hunfed]
  · rw [sent, streams_concat, List.getElem?_append_left hn, words_concat, List.filterMap_append,
      sent]
    cases hw : e.tells? n with
    | none => simp
    | some w => simp [(htells w hw).2.2]

/-- A stream that was laid down and has no feed left gets none, and nothing more goes into it. -/
theorem shut_append (log more : List ExchangeEntry)
    (hreplies : ∀ before e after, more = before ++ e :: after →
      e.reply = expected (log ++ before) e.act)
    (hn : n < (Laid.streams (script log)).length) (hshut : feeds log n = 0) :
    feeds (log ++ more) n = 0 ∧ sent (log ++ more) n = sent log n := by
  induction more generalizing log with
  | nil => exact ⟨(List.append_nil log).symm ▸ hshut, congrArg (sent · n) (List.append_nil log)⟩
  | cons e more ih =>
    have hreply : e.reply = expected log e.act := by
      simpa using hreplies [] e more rfl
    obtain ⟨hn', hshut', hsent⟩ := shut_concat hn hshut hreply
    rw [List.append_cons, ← hsent]
    refine ih (log ++ [e]) ?_ hn' hshut'
    intro before e' after hmore
    rw [← List.append_cons]
    exact hreplies (e :: before) e' after (congrArg (e :: ·) hmore)

/-- Streams are laid down and fed, and requests made, read and dropped, in any order. Every reply is
the one that the log before it asks for: a request gets what was laid down first of what is left, a
stream returns what was sent into it, each item once and in order, and ends when nobody can send and
all was read. Whoever plays captured bytes cuts them into pieces that are read in the same way. -/
theorem run_follows :
    (∀ acts, Follows acts (run {} acts).1 (run {} acts).2) ∧
      ∀ bytes size, CutInto size bytes (pieces size bytes) ∧
        ∀ acts, ∃ x log, run { transport := .ofWire bytes size } acts = (x, log) ∧
          let log := ⟨.addChunks (pieces size bytes), .done⟩ :: log
          Follows (.addChunks (pieces size bytes) :: acts) x log ∧
            sent log 0 = (pieces size bytes).map .ok := by
  refine ⟨follows_run, fun bytes size ↦ ⟨cutInto_pieces size bytes, fun acts ↦ ?_⟩⟩
  have hfollows := follows_run (.addChunks (pieces size bytes) :: acts)
  refine ⟨_, _, rfl, hfollows, ?_⟩
  -- Nobody feeds the stream of the pieces, so that nothing is added to them.
  refine (shut_append [⟨.addChunks (pieces size bytes), .done⟩] _ ?_ Nat.one_pos rfl).2.trans ?_
  · intro before e after hlog
    exact hfollows.replies (_ :: before) e after (congrArg (_ :: ·) hlog)
  · exact List.append_nil _

end

end Exchange

end ChatStream
