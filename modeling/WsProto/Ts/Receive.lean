import WsProto.Inbox
import WsProto.Ts.Queue
import WsProto.Ts.Mux

/-!
# Receiving on a TypeScript client

One stream of a mux on an open socket: frames arrive, `recv` is called, and after each
of them the continuations of `recv` run.  `reads_step` says that this is the mailbox of
`WsProto.Inbox`, with the mux's registry, its overflow reset and the writes of credit on
the way.
-/

namespace WsProto.Ts

open Inbox

/-- The result the next continuation of `recv` resumes with, and the credit it returns. -/
def StreamImpl.pulled (s : StreamImpl) : Option (PullResult Payload × Option ℤ) :=
  (s.inbound.settled[s.resumed]?).bind fun v => s.resume.map fun y => (v, y.2)

namespace Mux

variable (size : Frame → ℕ)

/-- The continuations of `recv` on a stream, at most `n` of them. -/
def resumeTurns : ℕ → Mux → Ref → Mux
  | 0, m, _ => m
  | n + 1, m, r =>
      match m.resume size r with
      | none => m
      | some (m', _) => resumeTurns n m' r

/-- The microtasks after an event: every continuation that is due. -/
def resumeAll (m : Mux) (r : Ref) : Mux :=
  match m.objs[r]? with
  | none => m
  | some s => resumeTurns size (s.inbound.settled.length - s.resumed) m r

/-- The mux after an event on the first stream, before its microtasks. -/
def begin (m : Mux) : Event → Mux
  | .frame f => (m.route size f).1
  | .recv => m.recv 0

/-- An event on the first stream. -/
def onEvent (m : Mux) (e : Event) : Mux := (m.begin size e).resumeAll size 0

/-- What the continuations resume with, each with the credit it returns. -/
def resumedWith : ℕ → Mux → Ref → List (PullResult Payload × Option ℤ)
  | 0, _, _ => []
  | n + 1, m, r =>
      match (m.objs[r]?).bind StreamImpl.pulled, m.resume size r with
      | some v, some (m', _) => v :: resumedWith n m' r
      | _, _ => []

/-- What the microtasks after an event resume with. -/
def resumedBy (m : Mux) (e : Event) : List (PullResult Payload × Option ℤ) :=
  match (m.begin size e).objs[0]? with
  | none => []
  | some s => resumedWith size (s.inbound.settled.length - s.resumed) (m.begin size e) 0

/-- What the receive calls of a run resume with, in order. -/
def received : Mux → List Event → List (PullResult Payload × Option ℤ)
  | _, [] => []
  | m, e :: evs => m.resumedBy size e ++ received (m.onEvent size e) evs

end Mux

/-! ## The mailbox -/

/-- The error a `recv` rejects with once the stream has ended, if it does. -/
def causeError : Cause → Option WsStatusError
  | .overflow => some receiveOverflow
  | .frame f => if f.kind = .kindEnd then statusErrorFromProto f.status else some (resetError f)

/-- The stream holds the mailbox, and `n` of its receive calls have resumed. -/
structure Holds (s : StreamImpl) (h : Mailbox Payload Cause) (n : ℕ) : Prop where
  id : s.id = 1
  inbound : s.inbound = queueOf causeError h
  finished : s.finished = h.outcome.isSome
  resumed : s.resumed = n
  within : s.resumed ≤ s.inbound.settled.length
  buffer : s.bufferedBytes + ((s.inbound.settled.take s.resumed).map PullResult.size).sum =
    bytes h.accepted
  outbound : s.outbound = []
  settledOnce : s.headersSettled = h.outcome.isSome
  headers : s.headers = (h.outcome.map Cause.trailers).getD ∅

/-- The mux holds the mailbox. -/
structure Reads (limit : ℤ) (m : Mux) (h : Mailbox Payload Cause) (n : ℕ) : Prop where
  opened : m.opened = true
  live : m.defunct = false
  limit : m.maxRecvBytes = limit
  registered : m.streams.lookup 1 = if h.outcome.isSome then none else some 0
  stream : ∃ s, m.objs[0]? = some s ∧ Holds s h n

/-- The mux holds the mailbox, and no continuation is due. -/
def Rests (limit : ℤ) (m : Mux) (h : Mailbox Payload Cause) : Prop :=
  Reads limit m h h.results.length

variable {size : Frame → ℕ} {limit : ℤ} {m : Mux} {h : Mailbox Payload Cause} {n : ℕ}

theorem Holds.length_settled {s : StreamImpl} (hh : Holds s h n) :
    s.inbound.settled.length = h.results.length := by
  rw [hh.inbound]
  exact List.length_map _

/-- Another state of the stream. -/
theorem Reads.setStream (hm : Reads limit m h n) {s' : StreamImpl} {h' : Mailbox Payload Cause}
    {n' : ℕ} (hs' : Holds s' h' n') (hout : h'.outcome = h.outcome) :
    Reads limit (m.setObj 0 s') h' n' := by
  obtain ⟨s, hs, -⟩ := hm.stream
  have hlt : 0 < m.objs.length := (List.getElem?_eq_some_iff.1 hs).1
  refine ⟨hm.opened, hm.live, hm.limit, ?_, s', ?_, hs'⟩
  · rw [hout]
    exact hm.registered
  · simp [Mux.setObj, hlt]

/-- A write does not touch the stream. -/
theorem Reads.write (size : Frame → ℕ) (hm : Reads limit m h n) (f : Frame) :
    ∃ m', m.writeFrame size f = (m', none) ∧ Reads limit m' h n :=
  ⟨_, Mux.writeFrame_opened hm.opened hm.live f,
    ⟨hm.opened, hm.live, hm.limit, hm.registered, hm.stream⟩⟩

/-! ## The continuations -/

/-- One continuation, which may write credit. -/
theorem Reads.resume (size : Frame → ℕ) (hm : Reads limit m h n) (hlt : n < h.results.length) :
    ∃ m' d, m.resume size 0 = some (m', none) ∧ Reads limit m' h (n + 1) ∧
      (m.objs[0]?).bind StreamImpl.pulled = some (toPull causeError h.results[n], d) := by
  obtain ⟨s, hs, hh⟩ := hm.stream
  have hr : s.inbound.settled[s.resumed]? = some (toPull causeError h.results[n]) := by
    rw [hh.inbound, hh.resumed]
    show (h.results.map _)[n]? = _
    simp [hlt]
  obtain ⟨c, d, hres⟩ := StreamImpl.resume_spec hr
  set s' : StreamImpl := { s with
    resumed := s.resumed + 1
    bufferedBytes := s.bufferedBytes - (toPull causeError h.results[n]).size
    pendingCredit := c } with hs'
  have hheld : Holds s' h (n + 1) := by
    refine { hh with resumed := congrArg (· + 1) hh.resumed, within := ?_, buffer := ?_ }
    · show s.resumed + 1 ≤ s.inbound.settled.length
      rw [hh.length_settled, hh.resumed]
      exact hlt
    · show s.bufferedBytes - _ + ((s.inbound.settled.take (s.resumed + 1)).map _).sum = _
      rw [← hh.buffer, List.take_add_one, hr, List.map_append, List.sum_append]
      simp
  have hset := hm.setStream hheld rfl
  have hpull : (m.objs[0]?).bind StreamImpl.pulled =
      some (toPull causeError h.results[n], d) := by
    simp [hs, StreamImpl.pulled, hr, hres]
  have hcases : m.resume size 0 = some (m.setObj 0 s', none) ∨
      ∃ f, m.resume size 0 = some ((m.setObj 0 s').writeFrame size f) := by
    simp only [Mux.resume, hs, Option.bind_some, hres, Option.map_some]
    cases d with
    | none => exact Or.inl rfl
    | some delta =>
        dsimp only
        split_ifs
        · exact Or.inr ⟨_, rfl⟩
        · exact Or.inl rfl
  rcases hcases with hsame | ⟨f, hwrite⟩
  · exact ⟨_, d, hsame, hset, hpull⟩
  · obtain ⟨m', hw, hm'⟩ := hset.write size f
    exact ⟨m', d, hwrite.trans (congrArg some hw), hm', hpull⟩

/-- **After the microtasks** nothing is due and the mailbox is the same; the calls have
resumed with its results. -/
theorem Reads.resumeTurns (size : Frame → ℕ) (k : ℕ) : ∀ {m : Mux} {n : ℕ}, Reads limit m h n →
    n + k = h.results.length →
    Rests limit (m.resumeTurns size k 0) h ∧
      (m.resumedWith size k 0).map Prod.fst = (h.results.map (toPull causeError)).drop n := by
  induction k with
  | zero =>
      intro m n hm hn
      refine ⟨?_, ?_⟩
      · rw [Rests, ← hn]
        exact hm
      · rw [List.drop_eq_nil_of_le (by simp [← hn])]
        rfl
  | succ k ih =>
      intro m n hm hn
      have hlt : n < h.results.length := by omega
      obtain ⟨m', d, hres, hm', hpull⟩ := hm.resume size hlt
      obtain ⟨hrest, hwith⟩ := ih hm' (by omega)
      refine ⟨?_, ?_⟩
      · rw [Mux.resumeTurns, hres]
        exact hrest
      · rw [Mux.resumedWith, hpull, hres]
        have hdrop := List.drop_eq_getElem_cons (l := h.results.map (toPull causeError))
          (i := n) (by simpa using hlt)
        rw [hdrop, List.getElem_map, ← hwith]
        rfl

/-! ## The stream -/

section Stream

variable {s : StreamImpl}

/-- At rest `bufferedBytes` is what is buffered. -/
theorem Holds.bufferedBytes (hh : Holds s h h.results.length) :
    s.bufferedBytes = bytes h.buffered := by
  have hb := hh.buffer
  have hsplit : bytes h.accepted = bytes (h.accepted.take h.pulls) + bytes h.buffered := by
    rw [← bytes_append, Mailbox.buffered, List.take_append_drop]
  rw [hh.resumed, ← hh.length_settled, List.take_length, hh.inbound, size_settled, hsplit] at hb
  omega

theorem Holds.pushMsg (hh : Holds s h n) (ho : h.outcome = none) (p : Payload) :
    Holds (s.pushMsg p) (h.push p) n := by
  obtain ⟨hle, htake⟩ := StreamImpl.settled_grow hh.inbound hh.within (Mailbox.results_prefix_push p)
  have hin : (s.pushMsg p).inbound = queueOf causeError (h.push p) := by
    show s.inbound.push p = _
    rw [hh.inbound]
    exact push_queueOf p
  have hout : (h.push p).outcome = h.outcome := Mailbox.push_outcome p
  refine ⟨hh.id, hin, ?_, hh.resumed, ?_, ?_, hh.outbound, ?_, ?_⟩
  · rw [hout]
    exact hh.finished
  · rw [hin]
    exact hle
  · rw [hin]
    show s.bufferedBytes + p.length + (((queueOf causeError (h.push p)).settled.take s.resumed).map
      PullResult.size).sum = _
    rw [htake, Mailbox.push_of_none p ho]
    show _ = bytes (h.accepted ++ [p])
    rw [bytes_append, bytes_cons, bytes_nil, ← hh.buffer]
    ring
  · rw [hout]
    exact hh.settledOnce
  · rw [hout]
    exact hh.headers

theorem Holds.recv (hh : Holds s h n) : Holds s.recv h.pull n := by
  obtain ⟨hle, htake⟩ := StreamImpl.settled_grow hh.inbound hh.within Mailbox.results_prefix_pull
  have hin : s.recv.inbound = queueOf causeError h.pull := by
    show s.inbound.pull = _
    rw [hh.inbound]
    exact pull_queueOf
  refine ⟨hh.id, hin, hh.finished, hh.resumed, ?_, ?_, hh.outbound, hh.settledOnce, hh.headers⟩
  · rw [hin]
    exact hle
  · rw [hin]
    show s.bufferedBytes + (((queueOf causeError h.pull).settled.take s.resumed).map _).sum = _
    rw [htake]
    exact hh.buffer

/-- The ways to end: all latches are set, and the queue ends with the cause. -/
theorem Holds.finish (hh : Holds s h n) {s' : StreamImpl} {c : Cause} (ho : h.outcome = none)
    (hid : s'.id = s.id) (hin : s'.inbound = queueOf causeError (h.finish c))
    (hfin : s'.finished = true) (hres : s'.resumed = s.resumed)
    (hbuf : s'.bufferedBytes = s.bufferedBytes) (hout : s'.outbound = s.outbound)
    (hset : s'.headersSettled = true) (hhead : s'.headers = c.trailers) :
    Holds s' (h.finish c) n := by
  obtain ⟨hle, htake⟩ := StreamImpl.settled_grow hh.inbound hh.within
    (Mailbox.results_prefix_finish c)
  have hsome : (h.finish c).outcome = some c := (Mailbox.finish_of_none c ho).1
  refine ⟨hid.trans hh.id, hin, ?_, hres.trans hh.resumed, ?_, ?_, hout.trans hh.outbound, ?_, ?_⟩
  · rw [hfin, hsome]
    rfl
  · rw [hres, hin]
    exact hle
  · rw [hres, hbuf, hin, htake]
    exact hh.buffer
  · rw [hset, hsome]
    rfl
  · rw [hhead, hsome]
    rfl

/-- The headers of an open stream are open. -/
theorem Holds.headers_open (hh : Holds s h n) (ho : h.outcome = none) :
    s.headersSettled = false ∧ s.finished = false ∧ s.headers = ∅ := by
  refine ⟨?_, ?_, ?_⟩
  · rw [hh.settledOnce, ho]
    rfl
  · rw [hh.finished, ho]
    rfl
  · rw [hh.headers, ho]
    rfl

/-- An END with status OK. -/
theorem Holds.endOk (hh : Holds s h n) (ho : h.outcome = none) {f : Frame}
    (hc : causeError (.frame f) = none) :
    Holds (s.endOk (f.headers.getD ∅)) (h.finish (.frame f)) n := by
  obtain ⟨hopen, hfin, -⟩ := hh.headers_open ho
  have hopen' : ({ s with finished := true } : StreamImpl).headersSettled = false := hopen
  simp only [StreamImpl.endOk, hfin, StreamImpl.resolveHeaders_open hopen']
  refine hh.finish ho rfl ?_ rfl rfl rfl rfl rfl rfl
  show s.inbound.endQueue = _
  rw [hh.inbound]
  exact endQueue_queueOf ho hc

/-- Another END, and RST. -/
theorem Holds.endError (hh : Holds s h n) (ho : h.outcome = none) {f : Frame} {e : WsStatusError}
    (hc : causeError (.frame f) = some e) :
    Holds (s.endError e (f.headers.getD ∅)) (h.finish (.frame f)) n := by
  obtain ⟨hopen, hfin, -⟩ := hh.headers_open ho
  have hopen' : ({ s with finished := true } : StreamImpl).headersSettled = false := hopen
  simp only [StreamImpl.endError, hfin, StreamImpl.resolveHeaders_open hopen']
  refine hh.finish ho rfl ?_ rfl rfl rfl rfl rfl rfl
  show s.inbound.fail e = _
  rw [hh.inbound]
  exact fail_queueOf ho hc

/-- The overflow of the receive buffer. -/
theorem Holds.overflow (hh : Holds s h n) (ho : h.outcome = none) :
    Holds (s.stop.settle (some receiveOverflow)) (h.finish .overflow) n := by
  obtain ⟨hopen, -, hhead⟩ := hh.headers_open ho
  have hopen' : s.stop.headersSettled = false := hopen
  simp only [StreamImpl.settle, StreamImpl.resolveHeaders_open hopen']
  refine hh.finish ho rfl ?_ rfl rfl rfl rfl rfl hhead
  show s.inbound.fail receiveOverflow = _
  rw [hh.inbound]
  exact fail_queueOf ho rfl

end Stream

/-! ## The mux -/

/-- The registry of a stream that has ended. -/
theorem Reads.find_none (hm : Reads limit m h n) (ho : h.outcome.isSome) : m.find 1 = none := by
  rw [Mux.find, hm.registered, if_pos ho]
  rfl

/-- The stream leaves the registry in its final state. -/
theorem Reads.leave (hm : Reads limit m h n) (ho : h.outcome = none) {s' : StreamImpl} {c : Cause}
    (hs' : Holds s' (h.finish c) n) :
    Reads limit ((m.delete 1).setObj 0 s') (h.finish c) n := by
  obtain ⟨s, hs, -⟩ := hm.stream
  have hlt : 0 < m.objs.length := (List.getElem?_eq_some_iff.1 hs).1
  refine ⟨hm.opened, hm.live, hm.limit, ?_, s', ?_, hs'⟩
  · rw [(Mailbox.finish_of_none c ho).1]
    exact AList.lookup_erase 1 m.streams
  · simp [Mux.setObj, Mux.delete, hlt]

/-- A stream that has ended: the frame is ignored. -/
theorem Reads.route_finished (hm : Reads limit m h n) (ho : h.outcome.isSome) {f : Frame}
    (hf : Addressed f) : Reads limit (m.route size f).1 h n := by
  have hfind : m.find f.streamId = none := by rw [hf.1]; exact hm.find_none ho
  have hdel : Reads limit (m.delete f.streamId) h n := by
    refine ⟨hm.opened, hm.live, hm.limit, ?_, hm.stream⟩
    rw [hf.1, if_pos ho]
    exact AList.lookup_erase 1 m.streams
  have hkind := hf.2
  unfold Mux.route
  cases hk : f.kind with
  | kindHeader => simpa only [hfind] using hm
  | kindWindowUpdate => simpa only [hfind] using hm
  | kindMsg => simpa only [hfind] using hm
  | kindEnd => simpa only [Mux.endWith, hfind] using hdel
  | kindRst => simpa only [Mux.endWith, hfind] using hdel
  | _ =>
      rw [hk] at hkind
      cases hkind

/-- There is nothing to pump. -/
theorem Reads.pump (hm : Reads limit m h n) : m.pump size 0 = (m, none) := by
  obtain ⟨s, hs, hh⟩ := hm.stream
  simp only [Mux.pump, hs, hh.outbound, List.length_nil, Mux.pumpTurns]

/-- The reset of a stream whose receive buffer overflows. -/
theorem Reads.abort_overflow (size : Frame → ℕ) (hm : Reads limit m h n) (ho : h.outcome = none)
    {s : StreamImpl} (hs : m.objs[0]? = some s) (hh : Holds s h n) :
    ∃ m', m.abort size 0 (some receiveOverflow) = (m', none) ∧
      Reads limit (m'.delete 1) (h.finish .overflow) n := by
  have hlt : 0 < m.objs.length := (List.getElem?_eq_some_iff.1 hs).1
  have hfin : ¬ s.finished = true := by simp [(hh.headers_open ho).2.1]
  have hw := @Mux.writeFrame_opened size (m.setObj 0 s.stop) hm.opened hm.live s.rstFrame
  simp only [Mux.abort, hs, if_neg hfin, hw]
  refine ⟨_, rfl, hm.opened, hm.live, hm.limit, ?_, s.stop.settle (some receiveOverflow), ?_,
    hh.overflow ho⟩
  · rw [(Mailbox.finish_of_none _ ho).1]
    exact AList.lookup_erase 1 _
  · simp [Mux.setObj, Mux.delete, hlt]

/-- An open stream. -/
theorem Rests.route_open (hm : Rests limit m h) (ho : h.outcome = none) {f : Frame}
    (hf : Addressed f) :
    Reads limit (m.route size f).1 (Inbox.step limit h (.frame f)) h.results.length := by
  obtain ⟨s, hs, hh⟩ := hm.stream
  have hfind : m.find 1 = some (0, s) := by
    rw [Mux.find, hm.registered, ho]
    simp [hs]
  have hkind := hf.2
  cases hk : f.kind with
  | kindHeader =>
      simp only [Mux.route, Inbox.step, hk, hf.1, hfind]
      exact hm.setStream { hh with } rfl
  | kindWindowUpdate =>
      simp only [Mux.route, Inbox.step, hk, hf.1, hfind, Mux.creditSend, hs]
      split
      · exact hm
      · have hset : Reads limit
            (m.setObj 0 { s with sendWindow := s.sendWindow + f.window.toNat }) h h.results.length :=
          hm.setStream { hh with } rfl
        rw [hset.pump]
        exact hset
  | kindMsg =>
      simp only [Mux.route, Inbox.step, hk, hf.1, hfind, hm.limit, hh.bufferedBytes]
      by_cases hover : limit < bytes h.buffered
      · obtain ⟨m', habort, hm'⟩ := hm.abort_overflow size ho hs hh
        rw [if_pos hover, if_pos hover, habort]
        exact hm'
      · rw [if_neg hover, if_neg hover]
        exact hm.setStream (hh.pushMsg ho f.payload) (Mailbox.push_outcome _)
  | kindEnd =>
      have hc : causeError (.frame f) = statusErrorFromProto f.status := by
        rw [causeError, if_pos hk]
      simp only [Mux.route, Inbox.step, hk, Mux.endWith, hf.1, hfind]
      cases hst : statusErrorFromProto f.status with
      | none => exact hm.leave ho (hh.endOk ho (hc.trans hst))
      | some e => exact hm.leave ho (hh.endError ho (hc.trans hst))
  | kindRst =>
      have hc : causeError (.frame f) = some (resetError f) := by
        rw [causeError, if_neg (by rw [hk]; decide)]
      simp only [Mux.route, Inbox.step, hk, Mux.endWith, hf.1, hfind]
      exact hm.leave ho (hh.endError ho hc)
  | _ =>
      rw [hk] at hkind
      cases hkind

/-! ## Events -/

/-- **An event is a step of the mailbox**, up to the microtasks. -/
theorem Rests.begin (size : Frame → ℕ) (hm : Rests limit m h) (e : Event)
    (he : ∀ f, e = .frame f → Addressed f) :
    Reads limit (m.begin size e) (Inbox.step limit h e) h.results.length := by
  cases e with
  | frame f =>
      cases ho : h.outcome with
      | none => exact hm.route_open ho (he f rfl)
      | some c =>
          have hsome : h.outcome.isSome := by rw [ho]; rfl
          rw [Inbox.step_of_finished hsome]
          exact Reads.route_finished hm hsome (he f rfl)
  | recv =>
      obtain ⟨s, hs, hh⟩ := hm.stream
      refine ⟨hm.opened, hm.live, hm.limit, hm.registered, s.recv, ?_, hh.recv⟩
      simp [Mux.begin, Mux.recv, hs]

theorem rests_start (size : Frame → ℕ) (method : Text) (headers : Headers)
    (initialWindow maxSendBuffer : ℤ) :
    Rests (positiveOr initialWindow defaultInitialWindow)
      (Mux.startOne size method headers initialWindow maxSendBuffer) {} := by
  simp only [Mux.startOne, Mux.new, if_true]
  exact ⟨rfl, rfl, rfl, AList.lookup_insert _, _, rfl, rfl, rfl, rfl, rfl, le_rfl, rfl, rfl, rfl,
    rfl⟩

/-- **One event, with its microtasks**: nothing is left due, and the calls have resumed with
what the event adds to the results of the mailbox. -/
theorem Rests.onEvent (size : Frame → ℕ) (hm : Rests limit m h) (e : Event)
    (he : ∀ f, e = .frame f → Addressed f) :
    Rests limit (m.onEvent size e) (Inbox.step limit h e) ∧
      h.results.map (toPull causeError) ++ (m.resumedBy size e).map Prod.fst =
        (Inbox.step limit h e).results.map (toPull causeError) := by
  have hb := hm.begin size e he
  obtain ⟨s, hs, hh⟩ := hb.stream
  have hpre := (Inbox.results_prefix_step limit h e).map (toPull causeError)
  have hle := (Inbox.results_prefix_step limit h e).length_le
  obtain ⟨hrest, hwith⟩ := hb.resumeTurns size
    ((Inbox.step limit h e).results.length - h.results.length) (by omega)
  have hdue : s.inbound.settled.length - s.resumed =
      (Inbox.step limit h e).results.length - h.results.length := by
    rw [hh.length_settled, hh.resumed]
  constructor
  · simp only [Mux.onEvent, Mux.resumeAll, hs, hdue]
    exact hrest
  · simp only [Mux.resumedBy, hs, hdue, hwith]
    simpa using List.prefix_iff_eq_append.1 hpre

variable (size) in
/-- **A run of events is a run of the mailbox**, and the calls resume with its results. -/
theorem Rests.run (evs : List Event) (hevs : ∀ f, Event.frame f ∈ evs → Addressed f) :
    ∀ {m : Mux} {h : Mailbox Payload Cause}, Rests limit m h →
      Rests limit (evs.foldl (Mux.onEvent size) m) (evs.foldl (Inbox.step limit) h) ∧
        h.results.map (toPull causeError) ++ (m.received size evs).map Prod.fst =
          (evs.foldl (Inbox.step limit) h).results.map (toPull causeError) := by
  induction evs with
  | nil =>
      intro m h hm
      exact ⟨hm, List.append_nil _⟩
  | cons e evs ih =>
      intro m h hm
      have he : ∀ f, e = .frame f → Addressed f := by
        rintro f rfl
        exact hevs f List.mem_cons_self
      obtain ⟨hm', hnow⟩ := hm.onEvent size e he
      obtain ⟨hend, hlater⟩ := ih (fun f hf => hevs f (List.mem_cons_of_mem _ hf)) hm'
      refine ⟨hend, ?_⟩
      rw [List.foldl_cons, ← hlater, ← hnow, Mux.received, List.map_append, List.append_assoc]

end WsProto.Ts
