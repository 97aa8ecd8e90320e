import WsProto.Go.Inbound.Model

/-!
# The inbound half of a Go stream: a clean end means the whole input

`RecvRawContext` prefers buffered messages to any sign of the end, so that
`io.EOF` should mean that nothing is missing.

* `eof_of_kept` — it does, in every run in which no message of the open input
  meets a done context, and no local OK is recorded over a refused message; the
  unary handlers, which read `io.EOF` as an empty request, then run on what the
  client sent;
* `eof_after_lost_message` — it does not when the deadline fires before the
  message and the HALF_CLOSE arrive, nor when a handler returns OK after an
  overflow.
-/

namespace WsProto.Go.Inbound

open Machine

variable {x x' : Inbound}

/-! ## What the receiver has been offered -/

/-- The payloads among some results. -/
def payloads (l : List (Except GoError Payload)) : List Payload := l.filterMap Except.toOption

@[simp] theorem payloads_nil : payloads [] = [] := rfl

@[simp] theorem payloads_append_ok (l : List (Except GoError Payload)) (b : Payload) :
    payloads (l ++ [.ok b]) = payloads l ++ [b] := by
  simp [payloads, Except.toOption]

@[simp] theorem payloads_append_error (l : List (Except GoError Payload)) (e : GoError) :
    payloads (l ++ [.error e]) = payloads l := by
  simp [payloads, Except.toOption]

/-- The message the receiver holds. -/
def inHand : RecvPc → List Payload
  | .deliver f => [f.payload]
  | _ => []

/-- Everything given to the receiver, held by it, or waiting for it. -/
def offered (x : Inbound) : List Payload :=
  payloads x.results ++ inHand x.recv ++ x.stream.recvItems.map (·.payload)

/-- The receiver is inside `recvEnded`. -/
def inEnded : RecvPc → Bool
  | .endedPop | .endedFrame | .endedStatus | .record _ | .cancel _ => true
  | _ => false

/-- The receiver has found the backlog empty after `ended` was closed. -/
def drained : RecvPc → Bool
  | .endedFrame | .endedStatus | .record _ | .cancel _ => true
  | _ => false

theorem inEnded_of_drained {pc : RecvPc} (h : drained pc = true) : inEnded pc = true := by
  cases pc <;> simp_all [drained, inEnded]

/-- The read loop will route nothing more to the stream. -/
def Quiet (x : Inbound) : Prop :=
  x.registered = false ∨ x.loop = .remove ∨ ∃ pc, x.loop = .over pc

/-- The read loop is in a `failWith` that has recorded its status. -/
def loopRecorded : LoopPc → Bool
  | .over pc | .lost _ pc => decide (pc ≠ .record)
  | _ => false

/-- The local end is in a `failWith` that has recorded its status. -/
def enderRecorded : EndPc → Bool
  | .fail _ pc => decide (pc ≠ .record)
  | _ => false

/-- The read loop is between two frames of this stream. -/
def attentive : LoopPc → Bool
  | .read | .signal => true
  | _ => false

/-! ## The invariant -/

/-- Who has recorded what about the end of the stream. -/
structure Ends (x : Inbound) : Prop where
  loop : loopRecorded x.loop = true → x.stream.endSt ≠ none
  ender : enderRecorded x.ender = true → x.stream.endSt ≠ none
  close : x.loop = .close → x.stream.endFrame ≠ none
  noFrame : x.stream.ended = false → x.loop ≠ .close → x.stream.endFrame = none
  ended : x.stream.ended = true → x.stream.endFrame ≠ none ∨ x.stream.endSt ≠ none
  /-- OK is recorded only by the local end and, for a frame, by the receiver. -/
  okSt : ∀ st, x.stream.endSt = some st → st.code = Code.ok →
    x.stream.endFrame ≠ none ∨ x.ender.okRecorded = true
  /-- While frames are routed, only the local end closes `ended`. -/
  closer : x.stream.ended = true → x.registered = true → attentive x.loop = true →
    x.ender.recorded ≠ none
  /-- A refused message leaves its stream with a failure. -/
  refused : x.refused = true → x.stream.halfClosed = false ∧ x.stream.endFrame = none ∧
    (∀ st, x.stream.endSt = some st → st.code ≠ Code.ok) ∧ x.Quiet
  inEnded : inEnded x.recv = true → x.stream.ended = true
  frame : ∀ f, x.recv = .record f ∨ x.recv = .cancel f → x.stream.endFrame = some f
  half : x.recv = .halfPop → x.stream.halfClosed = true

/-- What ended the stream leaves its input closed: not a local end with an error. -/
def Settled (x : Inbound) : Prop := x.stream.endFrame ≠ none ∨ ∀ st ∈ x.ender.recorded,
  st.code = Code.ok

/-- Where the input is. -/
structure Feeds (x : Inbound) : Prop where
  sub : x.refused = false → x.input <+: x.offered
  all : x.refused = false → x.inputOpen = true → x.input = x.offered
  refused : x.refused = true → x.offered <+: x.input
  drained : drained x.recv = true → x.refused = false → x.Settled →
    x.input <+: payloads x.results
  eof : ∀ l r, x.results = l ++ .error .eof :: r →
    x.inputOpen = false ∧ x.refused = false ∧ x.input <+: payloads l

/-- The local end is about to record OK. -/
def recordsOk : EndPc → Bool
  | .fail st .record => decide (st.code = Code.ok)
  | _ => false

/-- The condition on a step: a message of the open input finds the context live,
and the local end does not record OK after a message was refused. -/
def Kept (x : Inbound) : InboundAct → Prop
  | .route f => x.registered = true → x.inputOpen = true → routesAsMsg f.kind = true →
      x.stream.ctxErr = none
  | .ender => x.refused = true → recordsOk x.ender = false
  | _ => True

instance (x : Inbound) : (a : InboundAct) → Decidable (Kept x a)
  | .route _ => inferInstanceAs (Decidable (_ → _))
  | .ender => inferInstanceAs (Decidable (_ → _))
  | .loop | .connLost _ | .callEnd _ | .expire _ | .recvRawContext _ | .callerDone _ | .recv
  | .select _ => inferInstanceAs (Decidable True)

theorem ends_start (server : Bool) (ctxErr : Option CtxErr) (id : UInt32) (method : Text) (W : ℤ) :
    Ends (start server ctxErr id method W) := by
  constructor <;> simp [start, newStream, Inbound.inEnded, loopRecorded, enderRecorded]

theorem feeds_start (server : Bool) (ctxErr : Option CtxErr) (id : UInt32) (method : Text) (W : ℤ) :
    Feeds (start server ctxErr id method W) := by
  constructor <;> simp [start, newStream, offered, inHand, Inbound.drained]

/-! ## Steps that leave the messages alone -/

/-- A step of another party that neither adds nor takes a message, and does not
reopen the input. -/
theorem Feeds.of_eq (hi : Feeds x) (hitems : x'.stream.recvItems = x.stream.recvItems)
    (hrecv : x'.recv = x.recv) (hres : x'.results = x.results) (hin : x'.input = x.input)
    (href : x'.refused = x.refused) (hopen : x'.inputOpen = true → x.inputOpen = true)
    (hset : Inbound.drained x.recv = true → x'.Settled → x.Settled) : Feeds x' := by
  have hoff : x'.offered = x.offered := by simp only [offered, hitems, hrecv, hres]
  refine ⟨?_, ?_, ?_, ?_, ?_⟩
  · rw [href, hin, hoff]; exact hi.sub
  · rw [href, hin, hoff]; intro hr ho; exact hi.all hr (hopen ho)
  · rw [href, hin, hoff]; exact hi.refused
  · rw [href, hrecv, hin, hres]; intro hd hr hs; exact hi.drained hd hr (hset hd hs)
  · rw [hres, href, hin]
    intro l r hl
    obtain ⟨ho, hr, hp⟩ := hi.eof l r hl
    refine ⟨?_, hr, hp⟩
    by_contra hne
    simp [hopen (by simpa using hne)] at ho

/-- What a piece of `failWith` is. -/
theorem failStep_cases {busy : Bool} {err : GoError} {s : Stream} {pc : FailPc}
    {y : Stream × Option FailPc} (h : pc.step busy err s = some y) :
    (pc = .record ∧ y = (s.setEndSt (fromError (some err)), some .close)) ∨
    (pc = .close ∧ busy = false ∧ y = (s.closeEnded, some .cancel)) ∨
    (pc = .cancel ∧ y = (s.cancel, none)) := by
  cases pc with
  | record => left; simpa [FailPc.step] using h.symm
  | close =>
      right; left
      cases busy
      · exact ⟨rfl, rfl, by simpa [FailPc.step] using h.symm⟩
      · simp [FailPc.step] at h
  | cancel => right; right; simpa [FailPc.step] using h.symm

/-- What a piece of `failWith` does to the backlog and to the input. -/
theorem failStep_view {busy : Bool} {err : GoError} {s : Stream} {pc : FailPc}
    {y : Stream × Option FailPc} (h : pc.step busy err s = some y) :
    y.1.recvItems = s.recvItems ∧ y.1.halfClosed = s.halfClosed ∧ y.1.endFrame = s.endFrame := by
  obtain ⟨rfl, rfl⟩ | ⟨rfl, -, rfl⟩ | ⟨rfl, rfl⟩ := failStep_cases h
  · exact ⟨rfl, rfl, rfl⟩
  · exact ⟨rfl, rfl, rfl⟩
  · exact ⟨rfl, rfl, rfl⟩

/-- A piece of a `failWith` of the read loop, which records a failure. -/
theorem ends_failLoop (hi : Ends x) {err : GoError} {st : Status} {pc : FailPc}
    {y : Stream × Option FailPc} (hy : pc.step false err x.stream = some y)
    (hst : fromError (some err) = some st) (hne : st.code ≠ Code.ok)
    (hpc : pc ≠ .record → x.stream.endSt ≠ none) {l : LoopPc} {reg : Bool}
    (hx : x.loop ≠ .close) (hl : l ≠ .close) (hnext : attentive l = false)
    (hq : x.refused = true → Quiet { x with loop := l, registered := reg }) :
    Ends { x with stream := y.1, loop := l, registered := reg } := by
  have hclose : l = .close → y.1.endFrame ≠ none := fun h => absurd h hl
  have hno : x.stream.ended = false → l ≠ .close → x.stream.endFrame = none :=
    fun h _ => hi.noFrame h hx
  have hclo : ∀ {b : Bool}, b = true → reg = true → attentive l = true → x.ender.recorded ≠ none :=
    fun _ _ h => by simp [hnext] at h
  obtain ⟨rfl, rfl⟩ | ⟨rfl, -, rfl⟩ | ⟨rfl, rfl⟩ := failStep_cases hy
  · have hsome : fromError (some err) ≠ none := by simp [hst]
    refine { hi with
      loop := fun _ => hsome, ender := fun _ => hsome, close := hclose, noFrame := hno
      ended := fun _ => Or.inr hsome, okSt := ?_, closer := hclo, refused := ?_ }
    · intro st' hst' hok
      rw [show st' = st from Option.some.inj (hst'.symm.trans hst)] at hok
      exact absurd hok hne
    · intro hr
      obtain ⟨h1, h2, -, -⟩ := hi.refused hr
      refine ⟨h1, h2, ?_, hq hr⟩
      intro st' hst'
      rwa [show st' = st from Option.some.inj (hst'.symm.trans hst)]
  · have hsome := hpc (by simp)
    refine { hi with
      loop := fun _ => hsome, close := hclose, noFrame := fun h => by cases h
      ended := fun _ => Or.inr hsome, closer := hclo, refused := ?_, inEnded := fun _ => rfl }
    intro hr
    obtain ⟨h1, h2, h3, -⟩ := hi.refused hr
    exact ⟨h1, h2, h3, hq hr⟩
  · refine { hi with
      loop := fun _ => hpc (by simp), close := hclose, noFrame := hno, closer := hclo
      refused := ?_ }
    intro hr
    obtain ⟨h1, h2, h3, -⟩ := hi.refused hr
    exact ⟨h1, h2, h3, hq hr⟩

theorem fromError_overflowErr : ∃ st, fromError (some overflowErr) = some st ∧ st.code ≠ Code.ok :=
  ⟨_, rfl, by decide⟩

theorem fromError_connLostErr (closed : Bool) :
    ∃ st, fromError (some (connLostErr closed)) = some st ∧ st.code ≠ Code.ok := by
  cases closed
  · exact ⟨_, rfl, by decide⟩
  · exact ⟨_, rfl, by decide⟩

theorem ends_loop (hi : Ends x) (h : x.loopStep = some x') : Ends x' := by
  unfold loopStep at h
  split at h
  · cases h
  · cases h
  · rename_i hl
    cases h
    refine { hi with
      loop := by simp [loopRecorded], close := by simp
      noFrame := fun h _ => hi.noFrame h (by simp [hl])
      closer := fun h hr _ => hi.closer h hr (by simp [hl, attentive]), refused := ?_ }
    intro hr
    obtain ⟨h1, h2, h3, h4⟩ := hi.refused hr
    refine ⟨h1, h2, h3, ?_⟩
    simpa [Quiet, hl] using h4
  · rename_i hl
    cases h
    refine { hi with
      loop := by simp [loopRecorded], close := by simp, noFrame := fun h => by cases h
      ended := ?_, closer := by simp [attentive], refused := ?_, inEnded := ?_ }
    · intro _; exact Or.inl (hi.close hl)
    · intro hr
      exact absurd (hi.refused hr).2.1 (hi.close hl)
    · intro _; rfl
  · rename_i hl
    cases h
    refine { hi with
      loop := by simp [loopRecorded], close := by simp
      noFrame := fun h _ => hi.noFrame h (by simp [hl]), closer := by simp, refused := ?_ }
    intro hr
    obtain ⟨h1, h2, h3, -⟩ := hi.refused hr
    exact ⟨h1, h2, h3, Or.inl rfl⟩
  · rename_i pc hl
    obtain ⟨y, hy, rfl⟩ := Option.map_eq_some_iff.1 h
    obtain ⟨st, hst, hne⟩ := fromError_overflowErr
    have hpc : pc ≠ .record → x.stream.endSt ≠ none := by
      intro hpc; exact hi.loop (by simp [loopRecorded, hl, hpc])
    split
    · exact ends_failLoop hi hy hst hne hpc (by simp [hl]) (by simp) rfl
        fun _ => Or.inr (Or.inr ⟨_, rfl⟩)
    · exact ends_failLoop hi hy hst hne hpc (by simp [hl]) (by simp) rfl
        fun _ => Or.inr (Or.inl rfl)
  · rename_i closed pc hl
    obtain ⟨y, hy, rfl⟩ := Option.map_eq_some_iff.1 h
    obtain ⟨st, hst, hne⟩ := fromError_connLostErr closed
    have hpc : pc ≠ .record → x.stream.endSt ≠ none := by
      intro hpc; exact hi.loop (by simp [loopRecorded, hl, hpc])
    split
    · refine ends_failLoop hi hy hst hne hpc (by simp [hl]) (by simp) rfl fun hr => ?_
      simpa [Quiet, hl] using (hi.refused hr).2.2.2
    · exact ends_failLoop hi hy hst hne hpc (by simp [hl]) (by simp) rfl fun _ => Or.inl rfl

theorem ends_ender (hi : Ends x) (hk : Kept x .ender) (h : x.enderStep = some x') : Ends x' := by
  unfold enderStep at h
  split at h
  · cases h
  · cases h
  · rename_i st pc he
    obtain ⟨y, hy, rfl⟩ := Option.map_eq_some_iff.1 h
    have hpc : pc ≠ .record → x.stream.endSt ≠ none := by
      intro hpc; exact hi.ender (by simp [enderRecorded, he, hpc])
    obtain ⟨rfl, rfl⟩ | ⟨rfl, -, rfl⟩ | ⟨rfl, rfl⟩ := failStep_cases hy
    · refine { hi with
        loop := by simp [fromError, Stream.setEndSt], ender := by simp [fromError, Stream.setEndSt]
        ended := by simp [fromError, Stream.setEndSt], okSt := ?_
        closer := by simp [EndPc.recorded], refused := ?_ }
      · intro st' hst' hok
        obtain rfl : st = st' := by simpa [fromError, Stream.setEndSt] using hst'
        exact Or.inr (by simp [EndPc.okRecorded, EndPc.recorded, hok])
      · intro hr
        obtain ⟨h1, h2, -, h4⟩ := hi.refused hr
        refine ⟨h1, h2, ?_, h4⟩
        intro st' hst'
        obtain rfl : st = st' := by simpa [fromError, Stream.setEndSt] using hst'
        simpa [recordsOk, he] using hk hr
    · have hsome := hpc (by simp)
      refine { hi with
        ender := fun _ => hsome, noFrame := fun h => by cases h
        ended := fun _ => Or.inr hsome, okSt := ?_, closer := by simp [EndPc.recorded]
        inEnded := fun _ => rfl }
      intro st' hst' hok
      simpa [EndPc.okRecorded, EndPc.recorded, he, Stream.closeEnded] using hi.okSt st' hst' hok
    · refine { hi with
        ender := by simp [enderRecorded], okSt := ?_, closer := by simp [EndPc.recorded] }
      intro st' hst' hok
      simpa [EndPc.okRecorded, EndPc.recorded, he, Stream.cancel] using hi.okSt st' hst' hok
  · rename_i he
    cases h
    refine { hi with
      ender := by simp [enderRecorded], okSt := ?_, closer := by simp, refused := ?_ }
    · intro st' hst' hok
      simpa [EndPc.okRecorded, EndPc.recorded, he] using hi.okSt st' hst' hok
    · intro hr
      obtain ⟨h1, h2, h3, -⟩ := hi.refused hr
      exact ⟨h1, h2, h3, Or.inl rfl⟩

/-! ## Routing -/

theorem deliver_dropped {s : Stream} {f : Frame} (h : s.deliver f = .dropped) :
    s.ctxErr ≠ none := by
  unfold Stream.deliver at h
  split at h
  · rename_i hc; exact Option.isSome_iff_ne_none.1 hc
  · split at h <;> cases h

theorem deliver_queued {s s' : Stream} {f : Frame} (h : s.deliver f = .queued s') :
    s' = { s with recvItems := s.recvItems ++ [f], recvBytes := s.recvBytes + f.payload.length } := by
  unfold Stream.deliver at h
  split at h
  · cases h
  · split at h
    · cases h
    · exact (Stream.Delivery.queued.inj h).symm

/-- While the read loop reads frames for a registered stream, nothing was
refused. -/
theorem Ends.not_refused (hi : Ends x) (hl : x.loop = .read) (hreg : x.registered = true) :
    x.refused = false := by
  by_contra hr
  have hq := (hi.refused (by simpa using hr)).2.2.2
  simp [Quiet, hl, hreg] at hq

theorem inputOpen_iff : x.inputOpen = true ↔
    x.stream.halfClosed = false ∧ x.stream.endFrame = none ∧ x.ender.okRecorded = false := by
  simp [inputOpen, and_assoc]

theorem ends_routeMsg (hi : Ends x) (hl : x.loop = .read) (hreg : x.registered = true)
    (f : Frame) : Ends (x.routeMsg f) := by
  have hr := hi.not_refused hl hreg
  have hno : x.stream.ended = false → x.stream.endFrame = none :=
    fun h => hi.noFrame h (by simp [hl])
  unfold routeMsg
  split
  · exact { hi with }
  · refine { hi with
      loop := by simp [loopRecorded], close := by simp, noFrame := fun h _ => hno h
      closer := by simp [attentive], refused := ?_ }
    -- refused now, so the input was open
    intro ho
    obtain ⟨hh, he, hok⟩ := inputOpen_iff.1 (by simpa [hr] using ho)
    refine ⟨hh, he, ?_, Or.inr (Or.inr ⟨_, rfl⟩)⟩
    intro st hst hc
    simpa [he, hok] using hi.okSt st hst hc
  · rename_i s hs
    obtain rfl := deliver_queued hs
    refine { hi with
      loop := by simp [loopRecorded], close := by simp, noFrame := fun h _ => hno h
      closer := fun h hreg _ => hi.closer h hreg (by simp [hl, attentive]), refused := ?_ }
    intro h; simp [hr] at h

theorem ends_route (hi : Ends x) (hl : x.loop = .read) (f : Frame) : Ends (x.route f) := by
  unfold route
  split
  · rename_i hreg
    have hr := hi.not_refused hl hreg
    have hterm : Ends (if x.stream.ended then { x with loop := .remove }
        else { x with stream := { x.stream with endFrame := some f }, loop := .close }) := by
      split
      · rename_i he
        refine { hi with
          loop := by simp [loopRecorded], close := by simp, noFrame := fun h => by simp [he] at h
          closer := by simp [attentive], refused := ?_ }
        intro h; simp [hr] at h
      · rename_i he
        refine { hi with
          loop := by simp [loopRecorded], close := by simp, noFrame := fun _ h => absurd rfl h
          ended := fun h => absurd h he, okSt := by simp, closer := by simp [attentive]
          refused := ?_, frame := ?_ }
        · intro h; simp [hr] at h
        · -- a receiver inside `applyEnd` has seen `ended` closed
          intro g (hg : x.recv = .record g ∨ x.recv = .cancel g)
          have : inEnded x.recv = true := by rcases hg with hg | hg <;> simp [hg, Inbound.inEnded]
          exact absurd (hi.inEnded this) he
    split
    · exact hi
    · refine { hi with refused := ?_, half := fun _ => rfl }
      intro h; simp [hr] at h
    · split
      · exact hi
      · exact { hi with }
    · unfold Stream.creditSend
      split
      · exact hi
      · exact { hi with }
    · exact hterm
    · exact hterm
    · exact ends_routeMsg hi hl hreg f
  · exact hi

theorem feeds_routeMsg (hi : Ends x) (hf : Feeds x) (hl : x.loop = .read)
    (hreg : x.registered = true) {f : Frame}
    (hctx : x.inputOpen = true → x.stream.ctxErr = none) : Feeds (x.routeMsg f) := by
  have hr := hi.not_refused hl hreg
  by_cases ho : x.inputOpen = true
  · -- the input is open: the message joins it; a receive that has found the backlog empty
    -- after `ended` was closed is about to return the error of the local end
    obtain ⟨-, hframe, hok⟩ := inputOpen_iff.1 ho
    have hnd : drained x.recv = true → x.Settled → False := by
      intro hd hset
      have hrec := hi.closer (hi.inEnded (inEnded_of_drained hd)) hreg (by rw [hl]; rfl)
      obtain ⟨st, hst⟩ := Option.ne_none_iff_exists'.1 hrec
      have hcode := hset.resolve_left (absurd hframe) st hst
      simp [EndPc.okRecorded, hst, hcode] at hok
    have hno : ∀ l r, x.results = l ++ .error .eof :: r → False := by
      intro l r hlr
      have := (hf.eof l r hlr).1
      simp [ho] at this
    have hall := hf.all hr ho
    simp only [routeMsg, noteInput, ho, if_true]
    split
    · rename_i hd
      exact absurd (hctx ho) (deliver_dropped hd)
    · refine ⟨?_, ?_, ?_, fun hd _ hset => (hnd hd hset).elim,
        fun l r hlr => (hno l r hlr).elim⟩
      · intro h; simp at h
      · intro h; simp at h
      · intro _
        show x.offered <+: x.input ++ [f.payload]
        rw [hall]
        exact List.prefix_append _ _
    · rename_i s hs
      obtain rfl := deliver_queued hs
      have hoff : x.input ++ [f.payload] = payloads x.results ++ inHand x.recv ++
          (x.stream.recvItems ++ [f]).map (·.payload) := by
        rw [hall]; simp [offered]
      refine ⟨?_, ?_, ?_, fun hd _ hset => (hnd hd hset).elim,
        fun l r hlr => (hno l r hlr).elim⟩
      · intro _; exact hoff ▸ List.prefix_refl _
      · intro _ _; exact hoff
      · intro h; simp [hr] at h
  · -- the input is complete: the message is not part of it
    have hsub := hf.sub hr
    simp only [routeMsg, noteInput, ho, Bool.or_false]
    split
    · exact hf.of_eq rfl rfl rfl rfl rfl id fun _ => id
    · exact hf.of_eq rfl rfl rfl rfl rfl id fun _ => id
    · rename_i s hs
      obtain rfl := deliver_queued hs
      refine ⟨?_, ?_, ?_, hf.drained, hf.eof⟩
      · intro _
        refine hsub.trans ⟨[f.payload], ?_⟩
        simp [offered]
      · intro _ h; exact absurd h ho
      · intro h; simp [hr] at h

theorem feeds_route (hi : Ends x) (hf : Feeds x) (hl : x.loop = .read) {f : Frame}
    (hk : Kept x (.route f)) : Feeds (x.route f) := by
  unfold route
  split
  · rename_i hreg
    have hterm : Feeds (if x.stream.ended then { x with loop := .remove }
        else { x with stream := { x.stream with endFrame := some f }, loop := .close }) := by
      split
      · exact hf.of_eq rfl rfl rfl rfl rfl id fun _ => id
      · rename_i hend
        refine hf.of_eq rfl rfl rfl rfl rfl (fun h => ?_) fun hd => ?_
        · simp [inputOpen] at h
        · exact absurd (hi.inEnded (inEnded_of_drained hd)) hend
    split
    · exact hf
    · refine hf.of_eq rfl rfl rfl rfl rfl (fun h => ?_) fun _ => id
      simp [inputOpen, Stream.halfClose] at h
    · split
      · exact hf
      · exact hf.of_eq rfl rfl rfl rfl rfl id fun _ => id
    · unfold Stream.creditSend
      split
      · exact hf
      · exact hf.of_eq rfl rfl rfl rfl rfl id fun _ => id
    · exact hterm
    · exact hterm
    · refine feeds_routeMsg hi hf hl hreg fun ho => hk hreg ho ?_
      cases hkind : f.kind <;> simp_all [routesAsMsg]
  · exact hf

/-- A piece of `failWith`, by the read loop or by the local end. -/
theorem Feeds.fail (hf : Feeds x) {busy : Bool} {err : GoError} {pc : FailPc}
    {y : Stream × Option FailPc} (hy : pc.step busy err x.stream = some y) {l : LoopPc}
    {reg : Bool} {e : EndPc} (he : ∀ st ∈ x.ender.recorded, st ∈ e.recorded) :
    Feeds { x with stream := y.1, loop := l, registered := reg, ender := e } := by
  obtain ⟨hitems, hhalf, hframe⟩ := failStep_view hy
  refine hf.of_eq hitems rfl rfl rfl rfl ?_ fun _ => ?_
  · rw [inputOpen_iff, inputOpen_iff]
    rintro ⟨h1, h2, h3⟩
    refine ⟨hhalf ▸ h1, hframe ▸ h2, ?_⟩
    cases hrec : x.ender.recorded with
    | none => simp [EndPc.okRecorded, hrec]
    | some st => simpa [EndPc.okRecorded, hrec, Option.mem_def.1 (he st hrec)] using h3
  · rintro (h | h)
    · exact .inl (hframe ▸ h)
    · exact .inr fun st hst => h st (he st hst)

theorem feeds_loop (hf : Feeds x) (h : x.loopStep = some x') : Feeds x' := by
  unfold loopStep at h
  split at h
  · cases h
  · cases h
  · cases h; exact hf.of_eq rfl rfl rfl rfl rfl id fun _ => id
  · cases h; exact hf.of_eq rfl rfl rfl rfl rfl id fun _ => id
  · cases h; exact hf.of_eq rfl rfl rfl rfl rfl id fun _ => id
  · obtain ⟨y, hy, rfl⟩ := Option.map_eq_some_iff.1 h
    split <;> exact hf.fail hy fun _ => id
  · obtain ⟨y, hy, rfl⟩ := Option.map_eq_some_iff.1 h
    split <;> exact hf.fail hy fun _ => id

theorem feeds_ender (hf : Feeds x) (h : x.enderStep = some x') : Feeds x' := by
  unfold enderStep at h
  split at h
  · cases h
  · cases h
  · rename_i st pc he
    obtain ⟨y, hy, rfl⟩ := Option.map_eq_some_iff.1 h
    split
    · rename_i pc' hpc
      refine hf.fail hy fun st' hst => ?_
      cases pc with
      | record => simp [he, EndPc.recorded] at hst
      | close | cancel =>
          obtain ⟨hc, -⟩ | ⟨-, -, rfl⟩ | ⟨-, rfl⟩ := failStep_cases hy
          · cases hc
          · cases hpc
            simpa [he, EndPc.recorded] using hst
          · cases hpc
    · refine hf.fail hy fun st' hst => ?_
      cases pc <;> simp_all [EndPc.recorded]
  · rename_i he
    cases h
    refine hf.of_eq rfl rfl rfl rfl rfl ?_ fun _ => ?_
    · simp [inputOpen, he, EndPc.okRecorded, EndPc.recorded]
    · simp [Settled, he, EndPc.recorded]

/-! ## The receiver -/

/-- `popRecv` moves the oldest message of the backlog into the receiver's hand. -/
theorem popOr_cases (x o : Inbound) :
    (x.stream.recvItems = [] ∧ x.popOr o = o) ∨
    ∃ f rest, x.stream.recvItems = f :: rest ∧ x.popOr o = { x with
      stream := { x.stream with
        recvItems := rest, recvBytes := x.stream.recvBytes - f.payload.length }
      recv := .deliver f } := by
  unfold popOr Stream.popRecv
  cases hitems : x.stream.recvItems with
  | nil => left; simp
  | cons f rest => right; exact ⟨f, rest, rfl, rfl⟩

/-- The receiver moves on without taking or returning anything. -/
theorem ends_setRecv (hi : Ends x) {pc : RecvPc} (hin : inEnded pc = true → x.stream.ended = true)
    (hframe : ∀ f, pc = .record f ∨ pc = .cancel f → x.stream.endFrame = some f)
    (hhalf : pc = .halfPop → x.stream.halfClosed = true) : Ends { x with recv := pc } :=
  { hi with inEnded := hin, frame := hframe, half := hhalf }

theorem ends_finish (hi : Ends x) (r : Except GoError Payload) : Ends (x.finish r) :=
  { hi with
    inEnded := by simp [finish, Inbound.inEnded]
    frame := by simp [finish]
    half := by simp [finish] }

theorem ends_popOr {o : Inbound} (hi : Ends x) (ho : Ends o) : Ends (x.popOr o) := by
  obtain ⟨-, he⟩ | ⟨f, rest, -, he⟩ := popOr_cases x o
  · rw [he]; exact ho
  · rw [he]
    exact { hi with
      inEnded := by simp [Inbound.inEnded]
      frame := by simp
      half := by simp }

theorem ends_recv (hi : Ends x) (h : x.recvStep = some x') : Ends x' := by
  unfold recvStep at h
  split at h
  · cases h
  · cases h
  · cases h
    exact ends_popOr hi (ends_setRecv hi (by simp [Inbound.inEnded]) (by simp) (by simp))
  · cases h
    exact ends_popOr hi (ends_finish hi _)
  · rename_i hpc
    cases h
    exact ends_popOr hi (ends_setRecv hi (fun _ => hi.inEnded (by simp [hpc, Inbound.inEnded]))
      (by simp) (by simp))
  · rename_i hpc
    have hend := hi.inEnded (by simp [hpc, Inbound.inEnded])
    split at h
    · cases h
      exact ends_setRecv hi (fun _ => hend) (by simp) (by simp)
    · rename_i f hf
      split at h
      · cases h
        refine ends_setRecv hi (fun _ => hend) ?_ (by simp)
        rintro g (hg | hg)
        · cases hg; exact hf
        · cases hg
      · cases h; exact ends_finish hi _
  · cases h; exact ends_finish hi _
  · rename_i f hpc
    cases h
    have hend := hi.inEnded (by simp [hpc, Inbound.inEnded])
    have hframe := hi.frame f (Or.inl hpc)
    refine { hi with
      loop := by simp [Stream.recordEnd], ender := by simp [Stream.recordEnd]
      ended := by simp [Stream.recordEnd], okSt := ?_
      refused := ?_, inEnded := fun _ => hend, frame := ?_, half := by simp }
    · intro _ _ _
      exact Or.inl fun h => by cases hframe.symm.trans h
    · intro hr
      exact absurd (hi.refused hr).2.1 (by simp [hframe])
    · rintro g (hg | hg)
      · cases hg
      · cases hg; exact hframe
  · cases h
    exact ends_finish (x := { x with stream := x.stream.cancel }) { hi with } _
  · cases h
    split
    · rename_i hend
      exact ends_setRecv hi (fun _ => hend) (by simp) (by simp)
    · exact ends_setRecv hi (by simp [Inbound.inEnded]) (by simp) (by simp)
  · cases h
    exact ends_popOr hi (ends_finish hi _)
  · cases h
    obtain ⟨p, hp⟩ := x.stream.returnCredit_fst _
    rw [hp]
    exact ends_finish (x := { x with stream := { x.stream with pendingCredit := p } }) { hi with } _

theorem feeds_setRecv (hf : Feeds x) {pc : RecvPc} (hhand : inHand pc = inHand x.recv)
    (hdr : drained pc = true → x.refused = false → x.Settled → x.input <+: payloads x.results) :
    Feeds { x with recv := pc } := by
  have hoff : offered { x with recv := pc } = x.offered := by simp [offered, hhand]
  exact ⟨hoff ▸ hf.sub, hoff ▸ hf.all, hoff ▸ hf.refused, hdr, hf.eof⟩

theorem feeds_popOr {o : Inbound} (hf : Feeds x) (hhand : inHand x.recv = [])
    (ho : x.stream.recvItems = [] → Feeds o) : Feeds (x.popOr o) := by
  obtain ⟨hitems, he⟩ | ⟨f, rest, hitems, he⟩ := popOr_cases x o
  · rw [he]; exact ho hitems
  · have hoff : (x.popOr o).offered = x.offered := by
      rw [he]; simp [offered, hhand, hitems]; simp [inHand]
    rw [he] at hoff ⊢
    exact ⟨hoff ▸ hf.sub, hoff ▸ hf.all, hoff ▸ hf.refused, by simp [Inbound.drained], hf.eof⟩

/-- An element of a list with one more at the end is the last one or was there
before. -/
theorem append_singleton_eq {α : Type} {l l₁ l₂ : List α} {a b : α}
    (h : l ++ [a] = l₁ ++ b :: l₂) :
    (l = l₁ ∧ a = b) ∨ ∃ l₂', l = l₁ ++ b :: l₂' := by
  rcases List.eq_nil_or_concat l₂ with rfl | ⟨l₂', c, rfl⟩
  · left
    simpa using List.append_inj' h rfl
  · right
    refine ⟨l₂', ?_⟩
    have : l ++ [a] = (l₁ ++ b :: l₂') ++ [c] := by simpa using h
    exact (List.append_inj' this rfl).1

/-- A receive returns an error; for `io.EOF` the input is complete and has been
returned. -/
theorem feeds_error (hf : Feeds x) (hhand : inHand x.recv = []) {e : GoError}
    (he : e = .eof → x.inputOpen = false ∧ x.refused = false ∧ x.input <+: payloads x.results) :
    Feeds (x.finish (.error e)) := by
  have hoff : (x.finish (.error e)).offered = x.offered := by
    simp only [offered, finish, hhand]; simp [inHand]
  refine ⟨hoff ▸ hf.sub, hoff ▸ hf.all, hoff ▸ hf.refused, by simp [finish, Inbound.drained], ?_⟩
  intro l r hlr
  obtain ⟨rfl, hae⟩ | ⟨r', hr'⟩ := append_singleton_eq hlr
  · exact he (Except.error.inj hae)
  · exact hf.eof l r' hr'

theorem feeds_ok (hf : Feeds x) {f : Frame} (hpc : x.recv = .deliver f) :
    Feeds (x.finish (.ok f.payload)) := by
  have hoff : (x.finish (.ok f.payload)).offered = x.offered := by
    simp [offered, finish, hpc, inHand]
  refine ⟨hoff ▸ hf.sub, hoff ▸ hf.all, hoff ▸ hf.refused, by simp [finish, Inbound.drained], ?_⟩
  intro l r hlr
  obtain ⟨-, hae⟩ | ⟨r', hr'⟩ := append_singleton_eq hlr
  · cases hae
  · exact hf.eof l r' hr'

/-- With the backlog empty and nothing in hand, all the input has been returned. -/
theorem Feeds.returned (hf : Feeds x) (hhand : inHand x.recv = [])
    (hitems : x.stream.recvItems = []) (hr : x.refused = false) :
    x.input <+: payloads x.results := by
  simpa [offered, hhand, hitems] using hf.sub hr

theorem inputOpen_of_endFrame (h : x.stream.endFrame ≠ none) : x.inputOpen = false := by
  by_contra hne
  exact h (inputOpen_iff.1 (by simpa using hne)).2.1

theorem statusError_eq_eof {st : Option Status} (h : statusError st = .eof) :
    st = none ∨ ∃ t, st = some t ∧ t.code = Code.ok := by
  unfold statusError at h
  split at h
  · rename_i t
    split at h
    · cases h
    · rename_i hc; exact Or.inr ⟨t, rfl, by simpa using hc⟩
  · exact Or.inl rfl

theorem feeds_recv (hi : Ends x) (hf : Feeds x) (h : x.recvStep = some x') : Feeds x' := by
  unfold recvStep at h
  split at h
  · cases h
  · cases h
  · rename_i hpc
    cases h
    exact feeds_popOr hf (by simp [hpc, inHand]) fun _ =>
      feeds_setRecv hf (by simp [hpc, inHand]) (by simp [Inbound.drained])
  · -- HALF_CLOSE, and the backlog is empty
    rename_i hpc
    cases h
    have hhand : inHand x.recv = [] := by simp [hpc, inHand]
    have hhalf := hi.half hpc
    refine feeds_popOr hf hhand fun hitems => feeds_error hf hhand fun _ => ?_
    have hr : x.refused = false := by
      by_contra hr
      simpa [hhalf] using (hi.refused (by simpa using hr)).1
    exact ⟨by simp [inputOpen, hhalf], hr, hf.returned hhand hitems hr⟩
  · rename_i hpc
    cases h
    have hhand : inHand x.recv = [] := by simp [hpc, inHand]
    refine feeds_popOr hf hhand fun hitems => feeds_setRecv hf (by simp [hpc, inHand]) fun _ hr _ => ?_
    exact hf.returned hhand hitems hr
  · rename_i hpc
    have hhand : inHand x.recv = [] := by simp [hpc, inHand]
    have hdr := hf.drained (by simp [hpc, Inbound.drained])
    have hend := hi.inEnded (by simp [hpc, Inbound.inEnded])
    split at h
    · cases h
      exact feeds_setRecv hf (by simp [hpc, inHand]) fun _ => hdr
    · rename_i f hframe
      split at h
      · cases h
        exact feeds_setRecv hf (by simp [hpc, inHand]) fun _ => hdr
      · cases h
        refine feeds_error hf hhand fun _ => ?_
        have hr : x.refused = false := by
          by_contra hr
          simpa [hframe] using (hi.refused (by simpa using hr)).2.1
        have hsome : x.stream.endFrame ≠ none := by simp [hframe]
        exact ⟨inputOpen_of_endFrame hsome, hr, hdr hr (.inl hsome)⟩
  · -- ended without a frame: the status decides
    rename_i hpc
    cases h
    have hdr := hf.drained (by simp [hpc, Inbound.drained])
    have hend := hi.inEnded (by simp [hpc, Inbound.inEnded])
    refine feeds_error hf (by simp [hpc, inHand]) fun he => ?_
    -- `io.EOF` means that a frame was recorded after all, or that the local end was one with OK
    have hcause : x.stream.endFrame ≠ none ∨ x.ender.okRecorded = true := by
      rcases statusError_eq_eof he with hnone | ⟨t, ht, hok⟩
      · exact .inl ((hi.ended hend).resolve_right (absurd hnone))
      · exact hi.okSt t ht hok
    have hr : x.refused = false := by
      by_contra hr
      obtain ⟨-, hframe, hne, -⟩ := hi.refused (by simpa using hr)
      rcases statusError_eq_eof he with hnone | ⟨t, ht, hok⟩
      · simpa [hframe, hnone] using hi.ended hend
      · exact hne t ht hok
    rcases hcause with hframe | hok
    · exact ⟨inputOpen_of_endFrame hframe, hr, hdr hr (.inl hframe)⟩
    · refine ⟨by simp [inputOpen, hok], hr, hdr hr (.inr fun st hst => ?_)⟩
      simpa [EndPc.okRecorded, Option.mem_def.1 hst] using hok
  · rename_i f hpc
    cases h
    have hhand : inHand x.recv = [] := by simp [hpc, inHand]
    have hdr := hf.drained (by simp [hpc, Inbound.drained])
    have hs : Feeds { x with stream := x.stream.recordEnd f } :=
      hf.of_eq rfl rfl rfl rfl rfl id fun _ => id
    exact feeds_setRecv hs (by simp [hpc, inHand]) fun _ => hdr
  · -- ended with a frame, which was recorded before any refusal
    rename_i f hpc
    cases h
    have hdr := hf.drained (by simp [hpc, Inbound.drained])
    have hend := hi.inEnded (by simp [hpc, Inbound.inEnded])
    have hs : Feeds { x with stream := x.stream.cancel } := hf.of_eq rfl rfl rfl rfl rfl id fun _ => id
    refine feeds_error hs (by simp [hpc, inHand]) fun _ => ?_
    have hr : x.refused = false := by
      by_contra hr
      simpa [hi.frame f (Or.inr hpc)] using (hi.refused (by simpa using hr)).2.1
    have hsome : x.stream.endFrame ≠ none := by simp [hi.frame f (Or.inr hpc)]
    exact ⟨inputOpen_of_endFrame hsome, hr, hdr hr (.inl hsome)⟩
  · rename_i e hpc
    cases h
    refine feeds_setRecv hf ?_ ?_
    · split <;> simp [hpc, inHand]
    · split <;> simp [Inbound.drained]
  · rename_i e hpc
    cases h
    have hhand : inHand x.recv = [] := by simp [hpc, inHand]
    exact feeds_popOr hf hhand fun _ => feeds_error hf hhand (by simp)
  · rename_i f hpc
    cases h
    obtain ⟨p, hp⟩ := x.stream.returnCredit_fst _
    rw [hp]
    have hs : Feeds { x with stream := { x.stream with pendingCredit := p } } :=
      hf.of_eq rfl rfl rfl rfl rfl id fun _ => id
    exact feeds_ok hs hpc

theorem ends_select (hi : Ends x) (c : Case) (h : x.selectStep c = some x') : Ends x' := by
  cases c with
  | recvSignal =>
      obtain ⟨-, ⟨⟩⟩ := Option.ite_none_right_eq_some.1 h
      exact ends_setRecv (x := { x with stream := { x.stream with recvSignal := false } })
        { hi with } (by simp [Inbound.inEnded]) (by simp) (by simp)
  | halfClosed =>
      obtain ⟨hh, ⟨⟩⟩ := Option.ite_none_right_eq_some.1 h
      exact ends_setRecv hi (by simp [Inbound.inEnded]) (by simp) (fun _ => hh)
  | ended =>
      obtain ⟨he, ⟨⟩⟩ := Option.ite_none_right_eq_some.1 h
      exact ends_setRecv hi (fun _ => he) (by simp) (by simp)
  | ctxDone =>
      obtain ⟨e, -, rfl⟩ := Option.map_eq_some_iff.1 h
      exact ends_setRecv hi (by simp [Inbound.inEnded]) (by simp) (by simp)
  | callerDone =>
      obtain ⟨e, -, rfl⟩ := Option.map_eq_some_iff.1 h
      exact ends_finish hi _

theorem feeds_select (hf : Feeds x) (hpc : x.recv = .select) (c : Case)
    (h : x.selectStep c = some x') : Feeds x' := by
  have hmove : ∀ {pc}, inHand pc = [] → drained pc = false → Feeds { x with recv := pc } := by
    intro pc hh hd
    exact feeds_setRecv hf (by simp [hh, hpc]; simp [inHand]) (by simp [hd])
  cases c with
  | recvSignal =>
      obtain ⟨-, ⟨⟩⟩ := Option.ite_none_right_eq_some.1 h
      have hpop : Feeds { x with recv := .pop } := hmove rfl rfl
      exact hpop.of_eq rfl rfl rfl rfl rfl id fun _ => id
  | halfClosed =>
      obtain ⟨-, ⟨⟩⟩ := Option.ite_none_right_eq_some.1 h
      exact hmove rfl rfl
  | ended =>
      obtain ⟨-, ⟨⟩⟩ := Option.ite_none_right_eq_some.1 h
      exact hmove rfl rfl
  | ctxDone =>
      obtain ⟨e, -, rfl⟩ := Option.map_eq_some_iff.1 h
      exact hmove rfl rfl
  | callerDone =>
      obtain ⟨e, -, rfl⟩ := Option.map_eq_some_iff.1 h
      exact feeds_error hf (by simp [hpc, inHand]) (by simp)

/-! ## Every run -/

theorem ends_feeds_step {a : InboundAct} (hi : Ends x ∧ Feeds x) (hk : Kept x a)
    (h : x.step a = some x') : Ends x' ∧ Feeds x' := by
  obtain ⟨he, hf⟩ := hi
  cases a with
  | route f =>
      obtain ⟨hl, ⟨⟩⟩ := Option.ite_none_right_eq_some.1 h
      exact ⟨ends_route he hl f, feeds_route he hf hl hk⟩
  | loop => exact ⟨ends_loop he h, feeds_loop hf h⟩
  | connLost closed =>
      obtain ⟨hl, ⟨⟩⟩ := Option.ite_none_right_eq_some.1 h
      refine ⟨{ he with loop := ?_, close := ?_, noFrame := ?_, closer := ?_, refused := ?_ },
        hf.of_eq rfl rfl rfl rfl rfl id fun _ => id⟩
      · split <;> simp [loopRecorded]
      · split <;> simp
      · intro h _; exact he.noFrame h (by simp [hl])
      · split <;> simp [attentive]
      · intro hr
        obtain ⟨h1, h2, h3, h4⟩ := he.refused hr
        refine ⟨h1, h2, h3, Or.inl ?_⟩
        simpa [Quiet, hl] using h4
  | callEnd st =>
      obtain ⟨hidle, ⟨⟩⟩ := Option.ite_none_right_eq_some.1 h
      have hnone : x.ender.recorded = none := by rw [hidle]; rfl
      refine ⟨{ he with ender := by simp [enderRecorded], okSt := ?_, closer := ?_ },
        hf.of_eq rfl rfl rfl rfl rfl ?_ fun _ => ?_⟩
      · intro st' hst' hok
        simpa [hidle, EndPc.okRecorded, EndPc.recorded] using he.okSt st' hst' hok
      · intro h hreg hloop
        exact absurd hnone (he.closer h hreg hloop)
      · simp [inputOpen, EndPc.okRecorded, EndPc.recorded, hidle]
      · simp [Settled, hnone]
  | ender => exact ⟨ends_ender he hk h, feeds_ender hf h⟩
  | expire e =>
      cases h
      exact ⟨{ he with }, hf.of_eq rfl rfl rfl rfl rfl id fun _ => id⟩
  | recvRawContext ctx =>
      obtain ⟨hidle, ⟨⟩⟩ := Option.ite_none_right_eq_some.1 h
      have hs : Ends { x with callerErr := ctx } ∧ Feeds { x with callerErr := ctx } :=
        ⟨{ he with }, hf.of_eq rfl rfl rfl rfl rfl id fun _ => id⟩
      exact ⟨ends_setRecv hs.1 (by simp [Inbound.inEnded]) (by simp) (by simp),
        feeds_setRecv hs.2 (by simp [hidle, inHand]) (by simp [Inbound.drained])⟩
  | callerDone e =>
      cases h
      exact ⟨{ he with }, hf.of_eq rfl rfl rfl rfl rfl id fun _ => id⟩
  | recv => exact ⟨ends_recv he h, feeds_recv he hf h⟩
  | select c =>
      obtain ⟨hpc, hs⟩ := Option.ite_none_right_eq_some.1 h
      exact ⟨ends_select he c hs, feeds_select hf hpc c hs⟩

/-- The first result decides what a unary handler runs on: nothing was sent, or
it is the first message. -/
theorem Feeds.unaryRequest (hf : Feeds x) {r : Except GoError Payload}
    {rest : List (Except GoError Payload)} {raw : Payload} (hres : x.results = r :: rest)
    (hraw : unaryRequest r = .ok raw) : x.input = [] ∨ ∃ t, x.input = raw :: t := by
  cases r with
  | ok b =>
      obtain rfl : b = raw := by simpa [Go.unaryRequest] using hraw
      obtain ⟨t, ht⟩ : ∃ t, x.offered = b :: t := by
        simp [offered, hres, payloads, Except.toOption]
      cases hr : x.refused with
      | false =>
          have hp := ht ▸ hf.sub hr
          rcases List.prefix_cons_iff.1 hp with h | ⟨t', h, -⟩
          · exact Or.inl h
          · exact Or.inr ⟨t', h⟩
      | true =>
          obtain ⟨t', h⟩ := ht ▸ hf.refused hr
          exact Or.inr ⟨t ++ t', by simpa using h.symm⟩
  | error e =>
      obtain rfl : e = .eof := by
        cases e <;> simp [Go.unaryRequest] at hraw ⊢
      left
      simpa using (hf.eof [] rest (by simpa using hres)).2.2

/-- **A clean end means the whole input.**  In every run in which each message of
the open input finds the stream's context live, and the local end records no OK
after a refused message: when a receive has returned `io.EOF`, every message
routed before the end of the input had been returned by earlier receives, in
order; and a unary handler that is run on the first receive is run on the first
message, or nothing was sent. -/
theorem eof_of_kept (server : Bool) (ctxErr : Option CtxErr) (id : UInt32) (method : Text) (W : ℤ)
    {x : Inbound} (h : Reach step Kept (start server ctxErr id method W) x) :
    (∀ l r, x.results = l ++ .error .eof :: r → x.input <+: payloads l) ∧
    (∀ r rest raw, x.results = r :: rest → unaryRequest r = .ok raw →
      x.input = [] ∨ ∃ t, x.input = raw :: t) := by
  have hi : Ends x ∧ Feeds x := h.invariant
    ⟨ends_start server ctxErr id method W, feeds_start server ctxErr id method W⟩
    fun _ _ _ hi hk hs => ends_feeds_step hi hk hs
  exact ⟨fun l r hlr => (hi.2.eof l r hlr).2.2, fun r rest raw hres => hi.2.unaryRequest hres⟩

/-- A client sends one message and half-closes; the second receive returns
`io.EOF`. -/
theorem eof_of_kept_one :
    ∃ x, Reach step Kept (start true none 1 .empty 4) x ∧
      x.input = [[7]] ∧ x.results = [.ok [7], .error .eof] ∧
      x.input <+: payloads [.ok [7]] ∧ (x.input = [] ∨ ∃ t, x.input = [7] :: t) := by
  obtain ⟨x, hx, hp⟩ := exists_reach_of_exec step Kept (start true none 1 .empty 4)
    (fun x => decide (x.input = [[7]] ∧ x.results = [.ok [7], .error .eof]))
    [.recvRawContext none, .route { streamId := 1, kind := .kindMsg, payload := [7] }, .loop,
      .recv, .recv, .route { streamId := 1, kind := .kindHalfClose }, .recvRawContext none,
      .recv, .select .halfClosed, .recv] (by decide)
  simp only [decide_eq_true_eq] at hp
  obtain ⟨heof, hunary⟩ := eof_of_kept true none 1 .empty 4 hx
  exact ⟨x, hx, hp.1, hp.2, heof [.ok [7]] [] hp.2, hunary _ _ [7] hp.2 rfl⟩

/-- **A clean end with part of the input missing.**  First run: the deadline of a
server stream fires, then the request and the HALF_CLOSE arrive; the request is
dropped, the receive's `select` takes `halfClosed`, and a unary handler is run on
an empty request.  Second run: the second message is refused by the backlog's
ceiling, the handler returns OK, and the receiver is told `io.EOF`. -/
theorem eof_after_lost_message :
    (∃ x, Reach step Always (start true none 1 .empty 1) x ∧
      x.input = [[7]] ∧ x.results = [.error .eof] ∧ unaryRequest (.error .eof) = .ok []) ∧
    (∃ x, Reach step Always (start true none 1 .empty 1) x ∧
      x.input = [[1, 2], [3]] ∧ x.results = [.ok [1, 2], .error .eof]) := by
  constructor
  · obtain ⟨x, hx, hp⟩ := exists_reach_of_exec step Always (start true none 1 .empty 1)
      (fun x => decide (x.input = [[7]] ∧ x.results = [.error .eof]))
      [.expire .deadlineExceeded, .route { streamId := 1, kind := .kindMsg, payload := [7] },
        .route { streamId := 1, kind := .kindHalfClose }, .recvRawContext none, .recv,
        .select .halfClosed, .recv] (by decide)
    simp only [decide_eq_true_eq] at hp
    exact ⟨x, hx, hp.1, hp.2, rfl⟩
  · obtain ⟨x, hx, hp⟩ := exists_reach_of_exec step Always (start true none 1 .empty 1)
      (fun x => decide (x.input = [[1, 2], [3]] ∧ x.results = [.ok [1, 2], .error .eof]))
      [.route { streamId := 1, kind := .kindMsg, payload := [1, 2] }, .loop,
        .route { streamId := 1, kind := .kindMsg, payload := [3] }, .loop, .loop, .loop, .loop,
        .recvRawContext none, .recv, .recv, .callEnd { code := Code.ok }, .ender,
        .recvRawContext none, .recv, .select .ended, .recv, .recv, .recv] (by decide)
    simp only [decide_eq_true_eq] at hp
    exact ⟨x, hx, hp⟩

end WsProto.Go.Inbound
