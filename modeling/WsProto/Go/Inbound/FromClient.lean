import WsProto.Go.Inbound.Exact

/-!
# The inbound half of a server stream, fed by a client

A client writes no END, and no MSG behind its HALF_CLOSE.  For a stream fed that way, while
its handler has not returned (`ender` is idle):

* `Told` — `io.EOF` is what a receive returns for the HALF_CLOSE and for nothing else: an RST,
  an overflow and the loss of the connection all have another error;
* `Tracks` — the receiver is offered the messages that were routed, in order, and when the
  HALF_CLOSE is taken in, that is all of them.
-/

namespace WsProto.Go.Inbound

variable {x x' : Inbound}

/-! ## What the receiver leaves alone -/

/-- What a receive reads and never writes. -/
structure Outer where
  registered : Bool
  loop : LoopPc
  ender : EndPc
  input : List Payload
  ended : Bool
  halfClosed : Bool
  endFrame : Option Frame

def outer (x : Inbound) : Outer :=
  ⟨x.registered, x.loop, x.ender, x.input, x.stream.ended, x.stream.halfClosed, x.stream.endFrame⟩

theorem outer_popOr {o : Inbound} (ho : o.outer = x.outer) : (x.popOr o).outer = x.outer := by
  obtain ⟨-, he⟩ | ⟨f, rest, -, he⟩ := popOr_cases x o
  · rw [he, ho]
  · rw [he]
    rfl

theorem outer_recv (h : x.recvStep = some x') : x'.outer = x.outer := by
  unfold recvStep at h
  split at h
  · cases h
  · cases h
  · cases h; exact outer_popOr rfl
  · cases h; exact outer_popOr rfl
  · cases h; exact outer_popOr rfl
  · split at h
    · cases h; rfl
    · split at h <;> cases h <;> rfl
  · cases h; rfl
  · cases h; rfl
  · cases h; rfl
  · cases h; rfl
  · cases h; exact outer_popOr rfl
  · rename_i f hpc
    cases h
    obtain ⟨c, hc⟩ := x.stream.returnCredit_fst f.payload.length
    simp only [outer, finish, hc]

theorem outer_select {c : Case} (h : x.selectStep c = some x') : x'.outer = x.outer := by
  cases c with
  | recvSignal => obtain ⟨-, ⟨⟩⟩ := Option.ite_none_right_eq_some.1 h; rfl
  | halfClosed => obtain ⟨-, ⟨⟩⟩ := Option.ite_none_right_eq_some.1 h; rfl
  | ended => obtain ⟨-, ⟨⟩⟩ := Option.ite_none_right_eq_some.1 h; rfl
  | ctxDone => obtain ⟨e, -, rfl⟩ := Option.map_eq_some_iff.1 h; rfl
  | callerDone => obtain ⟨e, -, rfl⟩ := Option.map_eq_some_iff.1 h; rfl

theorem outer_of_byReceiver {a : InboundAct} (ha : byReceiver a = true) (h : x.step a = some x') :
    x'.outer = x.outer := by
  cases a with
  | recvRawContext ctx => obtain ⟨-, ⟨⟩⟩ := Option.ite_none_right_eq_some.1 h; rfl
  | recv => exact outer_recv h
  | select c => exact outer_select (Option.ite_none_right_eq_some.1 h).2
  | route f | loop | connLost c | callEnd st | ender | expire e | callerDone e => cases ha

/-! ## What a receive is told -/

/-- The frames a client writes. -/
def ClientKind : Kind → Prop
  | .kindOpen | .kindMsg | .kindHalfClose | .kindWindowUpdate | .kindRst => True
  | _ => False

/-- The condition on a step: the frames routed are those of a client. -/
def FromClient : InboundAct → Prop
  | .route f => ClientKind f.kind
  | _ => True

/-- What the receiver may have been told before the handler returns. -/
structure Told (x : Inbound) : Prop where
  reset : ∀ f, x.stream.endFrame = some f → f.kind = .kindRst
  failed : x.ender = .idle → x.stream.endFrame = none → ∀ st, x.stream.endSt = some st →
    st.code ≠ Code.ok
  status : x.recv = .endedStatus → x.stream.endFrame = none
  eof : .error .eof ∈ x.results → x.ender = .idle → x.stream.halfClosed = true

theorem told_start (server : Bool) (ctxErr : Option CtxErr) (id : UInt32) (method : Text) (W : ℤ) :
    Told (start server ctxErr id method W) := by
  constructor <;> simp [start, newStream]

/-- A step that records neither a frame nor a status. -/
theorem Told.of_eq (ht : Told x) (hframe : x'.stream.endFrame = x.stream.endFrame)
    (hst : x'.stream.endSt = x.stream.endSt) (hrecv : x'.recv = x.recv)
    (hres : x'.results = x.results) (hender : x'.ender = .idle → x.ender = .idle)
    (hhalf : x.stream.halfClosed = true → x'.stream.halfClosed = true) : Told x' where
  reset := by rw [hframe]; exact ht.reset
  failed := by
    intro hi
    rw [hframe, hst]
    exact ht.failed (hender hi)
  status := by rw [hframe, hrecv]; exact ht.status
  eof := by
    intro hin hi
    rw [hres] at hin
    exact hhalf (ht.eof hin (hender hi))

theorem told_route (he : Ends x) (ht : Told x) {f : Frame} (hk : ClientKind f.kind) :
    Told (x.route f) := by
  cases hreg : x.registered with
  | false =>
      simp only [route, hreg]
      exact ht
  | true =>
      cases hkind : f.kind with
      | kindOpen => simpa only [route, hreg, hkind, if_true] using ht
      | kindHalfClose =>
          simp only [route, hreg, hkind, if_true]
          exact ht.of_eq rfl rfl rfl rfl id fun _ => rfl
      | kindWindowUpdate =>
          simp only [route, hreg, hkind, if_true, Stream.creditSend]
          split <;> exact ht.of_eq rfl rfl rfl rfl id id
      | kindMsg =>
          simp only [route, hreg, hkind, if_true, routeMsg]
          cases hd : x.stream.deliver f with
          | dropped => exact ht.of_eq rfl rfl rfl rfl id id
          | «over» => exact ht.of_eq rfl rfl rfl rfl id id
          | queued s =>
              obtain rfl := deliver_queued hd
              exact ht.of_eq rfl rfl rfl rfl id id
      | kindRst =>
          simp only [route, hreg, hkind, if_true]
          split
          · exact ht.of_eq rfl rfl rfl rfl id id
          · rename_i hended
            refine ⟨?_, ?_, ?_, ht.eof⟩
            · intro g hg
              obtain rfl : f = g := Option.some.inj hg
              exact hkind
            · intro _ hnone
              cases hnone
            · -- a receive that reads the status has seen `ended` closed
              intro hrecv
              exact absurd (he.inEnded (by rw [show x.recv = .endedStatus from hrecv]; rfl)) hended
      | kindHeader | kindEnd | kindUnspecified | kindOther n =>
          rw [hkind] at hk
          exact hk.elim

/-- A piece of a `failWith` of the read loop. -/
theorem Told.failLoop (ht : Told x) {err : GoError} {st : Status} {pc : FailPc}
    {y : Stream × Option FailPc} (hy : pc.step false err x.stream = some y)
    (hst : fromError (some err) = some st) (hne : st.code ≠ Code.ok) {l : LoopPc} {reg : Bool} :
    Told { x with stream := y.1, registered := reg, loop := l } := by
  obtain ⟨-, rfl⟩ | ⟨-, -, rfl⟩ | ⟨-, rfl⟩ := failStep_cases hy
  · refine ⟨ht.reset, ?_, ht.status, ht.eof⟩
    intro _ _ st' hst'
    obtain rfl : st = st' := Option.some.inj (hst.symm.trans hst')
    exact hne
  · exact ht.of_eq rfl rfl rfl rfl id id
  · exact ht.of_eq rfl rfl rfl rfl id id

theorem told_loop (ht : Told x) (h : x.loopStep = some x') : Told x' := by
  unfold loopStep at h
  split at h
  · cases h
  · cases h
  · cases h; exact ht.of_eq rfl rfl rfl rfl id id
  · cases h; exact ht.of_eq rfl rfl rfl rfl id id
  · cases h; exact ht.of_eq rfl rfl rfl rfl id id
  · obtain ⟨y, hy, rfl⟩ := Option.map_eq_some_iff.1 h
    obtain ⟨st, hst, hne⟩ := fromError_overflowErr
    split <;> exact ht.failLoop hy hst hne
  · rename_i closed pc hpc
    obtain ⟨y, hy, rfl⟩ := Option.map_eq_some_iff.1 h
    obtain ⟨st, hst, hne⟩ := fromError_connLostErr closed
    split <;> exact ht.failLoop hy hst hne

theorem enderStep_busy (h : x.enderStep = some x') :
    x'.ender ≠ .idle ∧ x'.stream.endFrame = x.stream.endFrame ∧ x'.recv = x.recv := by
  unfold enderStep at h
  split at h
  · cases h
  · cases h
  · obtain ⟨y, hy, rfl⟩ := Option.map_eq_some_iff.1 h
    have hframe : y.1.endFrame = x.stream.endFrame := by
      obtain ⟨-, rfl⟩ | ⟨-, -, rfl⟩ | ⟨-, rfl⟩ := failStep_cases hy <;> rfl
    split <;> exact ⟨by simp, hframe, rfl⟩
  · cases h
    exact ⟨by simp, rfl, rfl⟩

/-- Once the local end is under way nothing is promised. -/
theorem told_ender (ht : Told x) (h : x.enderStep = some x') : Told x' := by
  obtain ⟨hne, hframe, hrecv⟩ := enderStep_busy h
  refine ⟨by rw [hframe]; exact ht.reset, fun hi => absurd hi hne, ?_, fun _ hi => absurd hi hne⟩
  rw [hframe, hrecv]
  exact ht.status

/-- The receiver moves on without returning anything. -/
theorem Told.setRecv (ht : Told x) {pc : RecvPc}
    (hpc : pc = .endedStatus → x.stream.endFrame = none) : Told { x with recv := pc } :=
  ⟨ht.reset, ht.failed, hpc, ht.eof⟩

/-- A receive returns; `io.EOF` only for a HALF_CLOSE. -/
theorem Told.finish (ht : Told x) {r : Except GoError Payload}
    (hr : r = .error .eof → x.ender = .idle → x.stream.halfClosed = true) :
    Told (x.finish r) where
  reset := ht.reset
  failed := ht.failed
  status := by intro h; cases h
  eof := by
    intro hin hi
    rcases List.mem_append.1 hin with hin | hin
    · exact ht.eof hin hi
    · exact hr (List.mem_singleton.1 hin).symm hi

theorem Told.popOr {o : Inbound} (ht : Told x) (ho : Told o) : Told (x.popOr o) := by
  obtain ⟨-, he⟩ | ⟨f, rest, -, he⟩ := popOr_cases x o
  · rw [he]
    exact ho
  · rw [he]
    exact ⟨ht.reset, ht.failed, (fun h => by cases h), ht.eof⟩

/-- A reset is never a clean end. -/
theorem endError_of_reset {f : Frame} (hk : f.kind = .kindRst) : endError f ≠ .eof := by
  simp [endError, hk]

theorem told_recv (he : Ends x) (ht : Told x) (h : x.recvStep = some x') : Told x' := by
  unfold recvStep at h
  split at h
  · cases h
  · cases h
  · cases h
    exact ht.popOr (ht.setRecv fun h => by cases h)
  · rename_i hpc
    cases h
    exact ht.popOr (ht.finish fun _ _ => he.half hpc)
  · cases h
    exact ht.popOr (ht.setRecv fun h => by cases h)
  · rename_i hpc
    split at h
    · rename_i hnone
      cases h
      exact ht.setRecv fun _ => hnone
    · rename_i f hf
      rw [if_pos (.inr (ht.reset f hf))] at h
      cases h
      exact ht.setRecv fun h => by cases h
  · rename_i hpc
    cases h
    refine ht.finish fun heof hi => ?_
    -- without a frame, a stream has ended with the status of a failure
    have hnone := ht.status hpc
    have hst := (he.ended (he.inEnded (by rw [hpc]; rfl))).resolve_left fun h => h hnone
    rcases statusError_eq_eof (Except.error.inj heof) with h | ⟨st, h, hok⟩
    · exact absurd h hst
    · exact absurd hok (ht.failed hi hnone st h)
  · rename_i f hpc
    cases h
    have hframe := he.frame f (.inl hpc)
    refine ⟨ht.reset, fun _ hnone => ?_, (fun h => by cases h), ht.eof⟩
    exact absurd (hnone.symm.trans hframe) (by simp)
  · rename_i f hpc
    cases h
    have hreset := ht.reset f (he.frame f (.inr hpc))
    have hcancel : Told { x with stream := x.stream.cancel } :=
      ht.of_eq rfl rfl rfl rfl id id
    exact hcancel.finish fun heof => absurd (Except.error.inj heof) (endError_of_reset hreset)
  · cases h
    refine ht.setRecv fun h => ?_
    split at h <;> cases h
  · cases h
    exact ht.popOr (ht.finish fun heof => by cases heof)
  · rename_i f hpc
    cases h
    obtain ⟨c, hc⟩ := x.stream.returnCredit_fst f.payload.length
    have hcredit : Told { x with stream := (x.stream.returnCredit f.payload.length).1 } := by
      rw [hc]
      exact ht.of_eq rfl rfl rfl rfl id id
    exact hcredit.finish fun heof => by cases heof

theorem told_select {c : Case} (ht : Told x) (h : x.selectStep c = some x') : Told x' := by
  cases c with
  | recvSignal =>
      obtain ⟨-, ⟨⟩⟩ := Option.ite_none_right_eq_some.1 h
      exact ⟨ht.reset, ht.failed, (fun h => by cases h), ht.eof⟩
  | halfClosed =>
      obtain ⟨-, ⟨⟩⟩ := Option.ite_none_right_eq_some.1 h
      exact ht.setRecv fun h => by cases h
  | ended =>
      obtain ⟨-, ⟨⟩⟩ := Option.ite_none_right_eq_some.1 h
      exact ht.setRecv fun h => by cases h
  | ctxDone =>
      obtain ⟨e, -, rfl⟩ := Option.map_eq_some_iff.1 h
      exact ht.setRecv fun h => by cases h
  | callerDone =>
      obtain ⟨e, -, rfl⟩ := Option.map_eq_some_iff.1 h
      exact ht.finish fun heof => by cases heof

theorem told_step {a : InboundAct} (he : Ends x) (ht : Told x) (ha : FromClient a)
    (h : x.step a = some x') : Told x' := by
  cases a with
  | route f =>
      obtain ⟨-, ⟨⟩⟩ := Option.ite_none_right_eq_some.1 h
      exact told_route he ht ha
  | loop => exact told_loop ht h
  | connLost closed =>
      obtain ⟨-, ⟨⟩⟩ := Option.ite_none_right_eq_some.1 h
      exact ht.of_eq rfl rfl rfl rfl id id
  | callEnd st =>
      obtain ⟨-, ⟨⟩⟩ := Option.ite_none_right_eq_some.1 h
      exact ht.of_eq rfl rfl rfl rfl (fun h => by cases h) id
  | ender => exact told_ender ht h
  | expire e => cases h; exact ht.of_eq rfl rfl rfl rfl id id
  | recvRawContext ctx =>
      obtain ⟨-, ⟨⟩⟩ := Option.ite_none_right_eq_some.1 h
      exact ⟨ht.reset, ht.failed, (fun h => by cases h), ht.eof⟩
  | callerDone e => cases h; exact ht.of_eq rfl rfl rfl rfl id id
  | recv => exact told_recv he ht h
  | select c => exact told_select ht (Option.ite_none_right_eq_some.1 h).2

/-! ## What the receiver is offered -/

theorem offered_passes {new : List Frame} (hp : Passes x x' new) :
    x'.offered = x.offered ++ new.map (·.payload) := by
  simp [offered, hp.recv, hp.results, hp.items]

theorem offered_recvMove (hm : RecvMove x x') : x'.offered = x.offered := by
  cases hm with
  | take f hpop hitems hrecv hres =>
      have hhand : inHand x.recv = [] := inHand_of_looking (Watched.looking_of_pops hpop)
      simp [offered, hrecv, hres, hitems, hhand]
  | give f hpc hitems hrecv hres => simp [offered, hrecv, hres, hitems, hpc]
  | go hlook hnone hitems hrecv hres hselect =>
      simp [offered, hres, hitems, inHand_of_looking hlook, inHand_of_looking hrecv]
  | fail e hlook hnone hitems hrecv hres =>
      simp [offered, hrecv, hres, hitems, inHand_of_looking hlook]

theorem offered_of_byReceiver {a : InboundAct} (ha : byReceiver a = true)
    (h : x.step a = some x') : x'.offered = x.offered := by
  cases a with
  | recvRawContext ctx =>
      obtain ⟨hidle, ⟨⟩⟩ := Option.ite_none_right_eq_some.1 h
      simp [offered, hidle, inHand]
  | recv => exact offered_recvMove (recvStep_cases h)
  | select c =>
      obtain ⟨hpc, hs⟩ := Option.ite_none_right_eq_some.1 h
      obtain ⟨hitems, ⟨-, hlook, -, hres⟩ | ⟨-, hrecv, e, hres⟩⟩ := selectStep_cases hs
      · simp only [offered, hitems, hres, hpc, inHand_of_looking hlook]
        rfl
      · simp [offered, hitems, hres, hpc, hrecv, inHand]
  | route f | loop | connLost c | callEnd st | ender | expire e | callerDone e => cases ha

/-- The receiver beside the payloads `sent` of the messages that have reached the read loop;
`half` says that a HALF_CLOSE has. -/
structure Tracks (x : Inbound) (sent : List Payload) (half : Bool) : Prop where
  part : x.offered <+: sent
  whole : x.registered = true → attentive x.loop = true →
    x.stream.ended = false ∧ x.offered = sent
  closed : x.stream.halfClosed = true → half = true ∧ x.input = sent

theorem tracks_start (server : Bool) (ctxErr : Option CtxErr) (id : UInt32) (method : Text)
    (W : ℤ) : Tracks (start server ctxErr id method W) [] false := by
  constructor <;> simp [start, newStream, offered, inHand]

variable {sent : List Payload} {half : Bool}

/-- A step that changes nothing the receiver is offered. -/
theorem Tracks.of_eq (ht : Tracks x sent half) (hoff : x'.offered = x.offered)
    (hin : x'.input = x.input) (hhalf : x'.stream.halfClosed = x.stream.halfClosed)
    (hwhole : x'.registered = true → attentive x'.loop = true →
      x.registered = true ∧ attentive x.loop = true ∧ x'.stream.ended = x.stream.ended) :
    Tracks x' sent half where
  part := by rw [hoff]; exact ht.part
  whole := by
    intro hreg hloop
    obtain ⟨hreg', hloop', hended⟩ := hwhole hreg hloop
    rw [hoff, hended]
    exact ht.whole hreg' hloop'
  closed := by rw [hhalf, hin]; exact ht.closed

/-- A frame that is no message, to a stream that goes on. -/
theorem Tracks.append_nil {b : Bool} (ht : Tracks x sent half) (hb : half = true → b = true) :
    Tracks x (sent ++ []) b := by
  rw [List.append_nil]
  exact ⟨ht.part, ht.whole, fun h => ⟨hb (ht.closed h).1, (ht.closed h).2⟩⟩

theorem route_ender (x : Inbound) (f : Frame) : (x.route f).ender = x.ender := by
  unfold route routeMsg
  split
  · split
    · rfl
    · rfl
    · rfl
    · rfl
    · split <;> rfl
    · split <;> rfl
    · split <;> rfl
  · rfl

/-- Until the handler returns, the input is open up to the HALF_CLOSE. -/
theorem Ends.inputOpen (he : Ends x) (hl : x.loop = .read) (hidle : x.ender = .idle)
    (hended : x.stream.ended = false) (hhalf : x.stream.halfClosed = false) :
    x.inputOpen = true :=
  inputOpen_iff.2 ⟨hhalf, he.noFrame hended (by simp [hl]), by rw [hidle]; rfl⟩

/-- **A message.**  It comes before the HALF_CLOSE, finds the context live, and joins the
backlog or overflows it. -/
theorem tracks_routeMsg (he : Ends x) (ht : Tracks x sent half) (hidle : x.ender = .idle)
    (hl : x.loop = .read)
    (hreg : x.registered = true) {f : Frame} (hk : f.kind = .kindMsg) (hkept : Kept x (.route f))
    (horder : half = false) : Tracks (x.routeMsg f) (sent ++ [f.payload]) half := by
  obtain ⟨hended, hoff⟩ := ht.whole hreg (by rw [hl]; rfl)
  have hhalf : x.stream.halfClosed = false := by
    by_contra hne
    rw [(ht.closed (by simpa using hne)).1] at horder
    cases horder
  have hopen : x.inputOpen = true := he.inputOpen hl hidle hended hhalf
  have hlive : x.stream.ctxErr = none := hkept hreg hopen (by rw [hk]; rfl)
  have hpass := offered_passes (passes_routeMsg hl hreg (f := f) (by rw [hk]; rfl))
  cases hd : x.stream.deliver f with
  | dropped => simp [Stream.deliver, hlive] at hd; split_ifs at hd
  | «over» =>
      have hnew : x.appendedBy (.route f) = [] := by simp [appendedBy, hd]
      rw [hnew, List.map_nil, List.append_nil] at hpass
      refine ⟨?_, ?_, ?_⟩
      · rw [hpass, hoff]
        exact List.prefix_append _ _
      · intro _ hloop
        simp [routeMsg, hd, attentive] at hloop
      · intro hclosed
        simp [routeMsg, hd, hhalf] at hclosed
  | queued s =>
      have hnew : x.appendedBy (.route f) = [f] := by simp [appendedBy, hreg, hk, routesAsMsg, hd]
      rw [hnew, List.map_singleton, hoff] at hpass
      obtain rfl := deliver_queued hd
      refine ⟨?_, ?_, ?_⟩
      · rw [hpass]
      · intro _ _
        refine ⟨?_, hpass⟩
        simpa [routeMsg, hd] using hended
      · intro hclosed
        simp [routeMsg, hd, hhalf] at hclosed

/-- **The read loop routes a frame of the client.** -/
theorem tracks_route (he : Ends x) (hf : Feeds x) (ht : Tracks x sent half)
    (hidle : x.ender = .idle) (hl : x.loop = .read) {f : Frame} (hk : ClientKind f.kind)
    (hkept : Kept x (.route f)) (horder : f.kind = .kindMsg → half = false) :
    Tracks (x.route f) (sent ++ if f.kind = .kindMsg then [f.payload] else [])
      (half || decide (f.kind = .kindHalfClose)) := by
  have hkeep : half = true → (half || decide (f.kind = .kindHalfClose)) = true := by
    intro h
    rw [h]
    rfl
  cases hreg : x.registered with
  | false =>
      have hsame : x.route f = x := by simp [route, hreg]
      rw [hsame]
      refine ⟨ht.part.trans (List.prefix_append _ _), ?_, ?_⟩
      · intro h
        rw [hreg] at h
        cases h
      · intro h
        obtain ⟨hhalf, hin⟩ := ht.closed h
        have hmsg : f.kind ≠ .kindMsg := by
          intro hm
          rw [horder hm] at hhalf
          cases hhalf
        rw [if_neg hmsg, List.append_nil]
        exact ⟨hkeep hhalf, hin⟩
  | true =>
      obtain ⟨hended, hoff⟩ := ht.whole hreg (by rw [hl]; rfl)
      cases hkind : f.kind with
      | kindMsg =>
          have hroute : x.route f = x.routeMsg f := by simp [route, hreg, hkind]
          rw [hroute, if_pos rfl,
            show (half || decide (Kind.kindMsg = .kindHalfClose)) = half by simp]
          exact tracks_routeMsg he ht hidle hl hreg hkind hkept (horder hkind)
      | kindOpen =>
          simp only [route, hreg, hkind, if_true]
          exact ht.append_nil fun h => by rw [h, Bool.true_or]
      | kindWindowUpdate =>
          have hcredit :
              Tracks { x with stream := x.stream.creditSend f.window.toNat } sent half := by
            unfold Stream.creditSend
            split
            · exact ht
            · exact ht.of_eq rfl rfl rfl fun h h' => ⟨h, h', rfl⟩
          rw [route, if_pos hreg]
          simp only [hkind]
          exact hcredit.append_nil fun h => by rw [h, Bool.true_or]
      | kindHalfClose =>
          simp only [route, hreg, hkind, if_true]
          -- the input is complete when the HALF_CLOSE is taken in
          have hinput : x.input = sent := by
            by_cases hclosed : x.stream.halfClosed = true
            · exact (ht.closed hclosed).2
            · have hopen : x.inputOpen = true :=
                he.inputOpen hl hidle hended (by simpa using hclosed)
              rw [hf.all (he.not_refused hl hreg) hopen, hoff]
          refine ⟨?_, ?_, ?_⟩
          · exact ht.part.trans (List.prefix_append _ _)
          · intro _ _
            exact ⟨hended, hoff.trans (List.append_nil _).symm⟩
          · intro _
            exact ⟨by simp, hinput.trans (List.append_nil _).symm⟩
      | kindRst =>
          have hreset : Tracks { x with
              stream := { x.stream with endFrame := some f }, loop := .close } sent half :=
            ht.of_eq rfl rfl rfl fun _ h => by cases h
          rw [route, if_pos hreg]
          simp only [hkind]
          rw [if_neg (by rw [hended]; decide)]
          exact hreset.append_nil fun h => by rw [h, Bool.true_or]
      | kindHeader | kindEnd | kindUnspecified | kindOther n =>
          rw [hkind] at hk
          exact hk.elim

theorem loopStep_ender (h : x.loopStep = some x') : x'.ender = x.ender := by
  unfold loopStep at h
  split at h
  · cases h
  · cases h
  · cases h; rfl
  · cases h; rfl
  · cases h; rfl
  · obtain ⟨y, -, rfl⟩ := Option.map_eq_some_iff.1 h
    split <;> rfl
  · obtain ⟨y, -, rfl⟩ := Option.map_eq_some_iff.1 h
    split <;> rfl

theorem tracks_loop (ht : Tracks x sent half) (h : x.loopStep = some x') :
    Tracks x' sent half := by
  unfold loopStep at h
  split at h
  · cases h
  · cases h
  · rename_i hpc
    cases h
    exact ht.of_eq rfl rfl rfl fun h _ => ⟨h, by rw [hpc]; rfl, rfl⟩
  · cases h
    exact ht.of_eq rfl rfl rfl fun _ h => by cases h
  · cases h
    exact ht.of_eq rfl rfl rfl fun h => by cases h
  · obtain ⟨y, hy, rfl⟩ := Option.map_eq_some_iff.1 h
    obtain ⟨hitems, hhalf, -⟩ := failStep_view hy
    split
    · exact ht.of_eq (by simp only [offered, hitems]) rfl hhalf fun _ h => by cases h
    · exact ht.of_eq (by simp only [offered, hitems]) rfl hhalf fun _ h => by cases h
  · obtain ⟨y, hy, rfl⟩ := Option.map_eq_some_iff.1 h
    obtain ⟨hitems, hhalf, -⟩ := failStep_view hy
    split
    · exact ht.of_eq (by simp only [offered, hitems]) rfl hhalf fun _ h => by cases h
    · exact ht.of_eq (by simp only [offered, hitems]) rfl hhalf fun h => by cases h

/-- The steps other than a frame keep to what has been routed, as long as the handler has not
returned. -/
theorem tracks_step {a : InboundAct} (hroute : ∀ f, a ≠ .route f)
    (ht : x.ender = .idle → Tracks x sent half) (h : x.step a = some x') :
    x'.ender = .idle → Tracks x' sent half := by
  intro hidle
  cases hrec : byReceiver a with
  | true =>
      have hout := outer_of_byReceiver hrec h
      have hender : x'.ender = x.ender := congrArg Outer.ender hout
      refine (ht (hender ▸ hidle)).of_eq (offered_of_byReceiver hrec h)
        (congrArg Outer.input hout) (congrArg Outer.halfClosed hout) fun hreg hloop => ?_
      have hreg' : x'.registered = x.registered := congrArg Outer.registered hout
      have hloop' : x'.loop = x.loop := congrArg Outer.loop hout
      exact ⟨hreg' ▸ hreg, hloop' ▸ hloop, congrArg Outer.ended hout⟩
  | false =>
      cases a with
      | route f => exact absurd rfl (hroute f)
      | loop =>
          have hender : x'.ender = x.ender := loopStep_ender h
          exact tracks_loop (ht (hender ▸ hidle)) h
      | connLost closed =>
          obtain ⟨-, ⟨⟩⟩ := Option.ite_none_right_eq_some.1 h
          refine (ht hidle).of_eq rfl rfl rfl fun _ hloop => ?_
          dsimp only at hloop
          split at hloop <;> cases hloop
      | callEnd st =>
          obtain ⟨-, ⟨⟩⟩ := Option.ite_none_right_eq_some.1 h
          cases hidle
      | ender => exact absurd hidle (enderStep_busy h).1
      | expire e => cases h; exact (ht hidle).of_eq rfl rfl rfl fun h h' => ⟨h, h', rfl⟩
      | callerDone e => cases h; exact (ht hidle).of_eq rfl rfl rfl fun h h' => ⟨h, h', rfl⟩
      | recvRawContext ctx | recv | select c => cases hrec

end WsProto.Go.Inbound
