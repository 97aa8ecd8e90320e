import WsProto.Lib.Run
import WsProto.Go.Mux

/-!
# The inbound half of a Go stream: the model

One stream as its receiver sees it.  Four parties work on it, each step being
one critical section or one channel operation of one of them:

* the mux's read loop routes the stream's frames (`route`), and goes through
  `signalEnd`, the overflow reset and `failAll` piece by piece (`loop`);
* the local `end` (`ender`);
* the environment: the stream context ends (`expire`), the connection is lost
  (`connLost`), the caller's own context ends (`callerDone`);
* one receiver, inside `RecvRawContext` (`recv`, and `select` where the source
  chooses among its ready channels).

`loopEnds_route` says that the pieces of the read loop, taken without a break,
are `Stream.onFrame`.

Beside the program state the model records two ghosts: `input`, the messages
routed to the stream before the end of its input, and `refused`, that the
backlog's ceiling turned one of them away.
-/

namespace WsProto.Go

/-! ## Where the parties stand -/

/-- Where a `failWith` stands: about to record the status, to close `ended`, to
cancel the context. -/
inductive FailPc where
  | record
  | close
  | cancel
  deriving DecidableEq

/-- The next piece of `failWith`, and what is left of it.  Closing `ended` goes
through `endOne`, which a `signalEnd` in progress holds (`busy`). -/
def FailPc.step (busy : Bool) (err : GoError) (s : Stream) :
    FailPc → Option (Stream × Option FailPc)
  | .record => some (s.setEndSt (fromError (some err)), some .close)
  | .close => if busy then none else some (s.closeEnded, some .cancel)
  | .cancel => some (s.cancel, none)

/-- The read loop, as far as this stream is concerned. -/
inductive LoopPc where
  /-- In `ReadFrame`. -/
  | read
  /-- A message was appended; `signalRecv` is next. -/
  | signal
  /-- In `signalEnd`: the frame is recorded, closing `ended` is next. -/
  | close
  /-- The stream has ended; `remove` is next. -/
  | remove
  /-- The backlog overflowed: in `failWith`. -/
  | over (pc : FailPc)
  /-- The connection is lost: in `failAll`, at this stream. -/
  | lost (closed : Bool) (pc : FailPc)
  /-- The read loop has returned. -/
  | exited
  deriving DecidableEq

/-- The goroutine that calls the local `end`, and then `remove`. -/
inductive EndPc where
  | idle
  | fail (st : Status) (pc : FailPc)
  | remove (st : Status)
  | done (st : Status)
  deriving DecidableEq

/-- The receiver. -/
inductive RecvPc where
  /-- Between two calls. -/
  | idle
  /-- At the top of the loop. -/
  | pop
  | select
  /-- The `halfClosed` case. -/
  | halfPop
  /-- In `recvEnded`: pop, read `endFrame`, read `endSt`. -/
  | endedPop
  | endedFrame
  | endedStatus
  /-- In `applyEnd`: record, cancel. -/
  | record (f : Frame)
  | cancel (f : Frame)
  /-- The `ctx.Done` case: look at `ended`, pop. -/
  | ctxEnded (e : CtxErr)
  | ctxPop (e : CtxErr)
  /-- In `deliverPayload`. -/
  | deliver (f : Frame)
  deriving DecidableEq

/-- The cases of the `select` in `RecvRawContext`. -/
inductive Case where
  | recvSignal
  | halfClosed
  | ended
  | ctxDone
  | callerDone
  deriving DecidableEq

/-- One stream, its parties, and what the receiver was given so far. -/
structure Inbound where
  server : Bool
  stream : Stream
  registered : Bool := true
  loop : LoopPc := .read
  ender : EndPc := .idle
  recv : RecvPc := .idle
  /-- The error of the context of the receive in progress. -/
  callerErr : Option CtxErr := none
  /-- What the receives have returned, oldest first. -/
  results : List (Except GoError Payload) := []
  /-- Ghost: the messages routed before the end of the input. -/
  input : List Payload := []
  /-- Ghost: one of them was refused by `tryDeliver`. -/
  refused : Bool := false
  deriving DecidableEq

/-- The steps. -/
inductive InboundAct where
  | route (f : Frame)
  | loop
  | connLost (closed : Bool)
  | callEnd (st : Status)
  | ender
  | expire (e : CtxErr)
  | recvRawContext (ctx : Option CtxErr)
  | callerDone (e : CtxErr)
  | recv
  | select (c : Case)
  deriving DecidableEq

/-- The status the local `end` has recorded. -/
def EndPc.recorded : EndPc → Option Status
  | .fail st .close | .fail st .cancel | .remove st | .done st => some st
  | _ => none

/-- The local `end` was one with OK. -/
def EndPc.okRecorded (e : EndPc) : Bool := e.recorded.any (·.code = Code.ok)

namespace Inbound

/-- The input of the stream is still open: no HALF_CLOSE, no terminal frame, no
local end with OK.  A local end with an error, an overflow and the loss of the
connection do not close it. -/
def inputOpen (x : Inbound) : Bool :=
  !x.stream.halfClosed && x.stream.endFrame.isNone && !x.ender.okRecorded

/-! ## The read loop -/

/-- The input, with a message that is routed now. -/
def noteInput (x : Inbound) (f : Frame) : List Payload :=
  if x.inputOpen then x.input ++ [f.payload] else x.input

/-- `route` for a MSG; `tryDeliver` up to its unlock. -/
def routeMsg (x : Inbound) (f : Frame) : Inbound :=
  match x.stream.deliver f with
  | .dropped => { x with input := x.noteInput f }
  | .over =>
      { x with
        input := x.noteInput f
        refused := x.refused || x.inputOpen
        loop := .over .record }
  | .queued s => { x with stream := s, input := x.noteInput f, loop := .signal }

/-- `route` up to the first point at which another party can intervene.  An
OPEN does not touch a stream that exists. -/
def route (x : Inbound) (f : Frame) : Inbound :=
  if x.registered then
    match f.kind with
    | .kindOpen => x
    | .kindHalfClose => { x with stream := x.stream.halfClose }
    | .kindHeader =>
        { x with stream := if x.server then x.stream else x.stream.setLeadingHeader f.headers }
    | .kindWindowUpdate => { x with stream := x.stream.creditSend f.window.toNat }
    | .kindEnd | .kindRst =>
        -- `endOne` runs its function once: `ended` is closed or closing
        if x.stream.ended then { x with loop := .remove }
        else { x with stream := { x.stream with endFrame := some f }, loop := .close }
    | _ => x.routeMsg f
  else x

/-- The next step of the read loop inside `route` or `failAll`. -/
def loopStep (x : Inbound) : Option Inbound :=
  match x.loop with
  | .read | .exited => none
  | .signal => some { x with stream := x.stream.signalRecv, loop := .read }
  | .close => some { x with stream := x.stream.closeEnded, loop := .remove }
  | .remove => some { x with registered := false, loop := .read }
  | .over pc =>
      (pc.step false overflowErr x.stream).map fun y =>
        match y.2 with
        | some pc' => { x with stream := y.1, loop := .over pc' }
        | none => { x with stream := y.1, loop := .remove }
  | .lost closed pc =>
      (pc.step false (connLostErr closed) x.stream).map fun y =>
        match y.2 with
        | some pc' => { x with stream := y.1, loop := .lost closed pc' }
        | none => { x with stream := y.1, registered := false, loop := .exited }

/-! ## The local end -/

/-- The next step of the goroutine that ends the stream. -/
def enderStep (x : Inbound) : Option Inbound :=
  match x.ender with
  | .idle | .done _ => none
  | .fail st pc =>
      (pc.step (decide (x.loop = .close)) (.status st) x.stream).map fun y =>
        match y.2 with
        | some pc' => { x with stream := y.1, ender := .fail st pc' }
        | none => { x with stream := y.1, ender := .remove st }
  | .remove st => some { x with registered := false, ender := .done st }

/-! ## The receiver -/

/-- The receive returns. -/
def finish (x : Inbound) (r : Except GoError Payload) : Inbound :=
  { x with recv := .idle, results := x.results ++ [r] }

/-- `popRecv`: deliver the oldest message, or go on with `otherwise`. -/
def popOr (x otherwise : Inbound) : Inbound :=
  match x.stream.popRecv with
  | some (f, s) => { x with stream := s, recv := .deliver f }
  | none => otherwise

/-- What a receive returns for a terminal frame, after `applyEnd`. -/
def endError (f : Frame) : GoError :=
  let st := statusFromProto f.status
  if f.kind = .kindRst then
    .status (if st.code = Code.ok then
      { code := Code.canceled, message := "stream reset".toUTF8 } else st)
  else if st.code ≠ Code.ok then .status st
  else .eof

/-- What a receive returns when the stream ended without a frame. -/
def statusError : Option Status → GoError
  | some st => if st.code ≠ Code.ok then .status st else .eof
  | none => .eof

/-- The next step of `RecvRawContext`, its `select` apart. -/
def recvStep (x : Inbound) : Option Inbound :=
  match x.recv with
  | .idle | .select => none
  | .pop => some (x.popOr { x with recv := .select })
  | .halfPop => some (x.popOr (x.finish (.error .eof)))
  | .endedPop => some (x.popOr { x with recv := .endedFrame })
  | .endedFrame =>
      match x.stream.endFrame with
      | none => some { x with recv := .endedStatus }
      | some f =>
          if f.kind = .kindEnd ∨ f.kind = .kindRst then some { x with recv := .record f }
          else some (x.finish (.error .eof))
  | .endedStatus => some (x.finish (.error (statusError x.stream.endSt)))
  | .record f => some { x with stream := x.stream.recordEnd f, recv := .cancel f }
  | .cancel f => some ({ x with stream := x.stream.cancel }.finish (.error (endError f)))
  | .ctxEnded e => some { x with recv := if x.stream.ended then .endedPop else .ctxPop e }
  | .ctxPop e => some (x.popOr (x.finish (.error (.ctx e))))
  | .deliver f =>
      some ({ x with stream := (x.stream.returnCredit f.payload.length).1 }.finish
        (.ok f.payload))

/-- The `select` of `RecvRawContext`: any ready case may be chosen. -/
def selectStep (x : Inbound) : Case → Option Inbound
  | .recvSignal =>
      if x.stream.recvSignal then
        some { x with stream := { x.stream with recvSignal := false }, recv := .pop }
      else none
  | .halfClosed => if x.stream.halfClosed then some { x with recv := .halfPop } else none
  | .ended => if x.stream.ended then some { x with recv := .endedPop } else none
  | .ctxDone => x.stream.ctxErr.map fun e => { x with recv := .ctxEnded e }
  | .callerDone => x.callerErr.map fun e => x.finish (.error (.ctx e))

/-! ## The system -/

/-- A stream that was just made. -/
def start (server : Bool) (ctxErr : Option CtxErr) (id : UInt32) (method : Text) (W : ℤ) :
    Inbound :=
  { server, stream := newStream ctxErr id method W }

def step (x : Inbound) : InboundAct → Option Inbound
  | .route f => if x.loop = .read then some (x.route f) else none
  | .loop => x.loopStep
  | .connLost closed =>
      if x.loop = .read then
        some { x with loop := if x.registered then .lost closed .record else .exited }
      else none
  | .callEnd st => if x.ender = .idle then some { x with ender := .fail st .record } else none
  | .ender => x.enderStep
  | .expire e => some { x with stream := x.stream.expire e }
  | .recvRawContext ctx =>
      if x.recv = .idle then some { x with recv := .pop, callerErr := ctx } else none
  | .callerDone e => some { x with callerErr := x.callerErr.or (some e) }
  | .recv => x.recvStep
  | .select c => if x.recv = .select then x.selectStep c else none

/-! ## The pieces of the read loop together -/

open Machine

/-- The read loop, left alone, gets from `x` back to `ReadFrame` with the stream
in the state `r` says. -/
def LoopEnds (x : Inbound) (r : Routed) : Prop :=
  ∃ n y, exec step Always x (List.replicate n .loop) = some y ∧
    y.loop = .read ∧ y.stream = r.stream ∧ y.registered = !r.leaves

/-- `signalEnd` and the removal, piece by piece. -/
theorem loopEnds_signalEnd {x : Inbound} {f : Frame} (hr : x.registered = true)
    (hk : f.kind = .kindEnd ∨ f.kind = .kindRst) :
    (x.route f).LoopEnds (.removed (x.stream.signalEnd f)) := by
  have hroute : x.route f = if x.stream.ended then { x with loop := .remove }
      else { x with stream := { x.stream with endFrame := some f }, loop := .close } := by
    rcases hk with hk | hk <;> simp [route, hr, hk]
  rw [hroute, Stream.signalEnd]
  split
  · exact ⟨1, _, rfl, rfl, rfl, rfl⟩
  · exact ⟨2, _, rfl, rfl, rfl, rfl⟩

/-- `tryDeliver` and, after an overflow, `failWith` and the removal. -/
theorem loopEnds_routeMsg {x : Inbound} (f : Frame) (hl : x.loop = .read)
    (hr : x.registered = true) :
    (x.routeMsg f).LoopEnds
      (match x.stream.tryDeliver f with
      | some s => .kept s
      | none => .overflowed (x.stream.failWith (some overflowErr))) := by
  cases hd : x.stream.deliver f with
  | dropped =>
      simp only [routeMsg, Stream.tryDeliver, hd]
      exact ⟨0, _, rfl, hl, rfl, hr⟩
  | «over» =>
      simp only [routeMsg, Stream.tryDeliver, hd]
      exact ⟨4, _, rfl, rfl, rfl, rfl⟩
  | queued s =>
      simp only [routeMsg, Stream.tryDeliver, hd]
      exact ⟨1, _, rfl, rfl, rfl, hr⟩

/-- **The pieces make up `route`.**  If nobody else takes a step between them, the
read loop's critical sections have the effect of `Stream.onFrame`. -/
theorem loopEnds_route {x : Inbound} {f : Frame} (hl : x.loop = .read)
    (hr : x.registered = true) (hk : f.kind ≠ .kindOpen) :
    (x.route f).LoopEnds (x.stream.onFrame x.server f) := by
  unfold Stream.onFrame
  split
  case h_1 h => exact ⟨0, _, rfl, by simp [route, hr, h, hl, Routed.stream, Routed.leaves]⟩
  case h_2 h => exact ⟨0, _, rfl, by simp [route, hr, h, hl, Routed.stream, Routed.leaves]⟩
  case h_3 h => exact ⟨0, _, rfl, by simp [route, hr, h, hl, Routed.stream, Routed.leaves]⟩
  case h_4 h => exact loopEnds_signalEnd hr (.inl h)
  case h_5 h => exact loopEnds_signalEnd hr (.inr h)
  case h_6 h₁ h₂ h₃ h₄ h₅ =>
    have hmsg : x.route f = x.routeMsg f := by
      rw [route, if_pos hr]
      split <;> first | rfl | contradiction
    rw [hmsg]
    exact loopEnds_routeMsg f hl hr

end Inbound

/-- What the unary registrars give their handler after the first receive:
`io.EOF` counts as an empty request, another error ends the call. -/
def unaryRequest : Except GoError Payload → Except GoError Payload
  | .ok raw => .ok raw
  | .error .eof => .ok []
  | .error e => .error e

end WsProto.Go
