import WsProto.Go.Inbound.Model

/-!
# The loss of the connection, as a client call sees it: the model

One call on a Go client: `newClientStream` registers the stream and writes OPEN, then a
sender goes through any sequence of `Send` and `CloseSend` and a receiver through any
sequence of `Recv`, while the read loop routes the frames of the stream.  The connection may
be lost at any point: from then on `WriteFrame` returns an error that is not a `*Status`, and
`ReadFrame` fails, which `disconnectErr` classifies and `failAll` hands to the stream, piece
by piece.  `Mux.Close` sets `closedFlag` before it closes the connection.

The call is made on a mux: the other branch of `ClientConn.NewStream`, in which `cc.mux` is
nil and `waitForMux` waits for the next connection, is modelled in `WsProto.Go.Reconnect`.

What the operations return is logged.  Ghosts tell which of the errors are due to the loss:
the error of a write on a lost connection, a status that `failAll` has recorded, and whatever
is returned because `failAll` has closed `ended` or cancelled the context.
-/

namespace WsProto.Go.ConnLoss

/-! ## The model -/

/-- The operations of a call. -/
inductive Op where
  | newStream
  | send
  | closeSend
  | recv
  deriving DecidableEq

/-- What an operation has returned. -/
structure Outcome where
  op : Op
  /-- Nil for success. -/
  err : Option GoError := none
  /-- Ghost: the error is that of `WriteFrame`. -/
  written : Bool := false
  /-- Ghost: the error is due to the loss of the connection. -/
  lost : Bool := false
  deriving DecidableEq

/-- Where the sender is. -/
inductive SendPc where
  /-- In `newClientStream`: about to register the stream. -/
  | made
  /-- About to write OPEN. -/
  | opening
  | idle
  /-- In `SendRaw`: about to lock the mutex. -/
  | want (b : Payload)
  /-- In `sendBlockErrLocked`, with the mutex: no status is recorded, about to look at
  `ended`; then at the context. -/
  | chkEnded (b : Payload)
  | chkCtx (b : Payload)
  /-- In `sendCond.Wait`. -/
  | parked (b : Payload)
  /-- The window is charged; about to write MSG. -/
  | msg (b : Payload)
  /-- In `CloseSend`: about to write HALF_CLOSE. -/
  | half
  /-- `newClientStream` has returned an error. -/
  | refused
  deriving DecidableEq

/-- The sender holds the mutex of the stream across steps. -/
def SendPc.holds : SendPc → Bool
  | .chkEnded _ | .chkCtx _ => true
  | _ => false

/-- The caller has the stream. -/
def SendPc.hasStream : SendPc → Bool
  | .made | .opening | .refused => false
  | _ => true

/-- An error that is not a status. -/
def raw : GoError → Bool
  | .eof | .ctx _ | .other _ => true
  | .status _ | .nilStatus | .grpc _ => false

/-- The connection, and what its loss has done to the stream. -/
structure Loss where
  /-- `Mux.closedFlag`. -/
  closedFlag : Bool := false
  /-- The connection is lost; whether `Mux.Close` was called before. -/
  lost : Option Bool := none
  /-- Ghost: what `disconnectErr` found in `closedFlag`. -/
  found : Option Bool := none
  /-- Ghost: `failAll` has recorded the status of the stream, closed its `ended`, cancelled
  its context. -/
  recorded : Bool := false
  ended : Bool := false
  cancelled : Bool := false
  deriving DecidableEq

structure Call where
  x : Inbound
  sender : SendPc := .made
  loss : Loss := {}
  log : List Outcome := []
  deriving DecidableEq

inductive Act where
  /-- `Mux.Close` sets `closedFlag`. -/
  | close
  /-- The connection is lost: the peer, the network, or the rest of `Mux.Close`. -/
  | lose
  /-- `ReadFrame` has failed: `disconnectErr`, and `failAll` begins. -/
  | disconnect
  /-- A step of the read loop, of the receiver, or of a context. -/
  | inbound (a : InboundAct)
  | register
  | send (b : Payload)
  /-- The next piece of `SendRaw` up to its write. -/
  | sendTurn
  /-- A waiting `SendRaw` wakes up. -/
  | wake
  | closeSend
  /-- The write of the sender ends. -/
  | write (e : Option GoError)
  deriving DecidableEq

/-- The piece of `failWith` that `failAll` does in a step. -/
def failing (x : Inbound) : InboundAct → Option FailPc
  | .loop =>
      match x.loop with
      | .lost _ pc => some pc
      | _ => none
  | _ => none

/-- The steps that take the mutex of the stream. -/
def locks (x : Inbound) : InboundAct → Bool
  | .route f => decide (f.kind ≠ .kindHalfClose)
  | .loop =>
      match x.loop with
      | .over .record | .lost _ .record => true
      | _ => false
  | .recv =>
      match x.recv with
      | .cancel _ | .ctxEnded _ => false
      | _ => true
  | _ => false

/-- The ghosts of a piece of `failAll`. -/
def Loss.note (l : Loss) (s : Stream) : Option FailPc → Loss
  | some .record => { l with recorded := true }
  | some .close => { l with ended := l.ended || !s.ended }
  | some .cancel => { l with cancelled := l.cancelled || s.ctxErr.isNone }
  | none => l

namespace Call

/-- The steps of the stream that can happen now: no frame arrives on a lost connection, the
stream of a client has no local `end`, and only a stream that was returned is received from. -/
def enabled (c : Call) : InboundAct → Bool
  | .route _ => c.loss.lost.isNone
  | .connLost _ | .callEnd _ | .ender => false
  | .recvRawContext _ => c.sender.hasStream
  | _ => true

/-- The result of a receive in this step is due to the loss: the status is the one `failAll`
has recorded, or it is `failAll` that has cancelled the context. -/
def recvLost (c : Call) : InboundAct → Bool
  | .recv =>
      match c.x.recv with
      | .endedStatus => c.loss.recorded
      | .ctxPop _ => c.loss.cancelled
      | _ => false
  | _ => false

/-- The log entry of a receive. -/
def received (c : Call) (a : InboundAct) : Except GoError Payload → Outcome
  | .ok _ => { op := .recv }
  | .error e => { op := .recv, err := some e, lost := c.recvLost a }

/-- A step of the stream, with the ghosts of `failAll` and the results of the receiver. -/
def advance (c : Call) (a : InboundAct) (x' : Inbound) : Call :=
  { c with
    x := x'
    loss := c.loss.note c.x.stream (failing c.x a)
    log := c.log ++ (x'.results.drop c.x.results.length).map (c.received a) }

/-- The sender's operation returns. -/
def finish (c : Call) (pc : SendPc) (o : Outcome) : Call := { c with sender := pc, log := c.log ++ [o] }

/-- The next piece of `SendRaw` up to its write. -/
def sendTurn (c : Call) : Option Call :=
  match c.sender with
  | .want b =>
      if 0 < c.x.stream.sendWindow then
        some { c with
          x := { c.x with stream := c.x.stream.chargeSend b.length }
          sender := .msg b }
      else
        match c.x.stream.endStErr with
        | some e => some (c.finish .idle { op := .send, err := some e, lost := c.loss.recorded })
        | none => some { c with sender := .chkEnded b }
  | .chkEnded b =>
      match c.x.stream.endedErr with
      | some e => some (c.finish .idle { op := .send, err := some e, lost := c.loss.ended })
      | none => some { c with sender := .chkCtx b }
  | .chkCtx b =>
      match c.x.stream.ctxErr with
      | some e => some (c.finish .idle { op := .send, err := some (.ctx e), lost := c.loss.cancelled })
      | none => some { c with sender := .parked b }
  | _ => none

/-- The operation whose write is in progress. -/
def writing (c : Call) : Option Op :=
  match c.sender with
  | .opening => some .newStream
  | .msg _ => some .send
  | .half => some .closeSend
  | _ => none

/-- The write of `op` ends with an error; a failed OPEN is unregistered. -/
def writeErr (c : Call) (op : Op) (e : GoError) : Call :=
  let o : Outcome := { op, err := some e, written := true, lost := c.loss.lost.isSome }
  if op = .newStream then { c with x := { c.x with registered := false } }.finish .refused o
  else c.finish .idle o

/-- `WriteFrame` returns: on a lost connection with an error that is not a status. -/
def writeEnds (c : Call) (op : Op) : Option GoError → Option Call
  | none => if c.loss.lost.isSome then none else some (c.finish .idle { op })
  | some e => if c.loss.lost.isSome && !raw e then none else some (c.writeErr op e)

def step (c : Call) : Act → Option Call
  | .close => some { c with loss := { c.loss with closedFlag := true } }
  | .lose =>
      some { c with loss := { c.loss with lost := c.loss.lost.or (some c.loss.closedFlag) } }
  | .disconnect =>
      if c.loss.lost.isSome then
        (c.x.step (.connLost c.loss.closedFlag)).map fun x' =>
          { c with x := x', loss := { c.loss with found := some c.loss.closedFlag } }
      else none
  | .inbound a =>
      if c.enabled a && !(c.sender.holds && locks c.x a) then
        (c.x.step a).map (c.advance a)
      else none
  | .register =>
      if c.sender = .made then
        some { c with x := { c.x with registered := true }, sender := .opening }
      else none
  | .send b => if c.sender = .idle then some { c with sender := .want b } else none
  | .sendTurn => c.sendTurn
  | .wake =>
      match c.sender with
      | .parked b => some { c with sender := .want b }
      | _ => none
  | .closeSend =>
      if c.sender = .idle then
        match c.x.stream.closeSend with
        | none => some (c.finish .idle { op := .closeSend })
        | some (s, _) => some { c with x := { c.x with stream := s }, sender := .half }
      else none
  | .write e => c.writing.bind fun op => c.writeEnds op e

/-- `newClientStream` has made the stream. -/
def start (ctxErr : Option CtxErr) (id : UInt32) (method : Text) (W : ℤ) : Call :=
  { x := { Inbound.start false ctxErr id method W with registered := false } }

end Call

/-- The error `InvokeUnary` returns, given what `NewStream`, `Send`, `CloseSend`, `Recv` and
the `Recv` that drains the trailing END have returned so far: the first one, where `io.EOF`
from the last is none. -/
def invokeUnary (log : List Outcome) : Option Outcome :=
  ((log.take 4).find? fun o => o.err.isSome).or
    ((log.drop 4).head?.filter fun o => o.err.isSome && decide (o.err ≠ some .eof))

end WsProto.Go.ConnLoss
