import WsProto.Go.Ids
import WsProto.Go.Cancel

/-!
# A server connection over a pipe

`NewPipe` joins two muxes by two buffered channels and one `done` channel that either
end's `Close` closes.  `ServeConn` runs a server mux on one end and returns when the
context of that mux is done: because the caller's context was cancelled, or because the
read loop has returned.  `DialConn` runs a client mux on the other end, under a context
of its own.

* `pipe_closed_of_returned` — in every run in which the server's context is not
  cancelled before the pipe is closed, the pipe is closed once `ServeConn` has returned,
  and the client's read loop can only go on to fail every registered stream;
* `served_pipe_open` — `ServeConn` does not close its end: cancelling its context leaves
  the client's stream on an open pipe nobody reads.
-/

namespace WsProto.Go.Pipe

open Machine ClientStreams

/-! ## The pipe -/

/-- The capacity of the channels of `newPipe`. -/
def pipeBuffer : ℕ := 16

/-- `errPipeClosed`. -/
def errPipeClosed : GoError := .other "wsrpc: pipe closed".toUTF8

/-- The cases of the `select` of `WriteFrame` and `ReadFrame`. -/
inductive Case where
  /-- The channel. -/
  | chan
  /-- `done`. -/
  | done
  /-- The caller's context. -/
  | ctx
  deriving DecidableEq

/-- `WriteFrame`, if the case is ready: the channel afterwards, and the error. -/
def writeFrame (out : List Frame) (done : Bool) (ctxErr : Option CtxErr) (f : Frame) :
    Case → Option (List Frame × Option GoError)
  | .chan => if out.length < pipeBuffer then some (out ++ [f], none) else none
  | .done => if done then some (out, some errPipeClosed) else none
  | .ctx => ctxErr.map fun e => (out, some (.ctx e))

/-- `ReadFrame`, if the case is ready: the frame and what is left of the channel, or the
error. -/
def readFrame (inp : List Frame) (done : Bool) (ctxErr : Option CtxErr) :
    Case → Option (Except GoError (Frame × List Frame))
  | .chan =>
      match inp with
      | [] => none
      | f :: rest => some (.ok (f, rest))
  | .done => if done then some (.error errPipeClosed) else none
  | .ctx => ctxErr.map fun e => .error (.ctx e)

/-- `ReadFrame` fails only on a closed pipe or a done context. -/
theorem readFrame_error {inp : List Frame} {done : Bool} {ctxErr : Option CtxErr} {c : Case}
    {e : GoError} (h : readFrame inp done ctxErr c = some (.error e)) :
    done = true ∨ ctxErr ≠ none := by
  cases c with
  | chan => cases inp <;> simp [readFrame] at h
  | done =>
      simp only [readFrame] at h
      split_ifs at h with hd
      exact Or.inl hd
  | ctx =>
      obtain ⟨e', he', -⟩ := Option.map_eq_some_iff.1 h
      exact Or.inr (by simp [he'])

/-! ## The two ends -/

/-- A server mux and a client mux on the two ends. -/
structure Conn where
  server : Mux
  /-- The server's read loop runs. -/
  reading : Bool := true
  /-- `ServeConn` has returned. -/
  returned : Bool := false
  client : Client
  toServer : List Frame := []
  toClient : List Frame := []
  done : Bool := false
  deriving DecidableEq

inductive Act where
  /-- The context given to `ServeConn` is cancelled. -/
  | cancelServer
  /-- One turn of the server's read loop, with the case `ReadFrame` takes. -/
  | serverRead (c : Case)
  /-- A handler works on its stream, or the stream's context ends; a frame to write goes
  the way of the case. -/
  | serverOp (r : Ref) (o : StreamOp) (c : Case)
  /-- `end`: END, and the stream fails. -/
  | serverEnd (r : Ref) (st : Status) (c : Case)
  | serverRemove (r : Ref)
  /-- One turn of the control writer. -/
  | serverCtrl (c : Case)
  /-- `<-mux.ctx.Done()`: `ServeConn` returns. -/
  | serveReturn
  /-- The context given to `DialConn` is cancelled. -/
  | cancelClient
  /-- `newClientStream` up to its write. -/
  | newClientStream (ctxErr : Option CtxErr) (method : Text)
  | register (i : ℕ)
  /-- The write of OPEN. -/
  | writeOpen (i : ℕ) (headers : Option Headers) (c : Case)
  | clientOp (r : Ref) (o : StreamOp) (c : Case)
  /-- One turn of the client's read loop. -/
  | clientRead (c : Case)
  /-- `Close` of the client's mux. -/
  | clientClose
  /-- Whoever holds an end closes it. -/
  | closePipe
  deriving DecidableEq

namespace Conn

/-- A frame to write, if there is one. -/
def send (out : List Frame) (done : Bool) (ctxErr : Option CtxErr) (f : Option Frame) (c : Case) :
    Option (List Frame) :=
  match f with
  | none => some out
  | some f => (writeFrame out done ctxErr f c).map (·.1)

/-- The client's read loop takes a frame, or `ReadFrame` has failed. -/
def clientAct : Except GoError (Frame × List Frame) → ClientStreams.Act
  | .ok p => .route p.1
  | .error _ => .readFail

/-- The stream a call is about to write the OPEN of. -/
def opening (x : Client) (i : ℕ) : Option Stream :=
  match x.calls[i]? with
  | some (.registered r _) => x.mux.objs[r]?
  | _ => none

def step (x : Conn) : Act → Option Conn
  | .cancelServer => some { x with server := { x.server with ctxErr := some .canceled } }
  | .serverRead c =>
      if x.reading then
        (readFrame x.toServer x.done x.server.ctxErr c).map fun
          | .ok (f, rest) => { x with server := (x.server.route f).1, toServer := rest }
          | .error _ =>
              { x with
                server := { x.server.failAll x.server.disconnectErr with ctxErr := some .canceled }
                reading := false }
      else none
  | .serverOp r o c =>
      (x.server.objs[r]?).bind fun s =>
        (send x.toClient x.done s.ctxErr (o.run s).2 c).map fun out =>
          { x with server := x.server.setObj r (o.run s).1, toClient := out }
  | .serverEnd r st c =>
      (x.server.objs[r]?).bind fun s =>
        (send x.toClient x.done x.server.ctxErr (some (s.endFrameOf st s.takeTrailer)) c).map
          fun out =>
            { x with
              server := x.server.setObj r (s.failWith (some (.status st)))
              toClient := out }
  | .serverRemove r =>
      (x.server.objs[r]?).map fun s => { x with server := x.server.remove s.id }
  | .serverCtrl c =>
      match x.server.ctrlCh with
      | [] => none
      | f :: rest =>
          (send x.toClient x.done x.server.ctxErr (some f) c).map fun out =>
            { x with server := { x.server with ctrlCh := rest }, toClient := out }
  | .serveReturn => if x.server.ctxErr.isSome then some { x with returned := true } else none
  | .cancelClient =>
      some { x with
        client := { x.client with mux := { x.client.mux with ctxErr := some .canceled } } }
  | .newClientStream ctxErr method =>
      (x.client.step (.newClientStream ctxErr method)).map fun c => { x with client := c }
  | .register i => (x.client.step (.register i)).map fun c => { x with client := c }
  | .writeOpen i headers c =>
      (opening x.client i).bind fun s =>
        (writeFrame x.toServer x.done s.ctxErr
            (Cancel.Pair.openFrame s.id s.method headers) c).bind fun w =>
          (x.client.step (if w.2.isNone then .openOk i else .openErr i)).map fun cl =>
            { x with client := cl, toServer := w.1 }
  | .clientOp r o c =>
      (x.client.mux.objs[r]?).bind fun s =>
        (send x.toServer x.done s.ctxErr (o.run s).2 c).bind fun out =>
          (x.client.step (.op r o)).map fun cl => { x with client := cl, toServer := out }
  | .clientRead c =>
      (readFrame x.toClient x.done x.client.mux.ctxErr c).bind fun got =>
        (x.client.step (clientAct got)).map fun cl =>
          { x with
            client := cl
            toClient := (got.toOption.map (·.2)).getD x.toClient }
  | .clientClose =>
      (x.client.step .close).map fun cl =>
        { x with
          client := { cl with mux := { cl.mux with ctxErr := some .canceled } }, done := true }
  | .closePipe => some { x with done := true }

/-- Two fresh muxes on a fresh pipe. -/
def start (Ws N Wc : ℤ) : Conn := { server := newMuxConfig true Ws N, client := Client.start Wc }

end Conn

/-- The condition on a step: the server's context is not cancelled while the pipe is
open. -/
def ClosedFirst (x : Conn) : Act → Prop
  | .cancelServer => x.done = true
  | _ => True

instance (x : Conn) : (a : Act) → Decidable (ClosedFirst x a)
  | .cancelServer => inferInstanceAs (Decidable (_ = _))
  | .serverRead _ | .serverOp _ _ _ | .serverEnd _ _ _ | .serverRemove _ | .serverCtrl _
  | .serveReturn | .cancelClient | .newClientStream _ _ | .register _ | .writeOpen _ _ _
  | .clientOp _ _ _ | .clientRead _ | .clientClose | .closePipe => inferInstanceAs (Decidable True)

/-! ## One step -/

variable {x x' : Conn}

/-- A server mux whose context is done has a closed pipe, and `ServeConn` returns only
then. -/
structure Inv (x : Conn) : Prop where
  closed : x.server.ctxErr ≠ none → x.done = true
  returned : x.returned = true → x.server.ctxErr ≠ none
  numbered : Ids.Numbered x.client.mux

theorem inv_start (Ws N Wc : ℤ) : Inv (Conn.start Ws N Wc) where
  closed h := absurd rfl h
  returned h := by cases h
  numbered := Ids.numbered_start Wc

/-- A step that leaves the server's context alone. -/
theorem Inv.keeps (hi : Inv x) (hctx : x'.server.ctxErr = x.server.ctxErr)
    (hret : x'.returned = x.returned) (hdone : x.done = true → x'.done = true)
    (hnum : Ids.Numbered x'.client.mux) : Inv x' where
  closed h := hdone (hi.closed (hctx ▸ h))
  returned h := hctx ▸ hi.returned (hret ▸ h)
  numbered := hnum

/-- A step of the client. -/
theorem Inv.client (hi : Inv x) {a : ClientStreams.Act} {c : Client} (hc : x.client.step a = some c)
    (hclient : x'.client = c) (hserver : x'.server = x.server) (hret : x'.returned = x.returned)
    (hdone : x.done = true → x'.done = true) : Inv x' := by
  refine hi.keeps (by rw [hserver]) hret hdone ?_
  rw [hclient]
  exact Ids.numbered_step hi.numbered hc

/-- One turn of the server's read loop: if `ReadFrame` fails, the pipe is closed or the
context was done before. -/
theorem inv_serverRead {c : Case} (hi : Inv x) (h : x.step (.serverRead c) = some x') : Inv x' := by
  simp only [Conn.step] at h
  split_ifs at h
  obtain ⟨got, hgot, rfl⟩ := Option.map_eq_some_iff.1 h
  cases got with
  | ok p => exact hi.keeps (x.server.route_mux p.1).1 rfl id hi.numbered
  | error e =>
      have hdone : x.done = true := (readFrame_error hgot).elim id hi.closed
      exact { closed := fun _ => hdone, returned := fun _ => by simp, numbered := hi.numbered }

/-- **One step** that meets the condition. -/
theorem inv_step {a : Act} (hi : Inv x) (hok : ClosedFirst x a) (h : x.step a = some x') :
    Inv x' := by
  cases a with
  | cancelServer =>
      cases h
      exact { closed := fun _ => hok, returned := fun _ => by simp, numbered := hi.numbered }
  | serverRead c => exact inv_serverRead hi h
  | serverOp r o c =>
      obtain ⟨s, -, h⟩ := Option.bind_eq_some_iff.1 h
      obtain ⟨out, -, rfl⟩ := Option.map_eq_some_iff.1 h
      exact hi.keeps rfl rfl id hi.numbered
  | serverEnd r st c =>
      obtain ⟨s, -, h⟩ := Option.bind_eq_some_iff.1 h
      obtain ⟨out, -, rfl⟩ := Option.map_eq_some_iff.1 h
      exact hi.keeps rfl rfl id hi.numbered
  | serverRemove r =>
      obtain ⟨s, -, rfl⟩ := Option.map_eq_some_iff.1 h
      exact hi.keeps rfl rfl id hi.numbered
  | serverCtrl c =>
      simp only [Conn.step] at h
      split at h
      · cases h
      · obtain ⟨out, -, rfl⟩ := Option.map_eq_some_iff.1 h
        exact hi.keeps rfl rfl id hi.numbered
  | serveReturn =>
      simp only [Conn.step] at h
      split_ifs at h with hctx
      cases h
      exact {
        closed := hi.closed
        returned := fun _ => Option.isSome_iff_ne_none.1 hctx
        numbered := hi.numbered }
  | cancelClient =>
      cases h
      refine hi.keeps rfl rfl id ?_
      exact hi.numbered.keeps (Mux.keeps_of_objs rfl) rfl hi.numbered.named rfl rfl
  | newClientStream ctxErr method =>
      rw [Conn.step] at h
      obtain ⟨c, hc, rfl⟩ := Option.map_eq_some_iff.1 h
      exact hi.client hc rfl rfl rfl id
  | register i =>
      obtain ⟨c, hc, rfl⟩ := Option.map_eq_some_iff.1 h
      exact hi.client hc rfl rfl rfl id
  | writeOpen i headers c =>
      obtain ⟨s, -, h⟩ := Option.bind_eq_some_iff.1 h
      obtain ⟨w, -, h⟩ := Option.bind_eq_some_iff.1 h
      obtain ⟨cl, hcl, rfl⟩ := Option.map_eq_some_iff.1 h
      exact hi.client hcl rfl rfl rfl id
  | clientOp r o c =>
      obtain ⟨s, -, h⟩ := Option.bind_eq_some_iff.1 h
      obtain ⟨out, -, h⟩ := Option.bind_eq_some_iff.1 h
      obtain ⟨cl, hcl, rfl⟩ := Option.map_eq_some_iff.1 h
      exact hi.client hcl rfl rfl rfl id
  | clientRead c =>
      obtain ⟨got, -, h⟩ := Option.bind_eq_some_iff.1 h
      obtain ⟨cl, hcl, rfl⟩ := Option.map_eq_some_iff.1 h
      exact hi.client hcl rfl rfl rfl id
  | clientClose =>
      rw [Conn.step] at h
      obtain ⟨cl, hcl, rfl⟩ := Option.map_eq_some_iff.1 h
      have hnum := Ids.numbered_step hi.numbered hcl
      refine hi.keeps rfl rfl (fun _ => rfl) ?_
      exact hnum.keeps (Mux.keeps_of_objs rfl) rfl hnum.named rfl rfl
  | closePipe => cases h; exact hi.keeps rfl rfl (fun _ => rfl) hi.numbered

/-! ## Whole runs -/

/-- On a closed pipe the client's read loop can fail, and then every registered stream
has ended. -/
theorem clientRead_done (hnum : Ids.Numbered x.client.mux) (hdone : x.done = true)
    (hreading : x.client.reading = true) :
    ∃ x', x.step (.clientRead .done) = some x' ∧ x'.client.reading = false ∧
      ∀ id r, x.client.mux.streams.lookup id = some r → Client.Ended x'.client.mux r := by
  let m : Mux :=
    { x.client.mux.failAll x.client.mux.disconnectErr with ctxErr := some .canceled }
  have hstep : x.step (.clientRead .done) =
      some { x with client := { x.client with mux := m, reading := false } } := by
    simp [Conn.step, readFrame, hdone, Conn.clientAct, Client.step, hreading, m, Except.toOption]
  refine ⟨_, hstep, rfl, ?_⟩
  intro id r hl
  obtain ⟨s, hs, -⟩ := hnum.named id r hl
  obtain ⟨s', hs', -, -, -, hend⟩ :=
    x.client.mux.failAll_objs x.client.mux.disconnectErr hs
  exact ⟨s', hs', hend ⟨id, hl⟩⟩

/-- **A finished connection is a closed pipe, exactly if the pipe is closed before the
server's context is cancelled.**  In every run all of whose cancellations come after the
close, `ServeConn` has returned only if the pipe is closed, and the client's read loop, if
it still runs, can fail and then has failed every registered stream; and `ServeConn`
returning after one more cancellation leaves the pipe closed exactly if that cancellation
meets the condition. -/
theorem pipe_closed_of_returned (Ws N Wc : ℤ) :
    ∀ x, Reach Conn.step ClosedFirst (Conn.start Ws N Wc) x →
      (x.returned = true → x.done = true ∧
        (x.client.reading = true → ∃ x', x.step (.clientRead .done) = some x' ∧
          x'.client.reading = false ∧
          ∀ id r, x.client.mux.streams.lookup id = some r → Client.Ended x'.client.mux r)) ∧
      ∀ y z, x.step .cancelServer = some y → y.step .serveReturn = some z →
        (z.done = true ↔ ClosedFirst x .cancelServer) := by
  intro x hx
  have hi : Inv x := hx.invariant (inv_start Ws N Wc) fun _ _ _ hi hok hs => inv_step hi hok hs
  constructor
  · intro hret
    have hdone := hi.closed (hi.returned hret)
    exact ⟨hdone, clientRead_done hi.numbered hdone⟩
  · intro y z hy hz
    cases hy
    cases hz
    exact Iff.rfl

/-- A client that closes its connection: the server notices and `ServeConn` returns. -/
theorem pipe_closed_of_returned_close :
    ∃ x, Reach Conn.step ClosedFirst (Conn.start 0 0 0) x ∧ x.returned = true ∧ x.done = true := by
  obtain ⟨x, hr, hp⟩ := exists_reach_of_exec Conn.step ClosedFirst (Conn.start 0 0 0)
    (fun x : Conn => decide (x.returned = true))
    [.newClientStream none .empty, .register 0, .writeOpen 0 none .chan, .serverRead .chan,
      .clientClose, .serverRead .done, .serveReturn] (by decide)
  have hret : x.returned = true := of_decide_eq_true hp
  exact ⟨x, hr, hret, ((pipe_closed_of_returned 0 0 0 x hr).1 hret).1⟩

/-- **`ServeConn` returns and leaves the pipe open.**  The client's stream is registered
and has not ended, its backlog is empty, and its read loop has no case to take: it waits
on a peer whose read loop has returned. -/
theorem served_pipe_open :
    ∃ x, Reach Conn.step Always (Conn.start 0 0 0) x ∧ x.returned = true ∧ x.reading = false ∧
      x.done = false ∧ x.client.reading = true ∧ x.client.mux.streams.lookup 1 = some 0 ∧
      (x.client.mux.objs[0]?).map (fun s : Stream => (s.ended, s.recvItems)) = some (false, []) ∧
      ∀ c, x.step (.clientRead c) = none := by
  obtain ⟨x, hr, hp⟩ := exists_reach_of_exec Conn.step Always (Conn.start 0 0 0)
    (fun x : Conn => decide (x.returned = true ∧ x.reading = false ∧ x.done = false ∧
      x.client.reading = true ∧ x.client.mux.streams.lookup 1 = some 0 ∧
      (x.client.mux.objs[0]?).map (fun s : Stream => (s.ended, s.recvItems)) = some (false, []) ∧
      x.step (.clientRead .chan) = none ∧ x.step (.clientRead .done) = none ∧
      x.step (.clientRead .ctx) = none))
    [.newClientStream none .empty, .register 0, .writeOpen 0 none .chan, .serverRead .chan,
      .cancelServer, .serverRead .ctx, .serveReturn] (by decide)
  obtain ⟨hret, hreading, hdone, hclient, hl, hs, hchan, hd, hctx⟩ := of_decide_eq_true hp
  refine ⟨x, hr, hret, hreading, hdone, hclient, hl, hs, fun c => ?_⟩
  cases c with
  | chan => exact hchan
  | done => exact hd
  | ctx => exact hctx

end WsProto.Go.Pipe
