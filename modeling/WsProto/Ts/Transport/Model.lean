import WsProto.Ts.Ledger

/-!
# The TypeScript transport

`src/transport.ts` of the transport package: a `WsTransport` makes one mux after the
other, follows what its current mux reports, and keeps three timers.  As in the mux,
every connection ever made stays in the model, since sockets and streams live on after
the transport has replaced them.

* the event loop holds the timers that are armed; a field of the transport holds the id
  of one, which may no longer be armed, and a timer may be armed that no field holds;
* a mux calls its owner in the middle of a method.  The owner does not look at the mux
  then, so the model lets the call come after the method (`notice`, `notify`);
* what the world decides is in the label of a step: the socket `createSocket` returns if
  it is called, and the draw of `Math.random`;
* listeners are not modelled, nor is the clock reading `retryAt`; delays are whole
  milliseconds.
-/

namespace WsProto.Ts

/-- `isOpen`. -/
def Mux.isOpen (m : Mux) : Bool := m.opened && !m.defunct

/-- `ConnectionState`. -/
inductive Phase where
  | paused
  | waiting
  | connecting
  | connected
  | disconnected (error : WsStatusError)
  | closed
  deriving DecidableEq

/-- `WsTransportOptions`; zero stands for an option that is not set. -/
structure Options where
  /-- There is a URL: the transport was not made by `fromSocket`. -/
  dials : Bool := true
  reconnect : Bool := false
  initialMs : ℕ := 0
  maxMs : ℕ := 0
  stableMs : ℕ := 0
  dialTimeoutMs : ℕ := 0
  initialWindow : ℤ := 0
  maxSendBuffer : ℤ := 0
  maxFrameBytes : ℤ := 0
  deriving DecidableEq

/-- A socket when it is handed over: already open or not, and its protocol if that is
the wrong one. -/
structure Socket where
  ready : Bool := false
  got : Option Text := none
  deriving DecidableEq

/-- What a timer does; the dial timeout is for one mux. -/
inductive Callback where
  | retry
  | dial (i : ℕ)
  | stable
  deriving DecidableEq

/-- A timer of the event loop. -/
structure Timer where
  id : ℕ
  delay : ℕ
  callback : Callback
  deriving DecidableEq

/-- A mux, and whether it still has its owner's hooks. -/
structure Conn where
  mux : Mux
  lifecycle : Bool := true
  deriving DecidableEq

/-- `WsTransport`. -/
structure Transport where
  /-- Every mux there has been. -/
  conns : List Conn := []
  /-- `this.mux`. -/
  current : Option ℕ := none
  attempt : ℕ := 0
  paused : Bool := false
  closed : Bool := false
  phase : Phase := .connecting
  retryTimer : Option ℕ := none
  dialTimer : Option ℕ := none
  stableTimer : Option ℕ := none
  /-- The timers that are armed. -/
  timers : List Timer := []
  nextTimer : ℕ := 0
  deriving DecidableEq

def dialPaused : WsStatusError := { code := codeUnavailable, message := "dial paused".toUTF8 }

def dialTimeout : WsStatusError := { code := codeUnavailable, message := "dial timeout".toUTF8 }

/-! ## Backoff -/

namespace Options

/-- `reconnectEnabled`. -/
def reconnectEnabled (o : Options) : Bool := o.dials && o.reconnect

/-- `this.initialMs`. -/
def initialDelay (o : Options) : ℕ := if 0 < o.initialMs then o.initialMs else 100

/-- `this.maxMs`. -/
def maxDelay (o : Options) : ℕ := if 0 < o.maxMs then o.maxMs else 30000

/-- The loop of `nextBackoff`. -/
def grow (maxMs : ℕ) : ℕ → ℕ → ℕ
  | 0, d => d
  | n + 1, d => if d < maxMs then grow maxMs n (d * 2) else d

/-- `nextBackoff`, from a draw of `Math.random`. -/
def nextBackoff (o : Options) (attempt random : ℕ) : ℕ :=
  random % (min (grow o.maxDelay attempt o.initialDelay) o.maxDelay + 1)

end Options

namespace Transport

/-! ## Timers and state -/

/-- `setTimeout`; the id goes to the field the caller keeps it in. -/
def setTimeout (x : Transport) (delay : ℕ) (callback : Callback) : Transport :=
  { x with
    timers := x.timers ++ [{ id := x.nextTimer, delay, callback }]
    nextTimer := x.nextTimer + 1 }

/-- `clearTimeout`. -/
def clearTimeout (timers : List Timer) (timer : Option ℕ) : List Timer :=
  timers.filter fun t => timer ≠ some t.id

/-- The fields `clearTimer` is called for. -/
inductive TimerField where
  | retryTimer
  | dialTimer
  | stableTimer
  deriving DecidableEq

/-- `clearTimer`. -/
def clearTimer (x : Transport) : TimerField → Transport
  | .retryTimer => { x with timers := clearTimeout x.timers x.retryTimer, retryTimer := none }
  | .dialTimer => { x with timers := clearTimeout x.timers x.dialTimer, dialTimer := none }
  | .stableTimer => { x with timers := clearTimeout x.timers x.stableTimer, stableTimer := none }

/-- `setState`. -/
def setState (x : Transport) (phase : Phase) : Transport := { x with phase }

def setConn (x : Transport) (i : ℕ) (c : Conn) : Transport := { x with conns := x.conns.set i c }

/-- `this.mux`. -/
def mux (x : Transport) : Option Mux := (x.current.bind (x.conns[·]?)).map Conn.mux

/-- `mux.close(err)`, which drops the owner's hooks unless the mux was closed before. -/
def closeMux (x : Transport) (i : ℕ) (err : WsStatusError) : Transport :=
  match x.conns[i]? with
  | none => x
  | some c => x.setConn i { mux := c.mux.close err, lifecycle := c.lifecycle && c.mux.closed }

/-! ## Dialing -/

section Dialing

variable (o : Options)

/-- `onOpen`. -/
def onOpen (x : Transport) : Transport :=
  let x := x.clearTimer .dialTimer
  let x :=
    if o.stableMs = 0 then { x with attempt := 0 }
    else { x.setTimeout o.stableMs .stable with stableTimer := some x.nextTimer }
  x.setState .connected

/-- `attach`. -/
def attach (x : Transport) (ws : Socket) : Transport :=
  let mux := Mux.new o.initialWindow o.maxSendBuffer o.maxFrameBytes ws.ready ws.got
  let x := { x with conns := x.conns ++ [({ mux := mux } : Conn)], current := some x.conns.length }
  if mux.isOpen then x.onOpen o else x.setState .connecting

/-- `dial`. -/
def dial (x : Transport) (ws : Socket) : Transport :=
  let i := x.conns.length
  let x := (x.clearTimer .retryTimer).attach o ws
  if x.phase = .connecting ∧ 0 < o.dialTimeoutMs then
    { x.setTimeout o.dialTimeoutMs (.dial i) with dialTimer := some x.nextTimer }
  else x

/-- `afterDrop`. -/
def afterDrop (x : Transport) (err : WsStatusError) (redial : Bool) (random : ℕ) : Transport :=
  let x := (x.clearTimer .dialTimer).clearTimer .stableTimer
  if !redial || !o.reconnectEnabled then x.setState (.disconnected err)
  else if x.paused then x.setState .paused
  else
    { x.setTimeout (o.nextBackoff x.attempt random) .retry with
      attempt := x.attempt + 1
      retryTimer := some x.nextTimer }.setState .waiting

/-! ## Public calls -/

/-- `pause`. -/
def pause (x : Transport) : Transport :=
  if x.closed || !o.dials || x.paused then x
  else
    let x := { x with paused := true }.clearTimer .retryTimer
    match x.phase with
    | .waiting => x.setState .paused
    | .connecting =>
        let x := x.clearTimer .dialTimer
        ((x.current.map (x.closeMux · dialPaused)).getD x).setState .paused
    | _ => x

/-- `resume`. -/
def resume (x : Transport) (ws : Socket) : Transport :=
  if x.closed || !x.paused then x
  else
    let x := { x with paused := false, attempt := 0 }
    if x.phase = .paused then x.dial o ws else x

/-- `retryNow`. -/
def retryNow (x : Transport) (ws : Socket) : Transport :=
  if x.closed || x.paused || !o.dials then x
  else
    match x.phase with
    | .waiting | .disconnected _ => x.dial o ws
    | _ => x

/-- `close`. -/
def close (x : Transport) : Transport :=
  if x.closed then x
  else
    let x := { x with closed := true }
    let x := ((x.clearTimer .retryTimer).clearTimer .dialTimer).clearTimer .stableTimer
    ((x.current.map (x.closeMux · transportClosed)).getD x).setState .closed

end Dialing

/-! ## What a mux reports -/

/-- A call of the owner's hooks. -/
inductive Notice where
  /-- `lifecycle.open()`. -/
  | opened
  /-- `lifecycle.drop(err, redial)`. -/
  | drop (err : WsStatusError) (redial : Bool)
  deriving DecidableEq

/-- The hook an event calls on the mux `m`, which it leaves as `m'`.  A message that is
too large fails the mux whatever its state; a write can only fail it for its pre-open
buffer. -/
def notice (m : Mux) (a : Ledger.Act) (m' : Mux) : Option Notice :=
  match a with
  | .onopen got =>
      if m.defunct then none
      else some (got.elim .opened fun p => .drop (wrongProtocol p) false)
  | .drop => if m.defunct then none else some (.drop connectionLost true)
  | .message len _ =>
      if 0 < m.maxFrameBytes ∧ m.maxFrameBytes < len then some (.drop frameTooBig false)
      else if m.closed = false ∧ m'.closed then some (.drop preopenOverflow false)
      else none
  | _ => if m.closed = false ∧ m'.closed then some (.drop preopenOverflow false) else none

/-- The hooks that `attach` has set; `drop` is called once. -/
def notify (o : Options) (x : Transport) (i : ℕ) (n : Notice) (random : ℕ) : Transport :=
  match x.conns[i]? with
  | none => x
  | some c =>
      if c.lifecycle then
        match n with
        | .opened => if x.current = some i then x.onOpen o else x
        | .drop err redial =>
            let x := x.setConn i { c with lifecycle := false }
            if x.current = some i then x.afterDrop o err redial random else x
      else x

/-! ## Steps -/

inductive Act where
  | pause
  | resume
  | retryNow
  | close
  | openStream (method : Text) (headers : Headers) (aborted : Option WsStatusError)
  /-- An armed timer fires. -/
  | fire (id : ℕ)
  /-- An event of a socket or a call on a stream, of any mux there has been. -/
  | mux (i : ℕ) (a : Ledger.Act)
  deriving DecidableEq

/-- A step, and what the world decides in it. -/
structure Label where
  act : Act
  socket : Socket := {}
  random : ℕ := 0
  deriving DecidableEq

/-- The events of a mux that do not come from its transport. -/
def outside : Ledger.Act → Bool
  | .openStream _ _ _ | .close _ => false
  | _ => true

section Steps

variable (size : Frame → ℕ) (o : Options)

/-- An event of mux `i`. -/
def onMux (x : Transport) (i : ℕ) (a : Ledger.Act) (random : ℕ) : Option Transport :=
  (x.conns[i]?).bind fun c =>
    (Ledger.call size c.mux a).map fun y =>
      let x := x.setConn i { c with mux := y.1 }
      ((notice c.mux a y.1).map (x.notify o i · random)).getD x

/-- A timer fires. -/
def onTimer (x : Transport) (id : ℕ) (ws : Socket) (random : ℕ) : Option Transport :=
  (x.timers.find? fun t => t.id = id).map fun t =>
    let x := { x with timers := x.timers.filter fun t => t.id ≠ id }
    match t.callback with
    | .retry => x.dial o ws
    | .dial i =>
        ({ x with dialTimer := none }.closeMux i dialTimeout).afterDrop o dialTimeout true random
    | .stable => { x with stableTimer := none, attempt := 0 }

def step (x : Transport) (l : Label) : Option Transport :=
  match l.act with
  | .pause => some (x.pause o)
  | .resume => some (x.resume o l.socket)
  | .retryNow => some (x.retryNow o l.socket)
  | .close => some x.close
  | .openStream method headers aborted =>
      match x.current with
      | none => some x
      | some i => x.onMux size o i (.openStream method headers aborted) l.random
  | .fire id => x.onTimer o id l.socket l.random
  | .mux i a => if outside a then x.onMux size o i a l.random else none

end Steps

/-! ## Constructors -/

/-- `new WsTransport(url, options)`; the socket is the one of the first dial. -/
def new (o : Options) (paused : Bool) (ws : Socket) : Transport :=
  if paused then { paused := true, phase := .paused } else dial o {} ws

/-- `fromSocket`. -/
def fromSocket (o : Options) (ws : Socket) : Transport := attach o {} ws

/-- A fresh transport, of either kind. -/
def start (o : Options) (paused : Bool) (ws : Socket) : Transport :=
  if o.dials then new o paused ws else fromSocket o ws

end Transport

end WsProto.Ts
