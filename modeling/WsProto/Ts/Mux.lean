import WsProto.Ts.Stream

/-!
# The TypeScript mux

`src/mux.ts` of the transport package: one socket, many streams.  As in the Go
model, `objs` holds every stream ever made, since callers keep their reference
after the registry has let go of it, and `streams` is the registry.

* a method of a stream that writes is here, because its hooks enter the mux, and a
  write may fail the mux and with it the stream in the middle of the method;
* a function that may throw returns the error beside the state it leaves behind;
* `sent` lists the frames given to `ws.send`.  A frame stands for its bytes, and
  `size` for the length `encodeFrame` gives them;
* the callbacks of `onClose` and the owner's lifecycle hooks are not modelled; a
  deadline or an abort signal that fires is a call of `abort`.
-/

namespace WsProto.Ts

/-- A reference to a stream: its place in `objs`. -/
abbrev Ref := ℕ

/-- `MAX_PREOPEN_BUFFER_BYTES`, 4 MiB. -/
def maxPreopenBufferBytes : ℤ := 4 * 1024 * 1024

/-- `Mux`. -/
structure Mux where
  initialWindow : ℤ
  maxRecvBytes : ℤ
  maxSendBuffer : ℤ
  maxFrameBytes : ℤ := 0
  nextId : ℕ := 1
  objs : List StreamImpl := []
  streams : AList (fun _ : UInt32 => Ref) := ∅
  sendBuffer : List Frame := []
  sendBufferBytes : ℤ := 0
  opened : Bool := false
  closed : Bool := false
  dead : Bool := false
  terminalError : Option WsStatusError := none
  sent : List Frame := []
  deriving DecidableEq

def connectionLost : WsStatusError :=
  { code := codeUnavailable, message := "connection lost".toUTF8 }

/-- The error `close` gives its streams unless told otherwise. -/
def transportClosed : WsStatusError :=
  { code := codeCancelled, message := "transport closed".toUTF8 }

def preopenOverflow : WsStatusError :=
  { code := codeUnavailable, message := "send buffer overflow before connect".toUTF8 }

def sendOverflow : WsStatusError :=
  { code := codeResourceExhausted, message := "send buffer overflow".toUTF8 }

def receiveOverflow : WsStatusError :=
  { code := codeResourceExhausted, message := "receive buffer overflow".toUTF8 }

def frameTooBig : WsStatusError :=
  { code := codeResourceExhausted, message := "inbound frame exceeds maxFrameBytes".toUTF8 }

/-- The error of a failed handshake; `got` is the protocol the server chose. -/
def wrongProtocol (got : Text) : WsStatusError :=
  { code := codeUnavailable
    message := "server did not negotiate subprotocol \"wsrpc.v1\" (got \"".toUTF8 ++ got ++
      "\")".toUTF8 }

/-- The error of an RST. -/
def resetError (f : Frame) : WsStatusError :=
  (statusErrorFromProto f.status).getD
    { code := codeCancelled
      message :=
        match f.status with
        | none => "stream reset".toUTF8
        | some st => if st.message = .empty then "stream reset".toUTF8 else st.message }

namespace Mux

/-- The mux is gone for good. -/
def defunct (m : Mux) : Bool := m.closed || m.dead

def setObj (m : Mux) (r : Ref) (s : StreamImpl) : Mux := { m with objs := m.objs.set r s }

/-- `this.streams.get(id)`. -/
def find (m : Mux) (id : UInt32) : Option (Ref × StreamImpl) :=
  (m.streams.lookup id).bind fun r => (m.objs[r]?).map fun s => (r, s)

/-- `this.streams.delete(id)`. -/
def delete (m : Mux) (id : UInt32) : Mux := { m with streams := m.streams.erase id }

/-! ## Going defunct -/

/-- `failAll`. -/
def failAll (m : Mux) (err : WsStatusError) : Mux :=
  { m with
    objs := m.streams.entries.foldl (fun objs e => objs.modify e.2 (·.endError err ∅)) m.objs
    streams := ∅ }

/-- `markDefunct`: the first cause wins. -/
def markDefunct (m : Mux) (err : WsStatusError) : Mux :=
  { m with
    terminalError := m.terminalError.or (some err)
    sendBuffer := []
    sendBufferBytes := 0 }.failAll err

/-- `fail`. -/
def fail (m : Mux) (err : WsStatusError) : Mux := { m with closed := true }.markDefunct err

/-- `onTransportDrop`: the socket closed or failed by itself. -/
def onTransportDrop (m : Mux) : Mux :=
  if m.defunct then m else { m with dead := true }.markDefunct connectionLost

/-- `close`. -/
def close (m : Mux) (err : WsStatusError) : Mux :=
  if m.closed then m else { m with closed := true }.markDefunct err

/-! ## Writing -/

section Writing

variable (size : Frame → ℕ)

/-- `writeFrame`: to the socket once it is open, to the buffer before; an overflow
of the buffer fails the mux, and a defunct mux throws. -/
def writeFrame (m : Mux) (f : Frame) : Mux × Option WsStatusError :=
  if m.defunct then (m, some (m.terminalError.getD connectionLost))
  else if m.opened then ({ m with sent := m.sent ++ [f] }, none)
  else if maxPreopenBufferBytes < m.sendBufferBytes + size f then (m.fail preopenOverflow, none)
  else
    ({ m with
      sendBuffer := m.sendBuffer ++ [f]
      sendBufferBytes := m.sendBufferBytes + size f }, none)

/-- A write on an open socket. -/
theorem writeFrame_opened {size : Frame → ℕ} {m : Mux} (hopen : m.opened = true)
    (hlive : m.defunct = false) (f : Frame) :
    m.writeFrame size f = ({ m with sent := m.sent ++ [f] }, none) := by
  rw [writeFrame, if_neg (by rw [hlive]; decide), if_pos hopen]

/-- `flush`. -/
def flush (m : Mux) : Mux :=
  if m.closed then m
  else { m with sent := m.sent ++ m.sendBuffer, sendBuffer := [], sendBufferBytes := 0 }

/-- `onopen`; `got` is the protocol, if it is the wrong one. -/
def onopen (m : Mux) (got : Option Text) : Mux :=
  if m.defunct then m
  else
    match got with
    | some p => m.fail (wrongProtocol p)
    | none => { m with opened := true }.flush

/-! ## The methods of a stream that write -/

/-- The loop of `pump`, at most `n` turns of it. -/
def pumpTurns : ℕ → Mux → Ref → Mux × Option WsStatusError
  | 0, m, _ => (m, none)
  | n + 1, m, r =>
      match m.objs[r]? with
      | none => (m, none)
      | some s =>
          match s.shift with
          | none => (m, none)
          | some (payload, s') =>
              match (m.setObj r s').writeFrame size (s.msgFrame payload) with
              | (m', some e) => (m', some e)
              | (m', none) => pumpTurns n m' r

/-- `pump`: every turn takes a payload, so there are no more turns than payloads. -/
def pump (m : Mux) (r : Ref) : Mux × Option WsStatusError :=
  match m.objs[r]? with
  | none => (m, none)
  | some s => pumpTurns size s.outbound.length m r

/-- `cancel` (no error) and `abort`: write RST, leave the registry, settle. -/
def abort (m : Mux) (r : Ref) (err : Option WsStatusError) : Mux × Option WsStatusError :=
  match m.objs[r]? with
  | none => (m, none)
  | some s =>
      if s.finished then (m, none)
      else
        match (m.setObj r s.stop).writeFrame size s.rstFrame with
        | (m', some e) => (m', some e)
        | (m', none) =>
            ({ m'.delete s.id with objs := m'.objs.modify r (·.settle err) }, none)

/-- `send`. -/
def send (m : Mux) (r : Ref) (payload : Payload) : Mux × Option WsStatusError :=
  match m.objs[r]? with
  | none => (m, none)
  | some s =>
      if s.sendClosed || s.finished then (m, none)
      else if s.maxSendBuffer < s.outboundBytes then m.abort size r (some sendOverflow)
      else (m.setObj r (s.enqueue payload)).pump size r

/-- `creditSend`. -/
def creditSend (m : Mux) (r : Ref) (delta : ℤ) : Mux × Option WsStatusError :=
  match m.objs[r]? with
  | none => (m, none)
  | some s =>
      if delta ≤ 0 then (m, none)
      else (m.setObj r { s with sendWindow := s.sendWindow + delta }).pump size r

/-- `closeSend`. -/
def closeSend (m : Mux) (r : Ref) : Mux × Option WsStatusError :=
  match m.objs[r]? with
  | none => (m, none)
  | some s =>
      if s.sendClosed || s.finished then (m, none)
      else (m.setObj r { s with sendClosed := true }).writeFrame size s.halfCloseFrame

/-- `recv`, up to its `await`. -/
def recv (m : Mux) (r : Ref) : Mux := { m with objs := m.objs.modify r (·.recv) }

/-- `recv`, after its `await`.  A delta beyond 32 bits makes `encodeFrame` throw, and
nothing is written. -/
def resume (m : Mux) (r : Ref) : Option (Mux × Option WsStatusError) :=
  (m.objs[r]?).bind fun s =>
    s.resume.map fun y =>
      match y.2 with
      | none => (m.setObj r y.1, none)
      | some delta =>
          if delta < 2 ^ 32 then (m.setObj r y.1).writeFrame size (s.windowUpdateFrame delta)
          else (m.setObj r y.1, none)

/-! ## Opening and routing -/

/-- `openStream`, up to the write of OPEN; on a defunct mux the stream is born
failed. -/
def openStream (m : Mux) (method : Text) (headers : Headers) : Mux × Option WsStatusError :=
  let s := newStreamImpl (UInt32.ofNat m.nextId) m.initialWindow m.maxSendBuffer
  if m.defunct then
    ({ m with
      nextId := m.nextId + 2
      objs := m.objs ++ [s.endError (m.terminalError.getD connectionLost) ∅] }, none)
  else
    { m with
      nextId := m.nextId + 2
      objs := m.objs ++ [s]
      streams := m.streams.insert s.id m.objs.length }.writeFrame size
        { streamId := s.id, kind := .kindOpen, method, headers := some headers }

/-- The stream of a frame leaves the registry and ends. -/
def endWith (m : Mux) (f : Frame) (g : StreamImpl → StreamImpl) : Mux :=
  match m.find f.streamId with
  | none => m.delete f.streamId
  | some (r, s) => (m.delete f.streamId).setObj r (g s)

/-- `handleMessage` for a frame that was decoded. -/
def route (m : Mux) (f : Frame) : Mux × Option WsStatusError :=
  match f.kind with
  | .kindHeader =>
      match m.find f.streamId with
      | none => (m, none)
      | some (r, s) => (m.setObj r (s.resolveLeading (f.headers.getD ∅)), none)
  | .kindWindowUpdate =>
      match m.find f.streamId with
      | none => (m, none)
      | some (r, _) => m.creditSend size r f.window.toNat
  | .kindMsg =>
      match m.find f.streamId with
      | none => (m, none)
      | some (r, s) =>
          if m.maxRecvBytes < s.bufferedBytes then
            match m.abort size r (some receiveOverflow) with
            | (m', some e) => (m', some e)
            | (m', none) => (m'.delete f.streamId, none)
          else (m.setObj r (s.pushMsg f.payload), none)
  | .kindEnd =>
      (m.endWith f fun s =>
        match statusErrorFromProto f.status with
        | none => s.endOk (f.headers.getD ∅)
        | some e => s.endError e (f.headers.getD ∅), none)
  | .kindRst => (m.endWith f fun s => s.endError (resetError f) (f.headers.getD ∅), none)
  | _ => (m, none)

/-- `handleMessage`: `len` bytes arrive; `none` if they cannot be decoded. -/
def handleMessage (m : Mux) (len : ℕ) (f : Option Frame) : Mux × Option WsStatusError :=
  if 0 < m.maxFrameBytes ∧ m.maxFrameBytes < len then (m.fail frameTooBig, none)
  else
    match f with
    | none => (m, none)
    | some f => m.route size f

end Writing

/-- The constructor; `ready` if the socket is already open, `got` as in `onopen`. -/
def new (initialWindow maxSendBuffer maxFrameBytes : ℤ) (ready : Bool) (got : Option Text) : Mux :=
  let m : Mux :=
    { initialWindow := positiveOr initialWindow defaultInitialWindow
      maxRecvBytes := positiveOr initialWindow defaultInitialWindow
      maxSendBuffer := positiveOr maxSendBuffer defaultMaxSendBuffer
      maxFrameBytes := positiveOr maxFrameBytes 0 }
  if ready then
    match got with
    | some p => m.fail (wrongProtocol p)
    | none => { m with opened := true }
  else m

/-- A mux on an open socket, without a limit on frames, with one stream. -/
def startOne (size : Frame → ℕ) (method : Text) (headers : Headers)
    (initialWindow maxSendBuffer : ℤ) : Mux :=
  ((Mux.new initialWindow maxSendBuffer 0 true none).openStream size method headers).1

end Mux

end WsProto.Ts
