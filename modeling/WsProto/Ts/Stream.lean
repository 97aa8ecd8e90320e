import WsProto.Wire

/-!
# The TypeScript stream

`src/stream.ts` of the transport package, with the queue of `src/queue.ts` it is
built on: one multiplexed RPC on a TypeScript client.  JavaScript runs each event
to its end, so a method is one function on the record.  A method that writes frames
calls back into the mux, which may end this very stream; those are in `Ts.Mux`, and
here are the pieces between two such calls.

* a pull of the queue either settles or waits; as waiting pulls are served first
  come, first served, `settled` lists the results in the order of the pulls;
* what follows the `await` in `recv` runs later, in a microtask: `resumed` counts
  the results for which it has run;
* numbers are integers here; window options are taken to be whole.
-/

namespace WsProto.Ts

/-! ## Status errors -/

/-- `WsStatusError`. -/
structure WsStatusError where
  code : Int32
  message : Text
  details : List (List UInt8) := []
  deriving DecidableEq

def codeOk : Int32 := 0
def codeCancelled : Int32 := 1
def codeResourceExhausted : Int32 := 8
def codeUnavailable : Int32 := 14

/-- `statusErrorFromProto`: no error for an absent status or OK. -/
def statusErrorFromProto : Option ProtoStatus → Option WsStatusError
  | none => none
  | some st =>
      if st.code = codeOk then none
      else some { code := st.code, message := st.message, details := st.details }

/-! ## The queue -/

/-- What a pull settles with. -/
inductive PullResult (α : Type) where
  | value (a : α)
  | done
  | rejected (e : WsStatusError)
  deriving DecidableEq

/-- `AsyncQueue`. -/
structure AsyncQueue (α : Type) where
  values : List α := []
  /-- The pulls that wait. -/
  waiters : ℕ := 0
  ended : Bool := false
  error : Option WsStatusError := none
  /-- The results of the pulls, oldest pull first. -/
  settled : List (PullResult α) := []
  deriving DecidableEq

namespace AsyncQueue

variable {α : Type}

/-- `push`: serve the oldest waiting pull, or buffer.  Ignored after the end. -/
def push (q : AsyncQueue α) (v : α) : AsyncQueue α :=
  if q.ended || q.error.isSome then q
  else if 0 < q.waiters then
    { q with waiters := q.waiters - 1, settled := q.settled ++ [.value v] }
  else { q with values := q.values ++ [v] }

/-- `end`. -/
def endQueue (q : AsyncQueue α) : AsyncQueue α :=
  if q.ended || q.error.isSome then q
  else
    { q with
      ended := true
      waiters := 0
      settled := q.settled ++ List.replicate q.waiters .done }

/-- `fail`. -/
def fail (q : AsyncQueue α) (e : WsStatusError) : AsyncQueue α :=
  if q.error.isSome then q
  else
    { q with
      error := some e
      waiters := 0
      settled := q.settled ++ List.replicate q.waiters (.rejected e) }

/-- `pull`: buffered values first, then the error or the end. -/
def pull (q : AsyncQueue α) : AsyncQueue α :=
  match q.values, q.error, q.ended with
  | v :: rest, _, _ => { q with values := rest, settled := q.settled ++ [.value v] }
  | [], some e, _ => { q with settled := q.settled ++ [.rejected e] }
  | [], none, true => { q with settled := q.settled ++ [.done] }
  | [], none, false => { q with waiters := q.waiters + 1 }

end AsyncQueue

/-! ## The stream -/

/-- `DEFAULT_INITIAL_WINDOW`, 256 KiB. -/
def defaultInitialWindow : ℤ := 256 * 1024

/-- `DEFAULT_MAX_SEND_BUFFER`, 16 MiB. -/
def defaultMaxSendBuffer : ℤ := 16 * 1024 * 1024

/-- `n > 0 ? n : dflt`. -/
def positiveOr (n dflt : ℤ) : ℤ := if 0 < n then n else dflt

/-- `StreamImpl`. -/
structure StreamImpl where
  id : UInt32
  inbound : AsyncQueue Payload := {}
  /-- The results after which `recv` has resumed. -/
  resumed : ℕ := 0
  bufferedBytes : ℤ := 0
  initialWindow : ℤ
  sendWindow : ℤ
  outbound : List Payload := []
  outboundBytes : ℤ := 0
  maxSendBuffer : ℤ
  pendingCredit : ℤ := 0
  sendClosed : Bool := false
  finished : Bool := false
  headers : Headers := ∅
  headersSettled : Bool := false
  /-- What `responseLeadingHeaders` has resolved with. -/
  leading : Option Headers := none
  deriving DecidableEq

/-- The constructor. -/
def newStreamImpl (id : UInt32) (initialWindow maxSendBuffer : ℤ) : StreamImpl :=
  { id
    initialWindow := positiveOr initialWindow defaultInitialWindow
    sendWindow := positiveOr initialWindow defaultInitialWindow
    maxSendBuffer := positiveOr maxSendBuffer defaultMaxSendBuffer }

namespace StreamImpl

/-! ### Sending -/

/-- `send` once its guards have passed: buffer the payload. -/
def enqueue (s : StreamImpl) (payload : Payload) : StreamImpl :=
  { s with
    outbound := s.outbound ++ [payload]
    outboundBytes := s.outboundBytes + payload.length }

/-- A turn of the loop of `pump` up to its hook: the payload to send. -/
def shift (s : StreamImpl) : Option (Payload × StreamImpl) :=
  match s.outbound with
  | [] => none
  | payload :: rest =>
      if 0 < s.sendWindow ∧ s.finished = false then
        some (payload,
          { s with
            outbound := rest
            outboundBytes := s.outboundBytes - payload.length
            sendWindow := s.sendWindow - payload.length })
      else none

/-- The MSG frame that carries a payload. -/
def msgFrame (s : StreamImpl) (payload : Payload) : Frame :=
  { streamId := s.id, kind := .kindMsg, payload }

/-- The HALF_CLOSE frame. -/
def halfCloseFrame (s : StreamImpl) : Frame := { streamId := s.id, kind := .kindHalfClose }

/-- The RST frame. -/
def rstFrame (s : StreamImpl) : Frame := { streamId := s.id, kind := .kindRst }

/-! ### Receiving -/

/-- `resolveLeading`: the first call counts. -/
def resolveLeading (s : StreamImpl) (h : Headers) : StreamImpl :=
  { s with leading := s.leading.or (some h) }

/-- `resolveHeaders`. -/
def resolveHeaders (s : StreamImpl) (h : Headers) : StreamImpl :=
  let s := s.resolveLeading ∅
  if s.headersSettled then s else { s with headersSettled := true, headers := h }

/-- `pushMsg`. -/
def pushMsg (s : StreamImpl) (payload : Payload) : StreamImpl :=
  { s.resolveLeading ∅ with
    bufferedBytes := s.bufferedBytes + payload.length
    inbound := s.inbound.push payload }

/-- `recv`, up to its `await`. -/
def recv (s : StreamImpl) : StreamImpl := { s with inbound := s.inbound.pull }

/-- `returnCredit`: the delta to return, if one is due. -/
def returnCredit (s : StreamImpl) (n : ℤ) : StreamImpl × Option ℤ :=
  if n ≤ 0 ∨ s.finished then (s, none)
  else if max 1 (s.initialWindow / 2) ≤ s.pendingCredit + n then
    ({ s with pendingCredit := 0 }, some (s.pendingCredit + n))
  else ({ s with pendingCredit := s.pendingCredit + n }, none)

/-- What `recv` does after its `await`, for the oldest result it has not resumed
after, and the delta to return. -/
def resume (s : StreamImpl) : Option (StreamImpl × Option ℤ) :=
  match s.inbound.settled[s.resumed]? with
  | none => none
  | some (.value v) =>
      some ({ s with
        resumed := s.resumed + 1
        bufferedBytes := s.bufferedBytes - v.length }.returnCredit v.length)
  | some _ => some ({ s with resumed := s.resumed + 1 }, none)

/-- The WINDOW_UPDATE frame that returns `delta` bytes. -/
def windowUpdateFrame (s : StreamImpl) (delta : ℤ) : Frame :=
  { streamId := s.id, kind := .kindWindowUpdate, window := UInt32.ofNat delta.toNat }

/-! ### Terminal paths -/

/-- `endOk`. -/
def endOk (s : StreamImpl) (h : Headers) : StreamImpl :=
  if s.finished then s
  else
    let s := { s with finished := true }.resolveHeaders h
    { s with inbound := s.inbound.endQueue }

/-- `endError`. -/
def endError (s : StreamImpl) (err : WsStatusError) (h : Headers) : StreamImpl :=
  if s.finished then s
  else
    let s := { s with finished := true }.resolveHeaders h
    { s with inbound := s.inbound.fail err }

/-- `cancel` and `abort` before their hook. -/
def stop (s : StreamImpl) : StreamImpl := { s with finished := true, sendClosed := true }

/-- `cancel` (no error) and `abort` after their hook. -/
def settle (s : StreamImpl) (err : Option WsStatusError) : StreamImpl :=
  let s := s.resolveHeaders s.headers
  match err with
  | none => { s with inbound := s.inbound.endQueue }
  | some e => { s with inbound := s.inbound.fail e }

end StreamImpl

end WsProto.Ts
