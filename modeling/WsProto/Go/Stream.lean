import WsProto.Go.Status

/-!
# The Go stream

`wsrpc/stream.go`: one multiplexed RPC.  The record keeps the source's fields;
each critical section of the source is one function on it, and a method made of
several of them is their composition, so that an interleaving can be cut
between any two.

* channels that are only ever closed (`halfClosed`, `ended`) are Booleans, and
  `recvSignal`, whose capacity is one, is the Boolean "holds a token";
* the stream context is its error: `none` while it is live;
* `sendCond` has no state of its own; who waits on it is part of the systems
  built on this file;
* a frame to be written is returned to the caller: which context it is written
  with, and what the connection does with it, belongs to the systems too.

Go's `int` is an unbounded integer here (`Go.Credit` has the one of `returnCredit`
in 64 bits).  The conversion to `uint32` in `returnCredit`, which can lose credit,
is kept.
-/

namespace WsProto.Go

/-- `Stream`. -/
structure Stream where
  id : UInt32
  method : Text := .empty
  /-- `s.ctx.Err()`. -/
  ctxErr : Option CtxErr := none
  /-- Leading headers: those of OPEN on the server, of HEADER on the client. -/
  header : Option Headers := none
  /-- Trailers of END (client). -/
  trailer : Option Headers := none
  endSt : Option Status := none
  /-- The terminal END or RST frame. -/
  endFrame : Option Frame := none
  /-- Trailers to be flushed with END (server). -/
  outTrailer : Option Headers := none
  headerSent : Bool := false
  msgSent : Bool := false
  recvItems : List Frame := []
  recvBytes : ℤ := 0
  maxRecvBytes : ℤ
  recvSignal : Bool := false
  halfClosed : Bool := false
  ended : Bool := false
  sendDone : Bool := false
  initialWindow : ℤ
  sendWindow : ℤ
  pendingCredit : ℤ := 0
  deriving DecidableEq

/-- `defaultInitialWindow`, 256 KiB. -/
def defaultInitialWindow : ℤ := 256 * 1024

/-- The window in force: `n <= 0` keeps the default. -/
def windowOr (n : ℤ) : ℤ := if n ≤ 0 then defaultInitialWindow else n

theorem windowOr_pos (W : ℤ) : 0 < windowOr W := by
  rw [windowOr]
  split
  · decide
  · omega

@[simp] theorem windowOr_windowOr (W : ℤ) : windowOr (windowOr W) = windowOr W :=
  if_neg (not_le.2 (windowOr_pos W))

/-- `newStream`.  The context may already be done when the stream is made. -/
def newStream (ctxErr : Option CtxErr) (id : UInt32) (method : Text) (initialWindow : ℤ) :
    Stream :=
  { id, method, ctxErr
    maxRecvBytes := windowOr initialWindow
    initialWindow := windowOr initialWindow
    sendWindow := windowOr initialWindow }

namespace Stream

/-! ## Metadata -/

/-- `SendHeader`: the HEADER frame to write, once and before any message. -/
def sendHeader (s : Stream) (md : Option Headers) : Except GoError (Stream × Frame) :=
  if s.headerSent || s.msgSent then
    .error (errorf Code.failedPrecondition "wsrpc: headers already sent")
  else
    .ok ({ s with headerSent := true },
      { streamId := s.id, kind := .kindHeader, headers := md })

/-- `SetTrailer`: merge into the trailers of END; later keys win. -/
def setTrailer (s : Stream) (md : Headers) : Stream :=
  if md.entries = [] then s
  else
    { s with
      outTrailer := some (md.entries.foldl (fun m e => m.insert e.1 e.2)
        (s.outTrailer.getD ∅)) }

/-- `takeTrailer`. -/
def takeTrailer (s : Stream) : Option Headers := s.outTrailer

/-- `setLeadingHeader`. -/
def setLeadingHeader (s : Stream) (md : Option Headers) : Stream := { s with header := md }

/-! ## Sending -/

/-- The recorded status, as the error of a blocked `Send`. -/
def endStErr (s : Stream) : Option GoError :=
  s.endSt.map fun st => if st.code ≠ Code.ok then .status st else .eof

/-- A pending terminal frame, as the error of a blocked `Send`. -/
def endedErr (s : Stream) : Option GoError := if s.ended then some .eof else none

/-- `sendBlockErrLocked`: what a blocked `Send` returns instead of waiting. -/
def sendBlockErrLocked (s : Stream) : Option GoError :=
  (s.endStErr.or s.endedErr).or (s.ctxErr.map .ctx)

/-- The MSG frame that carries a payload. -/
def msgFrame (s : Stream) (b : Payload) : Frame :=
  { streamId := s.id, kind := .kindMsg, payload := b }

/-- The part of `SendRaw` under the mutex once the window is open: charge the
window, which may go negative. -/
def chargeSend (s : Stream) (n : ℕ) : Stream :=
  { s with sendWindow := s.sendWindow - n, msgSent := true }

/-- One turn of the loop of `SendRaw`. -/
inductive SendTurn where
  /-- The window was charged; the frame is now written outside the mutex. -/
  | charged (s : Stream) (f : Frame)
  /-- The send gives up. -/
  | failed (e : GoError)
  /-- The send waits on `sendCond`. -/
  | wait
  deriving DecidableEq

/-- `SendRaw`, one turn of its loop. -/
def sendRaw (s : Stream) (b : Payload) : SendTurn :=
  if 0 < s.sendWindow then .charged (s.chargeSend b.length) (s.msgFrame b)
  else
    match s.sendBlockErrLocked with
    | some e => .failed e
    | none => .wait

/-- `creditSend` under the mutex. -/
def creditSend (s : Stream) (delta : ℤ) : Stream :=
  if delta ≤ 0 then s else { s with sendWindow := s.sendWindow + delta }

/-- `CloseSend`: the HALF_CLOSE frame to write, the first time only. -/
def closeSend (s : Stream) : Option (Stream × Frame) :=
  if s.sendDone then none
  else some ({ s with sendDone := true }, { streamId := s.id, kind := .kindHalfClose })

/-! ## Receiving -/

/-- `popRecv`. -/
def popRecv (s : Stream) : Option (Frame × Stream) :=
  match s.recvItems with
  | [] => none
  | f :: rest =>
      some (f, { s with recvItems := rest, recvBytes := s.recvBytes - f.payload.length })

/-- The amount of consumed bytes that triggers a WINDOW_UPDATE. -/
def creditThreshold (s : Stream) : ℤ :=
  if s.initialWindow / 2 < 1 then 1 else s.initialWindow / 2

/-- `uint32(n)`. -/
def toUint32 (n : ℤ) : UInt32 := UInt32.ofNat (n % 2 ^ 32).toNat

/-- `returnCredit` under the mutex: the new state and the delta due, `0` if
none. -/
def returnCredit (s : Stream) (n : ℤ) : Stream × UInt32 :=
  if n ≤ 0 then (s, 0)
  else if s.pendingCredit + n < s.creditThreshold then
    ({ s with pendingCredit := s.pendingCredit + n }, 0)
  else ({ s with pendingCredit := 0 }, toUint32 (s.pendingCredit + n))

/-- The WINDOW_UPDATE frame that returns `delta` bytes. -/
def windowUpdate (s : Stream) (delta : UInt32) : Frame :=
  { streamId := s.id, kind := .kindWindowUpdate, window := delta }

/-- `returnCredit` changes nothing but the credit it holds back. -/
theorem returnCredit_fst (s : Stream) (n : ℤ) :
    ∃ p, (s.returnCredit n).1 = { s with pendingCredit := p } := by
  unfold returnCredit
  split
  · exact ⟨_, rfl⟩
  · split
    · exact ⟨_, rfl⟩
    · exact ⟨_, rfl⟩

@[simp] theorem returnCredit_ended (s : Stream) (n : ℤ) : (s.returnCredit n).1.ended = s.ended := by
  obtain ⟨p, hp⟩ := s.returnCredit_fst n
  rw [hp]

theorem creditThreshold_pos (s : Stream) : 0 < s.creditThreshold := by
  unfold creditThreshold
  split <;> omega

theorem toNat_toUint32 (n : ℤ) : ((toUint32 n).toNat : ℤ) = n % 2 ^ 32 := by
  have hlt : (n % 2 ^ 32).toNat < 2 ^ 32 := by omega
  rw [toUint32, UInt32.toNat_ofNat', Nat.mod_eq_of_lt hlt]
  omega

/-- What `returnCredit` does with `n` consumed bytes: they are held back or
returned, except for what the conversion to `uint32` loses; nothing else of the
stream changes. -/
theorem returnCredit_spec {s : Stream} (h₀ : 0 ≤ s.pendingCredit)
    (hlt : s.pendingCredit < s.creditThreshold) (n : ℕ) :
    ∃ (p : ℤ) (lost : ℕ), (s.returnCredit n).1 = { s with pendingCredit := p } ∧
      0 ≤ p ∧ p < s.creditThreshold ∧
      p + (s.returnCredit n).2.toNat + lost = s.pendingCredit + n ∧
      (s.pendingCredit + n < 2 ^ 32 → lost = 0) := by
  unfold returnCredit
  split
  · rename_i hn
    have hn0 : n = 0 := by omega
    exact ⟨s.pendingCredit, 0, rfl, h₀, hlt, by simp [hn0], fun _ => rfl⟩
  · split
    · rename_i hkeep
      exact ⟨s.pendingCredit + n, 0, rfl, by omega, hkeep, by simp, fun _ => rfl⟩
    · have hu := toNat_toUint32 (s.pendingCredit + n)
      refine ⟨0, ((s.pendingCredit + n) / 2 ^ 32 * 2 ^ 32).toNat, rfl, le_refl _,
        s.creditThreshold_pos, ?_, ?_⟩
      · simp only [hu]; omega
      · intro hsmall; omega

/-- What `tryDeliver` finds under the mutex. -/
inductive Delivery where
  /-- The context is done: the frame is dropped, and the caller told it is fine. -/
  | dropped
  /-- The backlog is over its ceiling. -/
  | over
  /-- The frame was appended. -/
  | queued (s : Stream)
  deriving DecidableEq

/-- `tryDeliver` under the mutex.  The bound is "already over". -/
def deliver (s : Stream) (f : Frame) : Delivery :=
  if s.ctxErr.isSome then .dropped
  else if s.recvItems ≠ [] ∧ s.maxRecvBytes < s.recvBytes then .over
  else .queued
    { s with recvItems := s.recvItems ++ [f], recvBytes := s.recvBytes + f.payload.length }

/-- `signalRecv`. -/
def signalRecv (s : Stream) : Stream := { s with recvSignal := true }

/-- `tryDeliver`; `none` is the answer `false`. -/
def tryDeliver (s : Stream) (f : Frame) : Option Stream :=
  match s.deliver f with
  | .dropped => some s
  | .over => none
  | .queued s' => some s'.signalRecv

/-! ## Terminal paths -/

/-- `s.cancel()`. -/
def cancel (s : Stream) : Stream := { s with ctxErr := s.ctxErr.or (some .canceled) }

/-- The context ends from outside: a cancelled parent or a deadline. -/
def expire (s : Stream) (e : CtxErr) : Stream := { s with ctxErr := s.ctxErr.or (some e) }

/-- `s.endSt = st` under the mutex. -/
def setEndSt (s : Stream) (st : Option Status) : Stream := { s with endSt := st }

/-- `close(s.ended)` by whoever is first. -/
def closeEnded (s : Stream) : Stream := { s with ended := true }

/-- `failWith`: record the status, close `ended`, cancel the context. -/
def failWith (s : Stream) (err : Option GoError) : Stream :=
  ((s.setEndSt (fromError err)).closeEnded).cancel

/-- `signalEnd`: record the terminal frame and close `ended`, first caller
only. -/
def signalEnd (s : Stream) (f : Frame) : Stream :=
  if s.ended then s else { s with endFrame := some f, ended := true }

/-- `halfClose`. -/
def halfClose (s : Stream) : Stream := { s with halfClosed := true }

/-- `applyEnd` under the mutex. -/
def recordEnd (s : Stream) (f : Frame) : Stream :=
  { s with
    trailer := f.headers.or s.trailer
    endSt := some (statusFromProto f.status) }

/-- `applyEnd`. -/
def applyEnd (s : Stream) (f : Frame) : Stream × Status :=
  ((s.recordEnd f).cancel, statusFromProto f.status)

@[simp] theorem failWith_ended (s : Stream) (err : Option GoError) :
    (s.failWith err).ended = true := rfl

@[simp] theorem signalEnd_ended (s : Stream) (f : Frame) : (s.signalEnd f).ended = true := by
  rw [signalEnd]
  split
  · assumption
  · rfl

/-- The END frame `end` writes. -/
def endFrameOf (s : Stream) (st : Status) (trailers : Option Headers) : Frame :=
  { streamId := s.id, kind := .kindEnd, headers := trailers, status := some (statusToProto st) }

end Stream

end WsProto.Go
