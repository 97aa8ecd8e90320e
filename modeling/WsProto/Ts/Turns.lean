import WsProto.Ts.Registry

/-!
# What an event does to a TypeScript mux

Every method of a stream and every event of the socket is a few elementary moves of the mux,
one after the other: a stream changes, or changes and writes a frame; it is aborted, or a frame
ends it; a stream is made; the mux fails, or its socket opens (`Turn`).  So a property that each
of the moves keeps is kept by every event, and no method has to be looked at again.

* `Mux.takes` and the functions named after the methods — the frames `writeFrame` accepts;
* `Turn` — the moves, each with the event it can be part of;
* `Kept.call` — a property that implies `Mux.WF` and is kept by the moves of an event is kept
  by the event, and the event does not throw.
-/

namespace WsProto.Ts

namespace Mux

section Log

variable (size : Frame → ℕ)

/-! ## The frames a method has accepted -/

/-- What `writeFrame` accepts of a frame: it gives it to the socket or buffers it. -/
def takes (m : Mux) (f : Frame) : List Frame :=
  if m.defunct then []
  else if m.opened then [f]
  else if maxPreopenBufferBytes < m.sendBufferBytes + size f then []
  else [f]

/-- The frames accepted in `pumpTurns`. -/
def pumpTurnsLog : ℕ → Mux → Ref → List Frame
  | 0, _, _ => []
  | n + 1, m, r =>
      match m.objs[r]? with
      | none => []
      | some s =>
          match s.shift with
          | none => []
          | some (payload, s') =>
              (m.setObj r s').takes size (s.msgFrame payload) ++
                pumpTurnsLog n ((m.setObj r s').writeFrame size (s.msgFrame payload)).1 r

def pumpLog (m : Mux) (r : Ref) : List Frame :=
  match m.objs[r]? with
  | none => []
  | some s => m.pumpTurnsLog size s.outbound.length r

def abortLog (m : Mux) (r : Ref) : List Frame :=
  match m.objs[r]? with
  | none => []
  | some s => if s.finished then [] else (m.setObj r s.stop).takes size s.rstFrame

def sendLog (m : Mux) (r : Ref) (payload : Payload) : List Frame :=
  match m.objs[r]? with
  | none => []
  | some s =>
      if s.sendClosed || s.finished then []
      else if s.maxSendBuffer < s.outboundBytes then m.abortLog size r
      else (m.setObj r (s.enqueue payload)).pumpLog size r

def creditSendLog (m : Mux) (r : Ref) (delta : ℤ) : List Frame :=
  match m.objs[r]? with
  | none => []
  | some s =>
      if delta ≤ 0 then []
      else (m.setObj r { s with sendWindow := s.sendWindow + delta }).pumpLog size r

def closeSendLog (m : Mux) (r : Ref) : List Frame :=
  match m.objs[r]? with
  | none => []
  | some s =>
      if s.sendClosed || s.finished then []
      else (m.setObj r { s with sendClosed := true }).takes size s.halfCloseFrame

def resumeLog (m : Mux) (r : Ref) : List Frame :=
  match (m.objs[r]?).bind fun s => s.resume.map fun y => (s, y) with
  | some (s, s', some delta) =>
      if delta < 2 ^ 32 then (m.setObj r s').takes size (s.windowUpdateFrame delta) else []
  | _ => []

/-- The frame that opens the next stream. -/
def openFrame (m : Mux) (method : Text) (headers : Headers) : Frame :=
  { streamId := UInt32.ofNat m.nextId, kind := .kindOpen, method, headers := some headers }

/-- `openStream` with an `init` whose signal is already aborted, with the error `aborted`,
or is not.  A deadline and a signal that fires later are calls of `abort`. -/
def openWith (m : Mux) (method : Text) (headers : Headers) (aborted : Option WsStatusError) :
    Mux × Option WsStatusError :=
  match m.openStream size method headers with
  | (m', some e) => (m', some e)
  | (m', none) =>
      match aborted with
      | none => (m', none)
      | some err => m'.abort size m.objs.length (some err)

def openLog (m : Mux) (method : Text) (headers : Headers) (aborted : Option WsStatusError) :
    List Frame :=
  m.takes size (m.openFrame method headers) ++
    if aborted.isSome then (m.openStream size method headers).1.abortLog size m.objs.length else []

def routeLog (m : Mux) (f : Frame) : List Frame :=
  match f.kind, m.find f.streamId with
  | .kindWindowUpdate, some (r, _) => m.creditSendLog size r f.window.toNat
  | .kindMsg, some (r, s) =>
      if m.maxRecvBytes < s.bufferedBytes then m.abortLog size r else []
  | _, _ => []

def messageLog (m : Mux) (len : ℕ) (f : Option Frame) : List Frame :=
  if 0 < m.maxFrameBytes ∧ m.maxFrameBytes < len then []
  else (f.map (m.routeLog size)).getD []

end Log

end Mux

/-! ## The events -/

namespace Ledger

inductive Act where
  | openStream (method : Text) (headers : Headers) (aborted : Option WsStatusError)
  | send (r : Ref) (payload : Payload)
  | closeSend (r : Ref)
  /-- `cancel` (no error), or `abort`: a signal, a deadline. -/
  | abort (r : Ref) (err : Option WsStatusError)
  | recv (r : Ref)
  /-- `recv` resumes after its `await`. -/
  | resume (r : Ref)
  /-- `onmessage`. -/
  | message (len : ℕ) (f : Option Frame)
  | onopen (got : Option Text)
  /-- `onclose` or `onerror`. -/
  | drop
  | close (err : WsStatusError)
  deriving DecidableEq

section Call

variable (size : Frame → ℕ)

/-- The method behind an event: the mux it leaves, and what `writeFrame` has thrown. -/
def call (m : Mux) : Act → Option (Mux × Option WsStatusError)
  | .openStream method headers aborted =>
      some (if m.nextId < 2 ^ 32 then m.openWith size method headers aborted else (m, none))
  | .send r payload => some (m.send size r payload)
  | .closeSend r => some (m.closeSend size r)
  | .abort r err => some (m.abort size r err)
  | .recv r => some (m.recv r, none)
  | .resume r => m.resume size r
  | .message len f => some (m.handleMessage size len f)
  | .onopen got => some (m.onopen got, none)
  | .drop => some (m.onTransportDrop, none)
  | .close err => some (m.close err, none)

/-- The frames `writeFrame` accepts during an event. -/
def log (m : Mux) : Act → List Frame
  | .openStream method headers aborted =>
      if m.nextId < 2 ^ 32 then m.openLog size method headers aborted else []
  | .send r payload => m.sendLog size r payload
  | .closeSend r => m.closeSendLog size r
  | .abort r _ => m.abortLog size r
  | .resume r => m.resumeLog size r
  | .message len f => m.messageLog size len f
  | .recv _ | .onopen _ | .drop | .close _ => []

end Call

/-! ## The moves -/

/-- The changes of the stream `s` at `r` that write nothing, in the course of the event `a` of
the mux `m₀`. -/
inductive Touch (m₀ : Mux) (a : Act) (r : Ref) (s : StreamImpl) : StreamImpl → Prop
  | enqueue {payload : Payload} (ha : a = .send r payload)
      (hopen : (s.sendClosed || s.finished) = false) : Touch m₀ a r s (s.enqueue payload)
  | credit (delta : ℤ) : Touch m₀ a r s { s with sendWindow := s.sendWindow + delta }
  | recv (ha : a = .recv r) : Touch m₀ a r s s.recv
  | resume {y : StreamImpl × Option ℤ} (ha : a = .resume r) (hy : s.resume = some y) :
      Touch m₀ a r s y.1
  | header {len : ℕ} {f : Frame} (ha : a = .message len (some f)) (hk : f.kind = .kindHeader)
      (hl : m₀.streams.lookup f.streamId = some r) :
      Touch m₀ a r s (s.resolveLeading (f.headers.getD ∅))
  | message {len : ℕ} {f : Frame} (ha : a = .message len (some f)) (hk : f.kind = .kindMsg)
      (hl : m₀.streams.lookup f.streamId = some r) (hroom : s.bufferedBytes ≤ m₀.maxRecvBytes) :
      Touch m₀ a r s (s.pushMsg f.payload)

/-- The changes of a stream that has not finished that come with a frame. -/
inductive Speaks (a : Act) (r : Ref) (s : StreamImpl) : Frame → StreamImpl → Prop
  | msg {payload : Payload} {s' : StreamImpl} (h : s.shift = some (payload, s')) :
      Speaks a r s (s.msgFrame payload) s'
  | update {s' : StreamImpl} {delta : ℤ} (ha : a = .resume r)
      (hy : s.resume = some (s', some delta)) : Speaks a r s (s.windowUpdateFrame delta) s'
  | halfClose (ha : a = .closeSend r) (hclosed : s.sendClosed = false) :
      Speaks a r s s.halfCloseFrame { s with sendClosed := true }

/-- The streams an event aborts. -/
inductive Aborts (m₀ : Mux) (a : Act) (r : Ref) : Option WsStatusError → Prop
  | caller {err : Option WsStatusError} (ha : a = .abort r err) : Aborts m₀ a r err
  | send {payload : Payload} {s : StreamImpl} (ha : a = .send r payload)
      (hs : m₀.objs[r]? = some s) (hopen : (s.sendClosed || s.finished) = false)
      (hover : s.maxSendBuffer < s.outboundBytes) : Aborts m₀ a r (some sendOverflow)
  | message {len : ℕ} {f : Frame} (ha : a = .message len (some f)) (hk : f.kind = .kindMsg)
      (hl : m₀.streams.lookup f.streamId = some r) : Aborts m₀ a r (some receiveOverflow)
  | born {method : Text} {headers : Headers} {err : WsStatusError}
      (ha : a = .openStream method headers (some err)) (hr : r = m₀.objs.length) :
      Aborts m₀ a r (some err)

/-- The ways in which an event fails the mux other than by an overflow of its buffer. -/
inductive Fails (m₀ : Mux) : Act → WsStatusError → Prop
  | drop : Fails m₀ .drop connectionLost
  | close (err : WsStatusError) : Fails m₀ (.close err) err
  | onopen (got : Text) : Fails m₀ (.onopen (some got)) (wrongProtocol got)
  | message {len : ℕ} {f : Option Frame}
      (hbig : 0 < m₀.maxFrameBytes ∧ m₀.maxFrameBytes < (len : ℤ)) :
      Fails m₀ (.message len f) frameTooBig

/-- The event is none of those. -/
def Calm (m₀ : Mux) : Act → Prop
  | .drop | .close _ | .onopen (some _) => False
  | .message len _ => ¬ (0 < m₀.maxFrameBytes ∧ m₀.maxFrameBytes < (len : ℤ))
  | _ => True

/-- What END and RST make of their stream. -/
def ending (f : Frame) (s : StreamImpl) : StreamImpl :=
  if f.kind = .kindEnd then
    (statusErrorFromProto f.status).elim (s.endOk (f.headers.getD ∅))
      fun e => s.endError e (f.headers.getD ∅)
  else s.endError (resetError f) (f.headers.getD ∅)

/-- **A move of a mux**, in the course of the event `a` of the mux `m₀`, in which the frames in
the list are accepted. -/
inductive Turn (size : Frame → ℕ) (m₀ : Mux) (a : Act) : Mux → List Frame → Mux → Prop
  | set {m : Mux} {r : Ref} {s s' : StreamImpl} (hs : m.objs[r]? = some s)
      (h : Touch m₀ a r s s') (hcalm : Calm m₀ a) : Turn size m₀ a m [] (m.setObj r s')
  | write {m : Mux} {r : Ref} {s s' : StreamImpl} {f : Frame} (hs : m.objs[r]? = some s)
      (hlive : s.finished = false) (h : Speaks a r s f s') (hcalm : Calm m₀ a) :
      Turn size m₀ a m ((m.setObj r s').takes size f) ((m.setObj r s').writeFrame size f).1
  | abort (m : Mux) {r : Ref} {err : Option WsStatusError} (h : Aborts m₀ a r err)
      (hcalm : Calm m₀ a) : Turn size m₀ a m (m.abortLog size r) (m.abort size r err).1
  /-- The stream of an aborted message is taken out of the registry once more. -/
  | leave {m : Mux} {r : Ref} {s : StreamImpl} (hs : m.objs[r]? = some s)
      (hfin : s.finished = true) : Turn size m₀ a m [] (m.delete s.id)
  | ended {len : ℕ} {f : Frame} (ha : a = .message len (some f))
      (hk : f.kind = .kindEnd ∨ f.kind = .kindRst) (hcalm : Calm m₀ a) :
      Turn size m₀ a m₀ [] (m₀.endWith f (ending f))
  | opens {method : Text} {headers : Headers} {aborted : Option WsStatusError}
      (ha : a = .openStream method headers aborted) (hb : m₀.nextId < 2 ^ 32) :
      Turn size m₀ a m₀ (m₀.takes size (m₀.openFrame method headers))
        (m₀.openStream size method headers).1
  | flush (ha : a = .onopen none) (hd : m₀.defunct = false) :
      Turn size m₀ a m₀ [] { m₀ with
        opened := true
        sent := m₀.sent ++ m₀.sendBuffer
        sendBuffer := []
        sendBufferBytes := 0 }
  | fails {err : WsStatusError} {c d : Bool} (hcd : (c || d) = true) (h : Fails m₀ a err) :
      Turn size m₀ a m₀ [] ({ m₀ with closed := c, dead := d }.markDefunct err)

/-- A property of a mux and of the frames it has accepted that the moves of an event keep. -/
structure Kept (size : Frame → ℕ) (m₀ : Mux) (a : Act) (P : Mux → List Frame → Prop) : Prop where
  wf : ∀ {m : Mux} {L : List Frame}, P m L → m.WF
  turn : ∀ {m m' : Mux} {L fs : List Frame}, P m L → Turn size m₀ a m fs m' → P m' (L ++ fs)

variable {size : Frame → ℕ} {m₀ m m' : Mux} {a : Act} {P : Mux → List Frame → Prop}
  {L fs : List Frame} {r : Ref} {s s' : StreamImpl} {f : Frame}

theorem Touch.id (h : Touch m₀ a r s s') : s'.id = s.id := by
  cases h with
  | resume _ hy => exact (StreamImpl.resume_follows hy).1.id
  | _ => rfl

theorem Touch.finished (h : Touch m₀ a r s s') : s'.finished = s.finished := by
  cases h with
  | resume _ hy => exact StreamImpl.resume_finished hy
  | _ => rfl

theorem Speaks.streamId (h : Speaks a r s f s') : f.streamId = s.id := by cases h <;> rfl

theorem Speaks.id (h : Speaks a r s f s') : s'.id = s.id := by
  cases h with
  | msg hsh => exact (StreamImpl.shift_eq_some hsh).2.choose_spec.2.2.1
  | update _ hy => exact (StreamImpl.resume_follows hy).1.id
  | halfClose => rfl

theorem Speaks.finished (h : Speaks a r s f s') : s'.finished = s.finished := by
  cases h with
  | msg hsh =>
      obtain ⟨hlive, -, -, -, -, hlive'⟩ := StreamImpl.shift_eq_some hsh
      exact hlive'.trans hlive.symm
  | update _ hy => exact StreamImpl.resume_finished hy
  | halfClose => rfl

theorem ending_follows (f : Frame) (s : StreamImpl) :
    s.Follows (ending f s) ∧ (ending f s).finished = true := by
  unfold ending
  split_ifs
  · cases statusErrorFromProto f.status with
    | none => exact s.endOk_follows _
    | some e => exact s.endError_follows _ _
  · exact s.endError_follows _ _

/-! ## The pieces of a method -/

variable (size) in
/-- A write leaves the streams alone, or fails the mux. -/
theorem writeFrame_streams (m : Mux) (f : Frame) :
    ((m.writeFrame size f).1.objs = m.objs ∧ (m.writeFrame size f).1.streams = m.streams) ∨
      (m.writeFrame size f).1 = m.fail preopenOverflow := by
  unfold Mux.writeFrame
  split_ifs
  · exact Or.inl ⟨rfl, rfl⟩
  · exact Or.inl ⟨rfl, rfl⟩
  · exact Or.inr rfl
  · exact Or.inl ⟨rfl, rfl⟩

variable (size) in
/-- A stream that has not finished writes without an exception. -/
theorem write_silent (hwf : m.WF) (hs : m.objs[r]? = some s) (hlive : s.finished = false)
    (s' : StreamImpl) (f : Frame) : ((m.setObj r s').writeFrame size f).2 = none := by
  have hd : (m.setObj r s').defunct = false := hwf.not_defunct hs hlive
  exact ((m.setObj r s').writeFrame_spec size hd hwf.buffer f).1

/-- `failAll` passes over a stream that has finished. -/
theorem foldl_endError_finished (err : WsStatusError) (l : List ((_ : UInt32) × Ref)) :
    ∀ o : List StreamImpl, o[r]? = some s → s.finished = true →
      (l.foldl (fun o e => o.modify e.2 (·.endError err ∅)) o)[r]? = some s := by
  intro o hs hfin
  have hsame : s.endError err ∅ = s := by rw [StreamImpl.endError, if_pos hfin]
  exact Visit.foldl_modify_of_fixed hsame l hs

variable (size) in
/-- A write leaves a stream that has finished as it is. -/
theorem writeFrame_finished (hs : m.objs[r]? = some s) (hfin : s.finished = true) (f : Frame) :
    (m.writeFrame size f).1.objs[r]? = some s := by
  rcases writeFrame_streams size m f with ⟨hobjs, -⟩ | hfail
  · rw [hobjs]
    exact hs
  · rw [hfail]
    exact foldl_endError_finished preopenOverflow _ _ hs hfin

variable (size) in
/-- **`abort`** does nothing to a stream that has finished.  Any other one stops, writes RST,
leaves the registry and settles, in a mux that may have failed by then. -/
theorem abort_cases (hwf : m.WF) (r : Ref) (err : Option WsStatusError) :
    ((∀ s, m.objs[r]? = some s → s.finished = true) ∧ m.abort size r err = (m, none) ∧
        m.abortLog size r = []) ∨
      ∃ s m₁, m.objs[r]? = some s ∧ s.finished = false ∧
        m₁ = ((m.setObj r s.stop).writeFrame size s.rstFrame).1 ∧ m₁.objs[r]? = some s.stop ∧
        m.abort size r err = ((m₁.delete s.id).setObj r (s.stop.settle err), none) ∧
        m.abortLog size r = (m.setObj r s.stop).takes size s.rstFrame := by
  unfold Mux.abort Mux.abortLog
  cases hs : m.objs[r]? with
  | none => exact .inl ⟨by simp, rfl, rfl⟩
  | some s =>
      dsimp only
      cases hfin : s.finished with
      | true => exact .inl ⟨fun t ht => Option.some.inj ht ▸ hfin, rfl, rfl⟩
      | false =>
          have hthrow := write_silent size hwf hs hfin s.stop s.rstFrame
          have hstop := writeFrame_finished size (Mux.getElem?_setObj hs s.stop) rfl s.rstFrame
          cases hw : (m.setObj r s.stop).writeFrame size s.rstFrame with
          | mk m₁ e =>
              rw [hw] at hthrow hstop
              cases hthrow
              refine .inr ⟨s, m₁, rfl, hfin, (congrArg Prod.fst hw).symm, hstop, ?_, rfl⟩
              dsimp only
              rw [if_neg (by decide), Mux.modify_eq_setObj hstop]
              rfl

variable (size) in
theorem abort_silent (hwf : m.WF) (r : Ref) (err : Option WsStatusError) :
    (m.abort size r err).2 = none := by
  rcases abort_cases size hwf r err with ⟨-, heq, -⟩ | ⟨s, m₁, -, -, -, -, heq, -⟩
  · rw [heq]
  · rw [heq]

variable (size) in
/-- The stream it was called on has finished then. -/
theorem abort_stream (hwf : m.WF) (hs : m.objs[r]? = some s) (err : Option WsStatusError) :
    ∃ t, (m.abort size r err).1.objs[r]? = some t ∧ t.finished = true ∧ t.id = s.id := by
  rcases abort_cases size hwf r err with ⟨hfin, heq, -⟩ | ⟨s₁, m₁, hs₁, -, -, hstop, heq, -⟩
  · rw [heq]
    exact ⟨s, hs, hfin s hs, rfl⟩
  · obtain rfl : s = s₁ := Option.some.inj (hs.symm.trans hs₁)
    have hsettle := s.stop.settle_follows err
    rw [heq]
    exact ⟨_, Mux.getElem?_setObj hstop _, hsettle.finished rfl, hsettle.id⟩

theorem openStream_live (hd : ¬ m.defunct = true) (method : Text) (headers : Headers) :
    m.openStream size method headers = m.enlist.writeFrame size (m.openFrame method headers) :=
  if_neg hd

variable (size) in
theorem openStream_silent (hwf : m.WF) (method : Text) (headers : Headers) :
    (m.openStream size method headers).2 = none := by
  by_cases hd : m.defunct = true
  · simp [Mux.openStream, hd]
  · rw [openStream_live hd]
    have hlive : m.enlist.defunct = false := Bool.eq_false_iff.2 hd
    exact (m.enlist.writeFrame_spec size hlive hwf.buffer _).1

/-! ## The methods -/

namespace Kept

/-- A second property, where the moves need the first to keep it. -/
theorem and {Q : Mux → List Frame → Prop} (hk : Kept size m₀ a P)
    (hq : ∀ {m m' : Mux} {L fs : List Frame}, P m L → Q m L → Turn size m₀ a m fs m' →
      Q m' (L ++ fs)) : Kept size m₀ a fun m L => P m L ∧ Q m L where
  wf h := hk.wf h.1
  turn h ht := ⟨hk.turn h.1 ht, hq h.1 h.2 ht⟩

/-- A move in which nothing is accepted. -/
theorem quiet (hk : Kept size m₀ a P) (h : P m L) (ht : Turn size m₀ a m [] m') : P m' L := by
  have hnext := hk.turn h ht
  rwa [List.append_nil] at hnext

theorem pumpTurns (hk : Kept size m₀ a P) (hc : Calm m₀ a) (n : ℕ) :
    ∀ {m : Mux} {L : List Frame}, P m L → (m.pumpTurns size n r).2 = none ∧
      P (m.pumpTurns size n r).1 (L ++ m.pumpTurnsLog size n r) := by
  induction n with
  | zero =>
      intro m L h
      refine ⟨rfl, ?_⟩
      rw [Mux.pumpTurnsLog, List.append_nil]
      exact h
  | succ n ih =>
      intro m L h
      unfold Mux.pumpTurns Mux.pumpTurnsLog
      cases hs : m.objs[r]? with
      | none => simpa using h
      | some s =>
          cases hsh : s.shift with
          | none => simpa [hsh] using h
          | some y =>
              obtain ⟨payload, s'⟩ := y
              have hlive := (StreamImpl.shift_eq_some hsh).1
              have hthrow := write_silent size (hk.wf h) hs hlive s' (s.msgFrame payload)
              have hnext := hk.turn h (.write hs hlive (.msg hsh) hc)
              cases hw : (m.setObj r s').writeFrame size (s.msgFrame payload) with
              | mk m₁ e =>
                  rw [hw] at hthrow hnext
                  cases hthrow
                  simp only [hsh, hw, ← List.append_assoc]
                  exact ih hnext

theorem pump (hk : Kept size m₀ a P) (hc : Calm m₀ a) (h : P m L) :
    (m.pump size r).2 = none ∧ P (m.pump size r).1 (L ++ m.pumpLog size r) := by
  unfold Mux.pump Mux.pumpLog
  cases m.objs[r]? with
  | none => simpa using h
  | some s => exact hk.pumpTurns hc _ h

theorem abort (hk : Kept size m₀ a P) (hc : Calm m₀ a) (h : P m L)
    {err : Option WsStatusError} (ha : Aborts m₀ a r err) :
    (m.abort size r err).2 = none ∧ P (m.abort size r err).1 (L ++ m.abortLog size r) :=
  ⟨abort_silent size (hk.wf h) r err, hk.turn h (.abort m ha hc)⟩

theorem creditSend (hk : Kept size m₀ a P) (hc : Calm m₀ a) (h : P m L) (delta : ℤ) :
    (m.creditSend size r delta).2 = none ∧
      P (m.creditSend size r delta).1 (L ++ m.creditSendLog size r delta) := by
  unfold Mux.creditSend Mux.creditSendLog
  cases hs : m.objs[r]? with
  | none => simpa using h
  | some s =>
      dsimp only
      split_ifs
      · simpa using h
      · exact hk.pump hc (hk.quiet h (.set hs (.credit delta) hc))

theorem send {payload : Payload} (hk : Kept size m (.send r payload) P) (h : P m L) :
    (m.send size r payload).2 = none ∧
      P (m.send size r payload).1 (L ++ m.sendLog size r payload) := by
  unfold Mux.send Mux.sendLog
  cases hs : m.objs[r]? with
  | none => simpa using h
  | some s =>
      dsimp only
      split_ifs with hclosed hover
      · simpa using h
      · exact hk.abort trivial h (.send rfl hs (by simpa using hclosed) hover)
      · exact hk.pump trivial (hk.quiet h (.set hs (.enqueue rfl (by simpa using hclosed)) trivial))

theorem closeSend (hk : Kept size m (.closeSend r) P) (h : P m L) :
    (m.closeSend size r).2 = none ∧ P (m.closeSend size r).1 (L ++ m.closeSendLog size r) := by
  unfold Mux.closeSend Mux.closeSendLog
  cases hs : m.objs[r]? with
  | none => simpa using h
  | some s =>
      dsimp only
      split_ifs with hopen
      · simpa using h
      · obtain ⟨hclosed, hlive⟩ : s.sendClosed = false ∧ s.finished = false := by simpa using hopen
        exact ⟨write_silent size (hk.wf h) hs hlive _ _,
          hk.turn h (.write hs hlive (.halfClose rfl hclosed) trivial)⟩

theorem recv (hk : Kept size m (.recv r) P) (h : P m L) : P (m.recv r) L := by
  unfold Mux.recv
  cases hs : m.objs[r]? with
  | none =>
      rw [List.modify_eq_self (List.getElem?_eq_none_iff.1 hs)]
      exact h
  | some s =>
      rw [Mux.modify_eq_setObj hs]
      exact hk.quiet h (.set hs (.recv rfl) trivial)

theorem resume (hk : Kept size m (.resume r) P) (h : P m L) {y : Mux × Option WsStatusError}
    (hy : m.resume size r = some y) : y.2 = none ∧ P y.1 (L ++ m.resumeLog size r) := by
  unfold Mux.resume at hy
  obtain ⟨s, hs, hy⟩ := Option.bind_eq_some_iff.1 hy
  obtain ⟨⟨s', d⟩, hz, rfl⟩ := Option.map_eq_some_iff.1 hy
  have hset := hk.quiet h (.set hs (.resume rfl hz) trivial)
  simp only [Mux.resumeLog, hs, Option.bind_some, hz, Option.map_some]
  cases d with
  | none => simpa using hset
  | some delta =>
      by_cases hdelta : delta < 2 ^ 32
      · simp only [if_pos hdelta]
        have hlive : s.finished = false := by
          by_contra hne
          cases (StreamImpl.resume_follows hz).2 (by simpa using hne)
        exact ⟨write_silent size (hk.wf h) hs hlive _ _,
          hk.turn h (.write hs hlive (.update rfl hz) trivial)⟩
      · simpa only [if_neg hdelta, List.append_nil, true_and] using hset

theorem openWith {method : Text} {headers : Headers} {aborted : Option WsStatusError}
    (hk : Kept size m (.openStream method headers aborted) P) (hb : m.nextId < 2 ^ 32)
    (h : P m L) :
    (m.openWith size method headers aborted).2 = none ∧
      P (m.openWith size method headers aborted).1 (L ++ m.openLog size method headers aborted) := by
  have hthrow := openStream_silent size (hk.wf h) method headers
  have hopen := hk.turn h (.opens rfl hb)
  unfold Mux.openWith Mux.openLog
  cases hw : m.openStream size method headers with
  | mk m₁ e =>
      rw [hw] at hthrow hopen
      cases hthrow
      cases aborted with
      | none => simpa using hopen
      | some err =>
          simp only [Option.isSome_some, if_true, ← List.append_assoc]
          exact hk.abort trivial hopen (.born rfl rfl)

theorem route {len : ℕ} (hk : Kept size m (.message len (some f)) P)
    (hc : Calm m (.message len (some f))) (h : P m L) :
    (m.route size f).2 = none ∧ P (m.route size f).1 (L ++ m.routeLog size f) := by
  have hended : ∀ g : StreamImpl → StreamImpl, f.kind = .kindEnd ∨ f.kind = .kindRst →
      g = ending f → P (m.endWith f g) L := by
    rintro _ hkind rfl
    exact hk.quiet h (.ended rfl hkind hc)
  unfold Mux.route Mux.routeLog
  cases hkind : f.kind with
  | kindHeader =>
      cases hfind : m.find f.streamId with
      | none => simpa using h
      | some y =>
          obtain ⟨hl, hs, -⟩ := (hk.wf h).find_eq_some hfind
          rw [List.append_nil]
          exact ⟨rfl, hk.quiet h (.set hs (.header rfl hkind hl) hc)⟩
  | kindWindowUpdate =>
      cases m.find f.streamId with
      | none => simpa using h
      | some y => exact hk.creditSend hc h f.window.toNat
  | kindMsg =>
      cases hfind : m.find f.streamId with
      | none => simpa using h
      | some y =>
          obtain ⟨r, s⟩ := y
          obtain ⟨hl, hs, hid⟩ := (hk.wf h).find_eq_some hfind
          dsimp only
          split_ifs with hover
          · obtain ⟨hthrow, hnext⟩ := hk.abort hc h (.message rfl hkind hl)
            obtain ⟨t, ht, hfin, htid⟩ := abort_stream size (hk.wf h) hs (some receiveOverflow)
            cases hw : m.abort size r (some receiveOverflow) with
            | mk m₁ e =>
                rw [hw] at hthrow hnext ht
                cases hthrow
                rw [← hid, ← htid]
                exact ⟨rfl, hk.quiet hnext (.leave ht hfin)⟩
          · rw [List.append_nil]
            exact ⟨rfl, hk.quiet h (.set hs (.message rfl hkind hl (not_lt.1 hover)) hc)⟩
  | kindEnd =>
      rw [List.append_nil]
      refine ⟨rfl, hended _ (.inl hkind) (funext fun s => ?_)⟩
      rw [ending, if_pos hkind]
      cases statusErrorFromProto f.status <;> rfl
  | kindRst =>
      rw [List.append_nil]
      refine ⟨rfl, hended _ (.inr hkind) (funext fun s => ?_)⟩
      rw [ending, if_neg (by rw [hkind]; decide)]
  | _ => simpa using h

theorem onopen {got : Option Text} (hk : Kept size m (.onopen got) P) (h : P m L) :
    P (m.onopen got) L := by
  unfold Mux.onopen
  split_ifs with hd
  · exact h
  · cases got with
    | some g => exact hk.quiet h (.fails (c := true) (d := m.dead) (Bool.true_or _) (.onopen g))
    | none =>
        have hclosed : ¬ m.closed = true := by
          rw [Mux.defunct, Bool.or_eq_true, not_or] at hd
          exact hd.1
        dsimp only
        rw [Mux.flush, if_neg hclosed]
        exact hk.quiet h (.flush rfl (by simpa using hd))

/-- **An event** keeps what its moves keep, and throws nothing. -/
theorem call (hk : Kept size m a P) (h : P m L) {y : Mux × Option WsStatusError}
    (hy : Ledger.call size m a = some y) : y.2 = none ∧ P y.1 (L ++ log size m a) := by
  cases a with
  | openStream method headers aborted =>
      simp only [Ledger.call, Option.some.injEq] at hy
      subst hy
      simp only [log]
      split_ifs with hb
      · exact hk.openWith hb h
      · simpa using h
  | send r payload => cases hy; exact hk.send h
  | closeSend r => cases hy; exact hk.closeSend h
  | abort r err => cases hy; exact hk.abort trivial h (.caller rfl)
  | resume r => exact hk.resume h hy
  | recv r =>
      cases hy
      rw [log, List.append_nil]
      exact ⟨rfl, hk.recv h⟩
  | message len f =>
      cases hy
      simp only [log, Mux.handleMessage, Mux.messageLog]
      split_ifs with hbig
      · rw [List.append_nil]
        exact ⟨rfl, hk.quiet h (.fails (c := true) (d := m.dead) (Bool.true_or _) (.message hbig))⟩
      · cases f with
        | none => simpa using h
        | some f => exact hk.route hbig h
  | onopen got =>
      cases hy
      rw [log, List.append_nil]
      exact ⟨rfl, hk.onopen h⟩
  | drop =>
      cases hy
      rw [log, List.append_nil]
      refine ⟨rfl, ?_⟩
      show P m.onTransportDrop L
      unfold Mux.onTransportDrop
      split_ifs
      · exact h
      · exact hk.quiet h (.fails (c := m.closed) (d := true) (Bool.or_true _) .drop)
  | close err =>
      cases hy
      rw [log, List.append_nil]
      refine ⟨rfl, ?_⟩
      show P (m.close err) L
      unfold Mux.close
      split_ifs
      · exact h
      · exact hk.quiet h (.fails (c := true) (d := m.dead) (Bool.true_or _) (.close err))

end Kept

end Ledger

end WsProto.Ts
