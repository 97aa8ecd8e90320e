import WsProto.Lib.Run
import WsProto.Ts.Turns
import WsProto.Go.Inbound.Model

/-!
# Half-close on a TypeScript client

A TypeScript mux with any number of streams; every event of its socket and every
call of its callers may come at any time.  A ghost records the payloads passed to
`send` before `closeSend`.

* `msgs_before_halfClose` — no MSG follows a stream's HALF_CLOSE, and the MSGs before
  it carry every payload that was passed to `send`, in every run in which `closeSend`
  is only called when nothing waits for credit;
* `msg_after_halfClose` — `closeSend` writes HALF_CLOSE at once, past the payloads
  that wait: a server that was told the input has ended sees the rest too late.

What a Go handler then receives, in the same condition and through its own queue, is in
`WsProto.Agree.Upload`.
-/

namespace WsProto.Ts.HalfClose

open Machine Ledger

/-! ## The model -/

/-- A mux, and the payloads passed to `send`. -/
structure Client where
  mux : Mux
  /-- Ghost: what was passed to `send` on a stream that was neither closed nor
  finished. -/
  passed : List (Ref × Payload) := []
  deriving DecidableEq

inductive Act where
  | openStream (method : Text) (headers : Headers)
  | send (r : Ref) (payload : Payload)
  | closeSend (r : Ref)
  /-- `cancel` (no error), or `abort`: a signal, a deadline. -/
  | abort (r : Ref) (err : Option WsStatusError)
  | recv (r : Ref)
  /-- `recv` resumes after its `await`. -/
  | resume (r : Ref)
  /-- `onmessage`. -/
  | message (len : ℕ) (f : Option Frame)
  | onopen (got : Option Text)
  /-- `onclose` or `onerror`. -/
  | drop
  | close (err : WsStatusError)
  deriving DecidableEq

/-- A HALF_CLOSE of stream `id`. -/
def isHalf (id : UInt32) (f : Frame) : Bool := decide (f.kind = .kindHalfClose ∧ f.streamId = id)

/-- A MSG of stream `id`. -/
def isMsg (id : UInt32) (f : Frame) : Bool := decide (f.kind = .kindMsg ∧ f.streamId = id)

/-- The payloads of the MSGs of stream `id`. -/
def payloads (id : UInt32) (l : List Frame) : List Payload :=
  (l.filter (isMsg id)).map (·.payload)

/-- The payloads passed to `send` on stream `r`. -/
def passedTo (passed : List (Ref × Payload)) (r : Ref) : List Payload :=
  (passed.filter fun e => decide (e.1 = r)).map (·.2)

namespace Client

/-- The call of `send` counts: the stream is neither closed nor finished. -/
def accepts (x : Client) (r : Ref) : Bool :=
  match x.mux.objs[r]? with
  | none => false
  | some s => !s.sendClosed && !s.finished

section System

variable (size : Frame → ℕ)

/-- An id beyond 32 bits cannot be encoded. -/
def step (x : Client) : Act → Option Client
  | .openStream method headers =>
      if x.mux.nextId < 2 ^ 32 then
        some { x with mux := (x.mux.openStream size method headers).1 }
      else none
  | .send r payload =>
      some {
        mux := (x.mux.send size r payload).1
        passed := if x.accepts r then x.passed ++ [(r, payload)] else x.passed }
  | .closeSend r => some { x with mux := (x.mux.closeSend size r).1 }
  | .abort r err => some { x with mux := (x.mux.abort size r err).1 }
  | .recv r => some { x with mux := x.mux.recv r }
  | .resume r => (x.mux.resume size r).map fun y => { x with mux := y.1 }
  | .message len f => some { x with mux := (x.mux.handleMessage size len f).1 }
  | .onopen got => some { x with mux := x.mux.onopen got }
  | .drop => some { x with mux := x.mux.onTransportDrop }
  | .close err => some { x with mux := x.mux.close err }

end System

/-- A fresh mux over a socket that is not open yet, or already is. -/
def start (initialWindow maxSendBuffer maxFrameBytes : ℤ) (ready : Bool) (got : Option Text) :
    Client :=
  { mux := .new initialWindow maxSendBuffer maxFrameBytes ready got }

/-- The condition on a step: when `closeSend` takes effect, no payload waits for
credit. -/
def Drained (x : Client) : Act → Prop
  | .closeSend r => ∀ s ∈ x.mux.objs[r]?, s.sendClosed = false → s.finished = false →
      s.outbound = []
  | _ => True

instance (x : Client) : (a : Act) → Decidable (Drained x a)
  | .closeSend _ => inferInstanceAs (Decidable (∀ s ∈ _, _))
  | .openStream _ _ | .send _ _ | .abort _ _ | .recv _ | .resume _ | .message _ _ | .onopen _
  | .drop | .close _ => inferInstanceAs (Decidable True)

end Client

/-! ## The invariant -/

/-- Where a stream stands with the frames its mux has accepted: no MSG after
HALF_CLOSE, no HALF_CLOSE before `closeSend`, and nothing waits once there is one. -/
structure Safe (out : List Frame) (s : StreamImpl) : Prop where
  order : out.Pairwise fun f g => ¬ (isHalf s.id f ∧ isMsg s.id g)
  opened : s.sendClosed = false → ∀ f ∈ out, isHalf s.id f = false
  drained : (∃ f ∈ out, isHalf s.id f) → s.finished = true ∨ s.outbound = []

/-- What was passed to `send` has been accepted or waits. -/
def Exact (out : List Frame) (p : List Payload) (s : StreamImpl) : Prop :=
  s.finished = false → payloads s.id out ++ s.outbound = p

/-- The invariant of a mux, given what was passed to each stream. -/
structure Good (m : Mux) (p : Ref → List Payload) : Prop where
  wf : m.WF
  fresh : ∀ r, m.objs.length ≤ r → p r = []
  safe : ∀ (r : Ref) (s : StreamImpl), m.objs[r]? = some s → Safe m.out s
  exact : ∀ (r : Ref) (s : StreamImpl), m.objs[r]? = some s → Exact m.out (p r) s

variable {m m' : Mux} {p p' : Ref → List Payload} {r r' : Ref} {s s' : StreamImpl}
  {out : List Frame} {f : Frame}

/-! ### Safe and Exact under changes -/

theorem isHalf_append_iff {id : UInt32} {fs : List Frame} :
    (∃ g ∈ out ++ fs, isHalf id g) ↔ (∃ g ∈ out, isHalf id g) ∨ ∃ g ∈ fs, isHalf id g := by
  simp [or_and_right, exists_or]

/-- A frame of another stream does not matter. -/
theorem Safe.append_ne (h : Safe out s) (hid : f.streamId ≠ s.id) : Safe (out ++ [f]) s := by
  have hhalf : isHalf s.id f = false := by simp [isHalf, hid]
  have hmsg : isMsg s.id f = false := by simp [isMsg, hid]
  refine ⟨List.pairwise_append.2 ⟨h.order, by simp, by simp [hmsg]⟩, fun hc g hg => ?_, fun hx => ?_⟩
  · rcases List.mem_append.1 hg with hg | hg
    · exact h.opened hc g hg
    · rw [List.mem_singleton.1 hg]; exact hhalf
  · exact h.drained (by simpa [hhalf] using isHalf_append_iff.1 hx)

/-- A frame of the stream itself: a MSG needs that HALF_CLOSE was not written, and
HALF_CLOSE that the stream is closed and nothing waits. -/
theorem Safe.append (h : Safe out s) (hmsg : isMsg s.id f → ∀ g ∈ out, isHalf s.id g = false)
    (hhalf : isHalf s.id f → s.sendClosed = true ∧ (s.finished = true ∨ s.outbound = [])) :
    Safe (out ++ [f]) s := by
  refine ⟨List.pairwise_append.2 ⟨h.order, by simp, ?_⟩, fun hc g hg => ?_, fun hx => ?_⟩
  · rintro g hg f' hf' ⟨hg', hf''⟩
    rw [List.mem_singleton.1 hf'] at hf''
    simp [hmsg hf'' g hg] at hg'
  · rcases List.mem_append.1 hg with hg | hg
    · exact h.opened hc g hg
    · rw [List.mem_singleton.1 hg]
      by_contra hne
      rw [(hhalf (by simpa using hne)).1] at hc
      cases hc
  · rcases isHalf_append_iff.1 hx with hx | ⟨g, hg, hgh⟩
    · exact h.drained hx
    · rw [List.mem_singleton.1 hg] at hgh
      exact (hhalf hgh).2

theorem Safe.follows (h : Safe out s) (hf : s.Follows s') : Safe out s' where
  order := by rw [hf.id]; exact h.order
  opened hc := by rw [hf.id]; exact h.opened (hf.sendClosed hc)
  drained hx := by
    rw [hf.id] at hx
    rw [hf.outbound]
    exact (h.drained hx).imp_left hf.finished

/-- Fewer frames. -/
theorem Safe.sublist {out' : List Frame} (h : Safe out s) (hs : out'.Sublist out) : Safe out' s where
  order := h.order.sublist hs
  opened hc g hg := h.opened hc g (hs.subset hg)
  drained := by
    rintro ⟨g, hg, hgh⟩
    exact h.drained ⟨g, hs.subset hg, hgh⟩

theorem Exact.follows {q : List Payload} (h : Exact out q s) (hf : s.Follows s') :
    Exact out q s' := by
  intro hfin
  rw [hf.id, hf.outbound]
  refine h ?_
  by_contra hne
  rw [hf.finished (by simpa using hne)] at hfin
  cases hfin

theorem payloads_append (id : UInt32) (f : Frame) :
    payloads id (out ++ [f]) = payloads id out ++ if isMsg id f then [f.payload] else [] := by
  cases h : isMsg id f <;> simp [payloads, h]

/-- A frame that is not a MSG of the stream. -/
theorem Exact.append {q : List Payload} (h : Exact out q s) (hm : isMsg s.id f = false) :
    Exact (out ++ [f]) q s := by
  intro hfin
  rw [payloads_append, hm]
  simpa using h hfin

/-- Without a HALF_CLOSE there is nothing to say. -/
theorem Safe.of_noHalf (h : ∀ g ∈ out, isHalf s.id g = false) : Safe out s where
  order := List.pairwise_iff_forall_sublist.2 fun {f g} hs hfg => by
    have hf : f ∈ out := hs.subset (by simp)
    simp [h f hf] at hfg
  opened _ := h
  drained := by
    rintro ⟨g, hg, hgh⟩
    simp [h g hg] at hgh

/-- While something waits on a stream that has not finished, HALF_CLOSE has not been
written. -/
theorem Safe.noHalf (h : Safe out s) (hfin : s.finished = false) (hne : s.outbound ≠ []) :
    ∀ g ∈ out, isHalf s.id g = false := by
  intro g hg
  by_contra hgh
  rcases h.drained ⟨g, hg, by simpa using hgh⟩ with h' | h'
  · rw [hfin] at h'
    cases h'
  · exact hne h'

/-! ### The pieces of a method -/

/-- A change of one stream. -/
theorem Good.set (hg : Good m p) (hs : m.objs[r]? = some s) (hid : s'.id = s.id)
    (hfin : s.finished = true → s'.finished = true) (hsafe : Safe m.out s')
    (hexact : Exact m.out (p' r) s') (hp : ∀ q, q ≠ r → p' q = p q) :
    Good (m.setObj r s') p' := by
  have hlt : r < m.objs.length := (List.getElem?_eq_some_iff.1 hs).1
  refine {
    wf := hg.wf.setObj hs hid hfin
    fresh := fun q hq => ?_
    safe := fun q t ht => ?_
    exact := fun q t ht => ?_ }
  · have hq' : m.objs.length ≤ q := by simpa [Mux.setObj] using hq
    rw [hp q (Nat.ne_of_gt (Nat.lt_of_lt_of_le hlt hq'))]
    exact hg.fresh q hq'
  · obtain ⟨-, rfl⟩ | ⟨-, ht⟩ := Mux.of_getElem?_setObj hs ht
    · exact hsafe
    · exact hg.safe q t ht
  · obtain ⟨rfl, rfl⟩ | ⟨hq, ht⟩ := Mux.of_getElem?_setObj hs ht
    · exact hexact
    · rw [hp q hq]
      exact hg.exact q t ht

/-- A change that sends nothing. -/
theorem Good.follows (hg : Good m p) (hs : m.objs[r]? = some s) (hf : s.Follows s') :
    Good (m.setObj r s') p :=
  hg.set hs hf.id hf.finished ((hg.safe r s hs).follows hf) ((hg.exact r s hs).follows hf)
    fun _ _ => rfl

/-- A stream that has finished may leave the registry. -/
theorem Good.delete (hg : Good m p) {id : UInt32}
    (hid : ∀ (r : Ref) (s : StreamImpl), m.objs[r]? = some s → s.id = id → s.finished = true) :
    Good (m.delete id) p :=
  { hg with wf := hg.wf.delete hid }

/-- Nothing is asked of a stream that has finished. -/
theorem Good.reassign (hg : Good m p) (hp : ∀ q, q ≠ r → p' q = p q)
    (hs : m.objs[r]? = some s) (hfin : s.finished = true) : Good m p' := by
  have hlt : r < m.objs.length := (List.getElem?_eq_some_iff.1 hs).1
  refine { hg with
    fresh := fun q hq => ?_
    exact := fun q t ht => ?_ }
  · rw [hp q (Nat.ne_of_gt (Nat.lt_of_lt_of_le hlt hq))]
    exact hg.fresh q hq
  · by_cases hq : q = r
    · subst hq
      obtain rfl : s = t := Option.some.inj (hs.symm.trans ht)
      intro hne
      rw [hfin] at hne
      cases hne
    · rw [hp q hq]
      exact hg.exact q t ht

/-- **A mux that goes defunct** finishes all its streams, whatever was on its way. -/
theorem good_markDefunct (hwf : m.WF) (hfresh : ∀ r, m.objs.length ≤ r → p r = [])
    (hsafe : ∀ (r : Ref) (s : StreamImpl), m.objs[r]? = some s → Safe m.out s)
    (err : WsStatusError) (c d : Bool) :
    Good ({ m with closed := c, dead := d }.markDefunct err) p := by
  rw [Mux.markDefunct_flags]
  have hwf' := hwf.markDefunct err
  have hout : (m.markDefunct err).out.Sublist m.out := by
    simp [Mux.out, Mux.markDefunct, Mux.failAll]
  refine {
    wf := { hwf' with defunct := fun _ => rfl }
    fresh := fun r hr => hfresh r (by rw [← m.length_markDefunct err]; exact hr)
    safe := fun r s hs => ?_
    exact := fun r s hs hne => ?_ }
  · obtain ⟨s₀, hs₀, hfol, -⟩ := hwf.markDefunct_finished err hs
    exact ((hsafe r s₀ hs₀).follows hfol).sublist hout
  · obtain ⟨-, -, -, hfin⟩ := hwf.markDefunct_finished err hs
    rw [hne] at hfin
    cases hfin

/-- **A write of stream `r`** on a live mux, when every other stream is in order and
`r` will be once the frame has been accepted. -/
theorem good_writeFrame (size : Frame → ℕ) (hwf : m.WF) (hd : m.defunct = false)
    (hfresh : ∀ r, m.objs.length ≤ r → p r = []) (hs : m.objs[r]? = some s)
    (hf : f.streamId = s.id)
    (hsafe : ∀ (q : Ref) (t : StreamImpl), m.objs[q]? = some t → Safe m.out t)
    (hexact : ∀ (q : Ref) (t : StreamImpl), q ≠ r → m.objs[q]? = some t → Exact m.out (p q) t)
    (hsafe' : Safe (m.out ++ [f]) s) (hexact' : Exact (m.out ++ [f]) (p r) s) :
    Good (m.writeFrame size f).1 p := by
  obtain ⟨-, ha | hfail⟩ := m.writeFrame_spec size hd hwf.buffer f
  · -- the ids of the other streams are not the frame's
    have hne : ∀ (q : Ref) (t : StreamImpl), q ≠ r → m.objs[q]? = some t → f.streamId ≠ t.id := by
      intro q t hq ht hid
      exact hq (hwf.id_inj ht hs (hid.symm.trans hf))
    refine {
      wf := hwf.accepts ha ⟨r, s, hs, hf.symm⟩
      fresh := by rw [ha.objs]; exact hfresh
      safe := fun q t ht => ?_
      exact := fun q t ht => ?_ }
    · rw [ha.objs] at ht
      rw [ha.out]
      by_cases hq : q = r
      · subst hq
        obtain rfl : s = t := Option.some.inj (hs.symm.trans ht)
        exact hsafe'
      · exact (hsafe q t ht).append_ne (hne q t hq ht)
    · rw [ha.objs] at ht
      rw [ha.out]
      by_cases hq : q = r
      · subst hq
        obtain rfl : s = t := Option.some.inj (hs.symm.trans ht)
        exact hexact'
      · exact (hexact q t hq ht).append (by simp [isMsg, hne q t hq ht])
  · rw [hfail]
    exact good_markDefunct hwf hfresh hsafe preopenOverflow true m.dead

/-- A live stream changes to `s'` and writes `f`. -/
theorem Good.emit (size : Frame → ℕ) (hg : Good m p) (hs : m.objs[r]? = some s)
    (hlive : s.finished = false) (hid : s'.id = s.id) (hf : f.streamId = s.id)
    (hsafe : Safe m.out s') (hsafe' : Safe (m.out ++ [f]) s')
    (hexact' : Exact (m.out ++ [f]) (p' r) s') (hp : ∀ q, q ≠ r → p' q = p q) :
    Good ((m.setObj r s').writeFrame size f).1 p' := by
  have hlt : r < m.objs.length := (List.getElem?_eq_some_iff.1 hs).1
  refine good_writeFrame size (hg.wf.setObj hs hid (by simp [hlive])) (hg.wf.not_defunct hs hlive)
    (fun q hq => ?_) (Mux.getElem?_setObj hs s') (hf.trans hid.symm) (fun q t ht => ?_)
    (fun q t hq ht => ?_) hsafe' hexact'
  · have hq' : m.objs.length ≤ q := by simpa [Mux.setObj] using hq
    rw [hp q (Nat.ne_of_gt (Nat.lt_of_lt_of_le hlt hq'))]
    exact hg.fresh q hq'
  · obtain ⟨-, rfl⟩ | ⟨-, ht⟩ := Mux.of_getElem?_setObj hs ht
    · exact hsafe
    · exact hg.safe q t ht
  · rw [Mux.getElem?_setObj_ne (Ne.symm hq)] at ht
    rw [hp q hq]
    exact hg.exact q t ht

/-! ### The methods -/

section Methods

variable (size : Frame → ℕ)

/-- A turn of `pump` moves a payload from the backlog to the mux. -/
theorem Good.msg (hg : Good m p) (hs : m.objs[r]? = some s) {payload : Payload}
    (hsh : s.shift = some (payload, s')) :
    Good ((m.setObj r s').writeFrame size (s.msgFrame payload)).1 p := by
  obtain ⟨hfin, rest, hout, hout', hid, hfin'⟩ := StreamImpl.shift_eq_some hsh
  have hno := (hg.safe r s hs).noHalf hfin (by simp [hout])
  have hno' : ∀ g ∈ m.out ++ [s.msgFrame payload], isHalf s'.id g = false := by
    intro g hgm
    rw [hid]
    rcases List.mem_append.1 hgm with h | h
    · exact hno g h
    · rw [List.mem_singleton.1 h]
      simp [isHalf, StreamImpl.msgFrame]
  have hexact : Exact (m.out ++ [s.msgFrame payload]) (p r) s' := by
    intro _
    have hx := hg.exact r s hs hfin
    rw [hid, hout', payloads_append, ← hx, hout]
    simp [isMsg, StreamImpl.msgFrame]
  exact hg.emit size hs hfin hid rfl
    (.of_noHalf fun g hgm => hno' g (List.mem_append_left _ hgm)) (.of_noHalf hno')
    hexact fun _ _ => rfl

/-- `cancel` and `abort` finish their stream, whatever was passed to it. -/
theorem Good.abort (hg : Good m p) (hp : ∀ q, q ≠ r → p' q = p q) (hs : m.objs[r]? = some s)
    (err : Option WsStatusError) : Good (m.abort size r err).1 p' := by
  rcases abort_cases size hg.wf r err with ⟨hfin, heq, -⟩ | ⟨s₁, m₁, hs₁, hlive, rfl, hstop, heq, -⟩
  · rw [heq]
    exact hg.reassign hp hs (hfin s hs)
  · obtain rfl : s = s₁ := Option.some.inj (hs.symm.trans hs₁)
    have hsafe := (hg.safe r s hs).follows s.stop_follows
    have hsafe' : Safe (m.out ++ [s.rstFrame]) s.stop :=
      hsafe.append (by simp [isMsg, StreamImpl.rstFrame]) (by simp [isHalf, StreamImpl.rstFrame])
    have hexact' : Exact (m.out ++ [s.rstFrame]) (p' r) s.stop := Bool.noConfusion
    have hgood := hg.emit size hs hlive s.stop_follows.id rfl hsafe hsafe' hexact' hp
    rw [heq]
    refine Good.follows ?_ hstop (s.stop.settle_follows err)
    -- its id is no other stream's
    refine hgood.delete fun q u hu hid => ?_
    obtain rfl : q = r := hgood.wf.id_inj hu hstop hid
    obtain rfl : s.stop = u := Option.some.inj (hstop.symm.trans hu)
    rfl

/-- HALF_CLOSE with nothing waiting. -/
theorem Good.halfClose (hg : Good m p) (hs : m.objs[r]? = some s) (hfin : s.finished = false)
    (hdrained : s.outbound = []) :
    Good ((m.setObj r { s with sendClosed := true }).writeFrame size s.halfCloseFrame).1 p := by
  have hfol : s.Follows { s with sendClosed := true } :=
    { id := rfl, outbound := rfl, sendClosed := Bool.noConfusion, finished := fun h => h }
  have hsafe := (hg.safe r s hs).follows hfol
  refine hg.emit size hs hfin hfol.id rfl hsafe (hsafe.append ?_ ?_) ?_ fun _ _ => rfl
  · simp [isMsg, StreamImpl.halfCloseFrame]
  · intro _
    exact ⟨rfl, Or.inr hdrained⟩
  · exact ((hg.exact r s hs).follows hfol).append (by simp [isMsg, StreamImpl.halfCloseFrame])

/-- `recv` returns credit. -/
theorem Good.update (hg : Good m p) (hs : m.objs[r]? = some s) (hfin : s.finished = false)
    (hfol : s.Follows s') (delta : ℤ) :
    Good ((m.setObj r s').writeFrame size (s.windowUpdateFrame delta)).1 p := by
  have hsafe := (hg.safe r s hs).follows hfol
  have hexact := (hg.exact r s hs).follows hfol
  refine hg.emit size hs hfin hfol.id rfl hsafe (hsafe.append ?_ ?_) (hexact.append ?_)
    fun _ _ => rfl
  · simp [isMsg, StreamImpl.windowUpdateFrame]
  · simp [isHalf, StreamImpl.windowUpdateFrame]
  · simp [isMsg, StreamImpl.windowUpdateFrame]

/-! ### Opening and routing -/

/-- A new stream: its id is in no frame yet. -/
theorem Good.openStream (hg : Good m p) (hb : m.nextId < 2 ^ 32) (method : Text)
    (headers : Headers) : Good (m.openStream size method headers).1 p := by
  have hnone : ∀ g ∈ m.out, g.streamId ≠ UInt32.ofNat m.nextId := by
    intro g hgm
    obtain ⟨q, t, ht, hid⟩ := hg.wf.frames g hgm
    rw [← hid]
    exact hg.wf.id_ne_next hb ht
  have hsafe : ∀ s : StreamImpl, s.id = UInt32.ofNat m.nextId → Safe m.out s := by
    intro s hid
    refine .of_noHalf fun g hgm => ?_
    simp [isHalf, hid, hnone g hgm]
  have hfresh : ∀ r, m.objs.length + 1 ≤ r → p r = [] := fun r hr =>
    hg.fresh r (Nat.le_of_succ_le hr)
  unfold Mux.openStream
  dsimp only
  split
  · rename_i hd
    obtain ⟨hfol, hfin⟩ := (newStreamImpl (UInt32.ofNat m.nextId) m.initialWindow
      m.maxSendBuffer).endError_follows (m.terminalError.getD connectionLost) ∅
    have hnil : m.streams = ∅ := hg.wf.defunct hd
    refine {
      wf := hg.wf.add hb hfol.id (fun _ _ => rfl) (by simp [hnil]) (by simp [hfin]) hg.wf.defunct
      fresh := by simpa using hfresh
      safe := fun q t ht => ?_
      exact := fun q t ht => ?_ }
    · rcases Mux.getElem?_add.1 ht with ht | ⟨-, rfl⟩
      · exact hg.safe q t ht
      · exact hsafe _ hfol.id
    · rcases Mux.getElem?_add.1 ht with ht | ⟨-, rfl⟩
      · exact hg.exact q t ht
      · intro hne
        rw [hfin] at hne
        cases hne
  · rename_i hd
    have hd' : m.defunct = false := by simpa using hd
    have hpay : payloads (UInt32.ofNat m.nextId) m.out = [] := by
      simp only [payloads, List.map_eq_nil_iff, List.filter_eq_nil_iff]
      intro g hgm
      simp [isMsg, hnone g hgm]
    have hwf : m.enlist.WF := hg.wf.enlist hd hb
    refine good_writeFrame size hwf hd' (by simpa [Mux.enlist] using hfresh)
      (Mux.getElem?_add.2 (Or.inr ⟨rfl, rfl⟩)) rfl (fun q t ht => ?_) (fun q t hq ht => ?_)
      ((hsafe _ rfl).append ?_ ?_) (fun _ => ?_)
    · rcases Mux.getElem?_add.1 ht with ht | ⟨-, rfl⟩
      · exact hg.safe q t ht
      · exact hsafe _ rfl
    · rcases Mux.getElem?_add.1 ht with ht | ⟨rfl, -⟩
      · exact hg.exact q t ht
      · exact absurd rfl hq
    · simp [isMsg]
    · simp [isHalf]
    · rw [payloads_append, hg.fresh _ (Nat.le_refl _)]
      show payloads (UInt32.ofNat m.nextId) m.out ++ _ ++ [] = []
      rw [hpay]
      simp [isMsg]

/-- A terminal frame. -/
theorem Good.ended (hg : Good m p) (f : Frame) : Good (m.endWith f (ending f)) p := by
  unfold Mux.endWith
  split
  · rename_i hnone
    refine hg.delete fun r s hs hid => ?_
    by_contra hne
    have hl := hg.wf.live r s hs (by simpa using hne)
    rw [hid] at hl
    simp [Mux.find, hl, hs] at hnone
  · rename_i r s hfind
    obtain ⟨-, hs, hid⟩ := hg.wf.find_eq_some hfind
    obtain ⟨hfol, hfin⟩ := ending_follows f s
    have hset : Good (m.setObj r (ending f s)) p := hg.follows hs hfol
    have hnew := Mux.getElem?_setObj hs (ending f s)
    -- finishing the stream and letting go of it commute
    show Good ((m.setObj r (ending f s)).delete f.streamId) p
    refine hset.delete fun q t ht hidt => ?_
    obtain rfl : q = r := hset.wf.id_inj ht hnew (hidt.trans (hid.symm.trans hfol.id.symm))
    obtain rfl : ending f s = t := Option.some.inj (hnew.symm.trans ht)
    exact hfin

/-- The socket opens: the same frames, now all of them on it. -/
theorem Good.flush (hg : Good m p) :
    Good { m with
      opened := true
      sent := m.sent ++ m.sendBuffer
      sendBuffer := []
      sendBufferBytes := 0 } p := by
  have hout : ({ m with
      opened := true
      sent := m.sent ++ m.sendBuffer
      sendBuffer := []
      sendBufferBytes := 0 } : Mux).out = m.out := by
    simp [Mux.out]
  exact {
    wf := { hg.wf with
      buffer := fun _ => rfl
      frames := by rw [hout]; exact hg.wf.frames }
    fresh := hg.fresh
    safe := by rw [hout]; exact hg.safe
    exact := by rw [hout]; exact hg.exact }

/-- `send` and `closeSend`. -/
def outgoing : Ledger.Act → Bool
  | .send _ _ | .closeSend _ => true
  | _ => false

/-- **Every move** of the other events keeps the invariant. -/
theorem good_kept (m₀ : Mux) {a : Ledger.Act} (hother : outgoing a = false) :
    Ledger.Kept size m₀ a fun m _ => Good m p where
  wf hg := hg.wf
  turn {m m' L fs} hg ht := by
    cases ht with
    | set hs htouch =>
        refine hg.follows hs ?_
        cases htouch with
        | enqueue ha =>
            subst ha
            cases hother
        | resume _ hy => exact (StreamImpl.resume_follows hy).1
        | credit | recv | header | message => exact ⟨rfl, rfl, id, id⟩
    | write hs hlive hspeaks =>
        cases hspeaks with
        | msg hsh => exact hg.msg size hs hsh
        | update _ hy => exact hg.update size hs hlive (StreamImpl.resume_follows hy).1 _
        | halfClose ha =>
            subst ha
            cases hother
    | @abort _ r err _ =>
        cases hs : m.objs[r]? with
        | none => simpa [Mux.abort, hs] using hg
        | some s => exact hg.abort size (fun _ _ => rfl) hs err
    | leave hs hfin =>
        refine hg.delete fun q u hu hid => ?_
        obtain rfl := hg.wf.id_inj hu hs hid
        obtain rfl := Option.some.inj (hs.symm.trans hu)
        exact hfin
    | ended _ _ => exact hg.ended _
    | opens _ hb => exact hg.openStream size hb _ _
    | flush _ _ => exact hg.flush
    | fails _ _ => exact good_markDefunct hg.wf hg.fresh hg.safe _ _ _

/-- `send` on a stream that takes it. -/
theorem Good.send (hg : Good m p) (hs : m.objs[r]? = some s) (hc : s.sendClosed = false)
    (hfin : s.finished = false) (payload : Payload) (hr : p' r = p r ++ [payload])
    (hp : ∀ q, q ≠ r → p' q = p q) : Good (m.send size r payload).1 p' := by
  unfold Mux.send
  rw [hs]
  simp only [hc, hfin, Bool.or_self, Bool.false_eq_true, if_false]
  split
  · exact hg.abort size hp hs _
  · have hsafe : Safe m.out (s.enqueue payload) := .of_noHalf ((hg.safe r s hs).opened hc)
    have hexact : Exact m.out (p' r) (s.enqueue payload) := by
      intro _
      rw [hr, ← hg.exact r s hs hfin]
      simp [StreamImpl.enqueue]
    have hid : (s.enqueue payload).id = s.id := rfl
    have hset := hg.set hs hid (fun h => h) hsafe hexact hp
    -- what `pump` does is part of other events too
    exact ((good_kept size m (a := .recv r) rfl).pump trivial (L := []) hset).2

/-- `closeSend` with nothing waiting. -/
theorem Good.closeSend (hg : Good m p)
    (hdrained : ∀ s ∈ m.objs[r]?, s.sendClosed = false → s.finished = false → s.outbound = []) :
    Good (m.closeSend size r).1 p := by
  unfold Mux.closeSend
  split
  · exact hg
  · rename_i s hs
    split
    · exact hg
    · rename_i hopen
      obtain ⟨hc, hfin⟩ : s.sendClosed = false ∧ s.finished = false := by simpa using hopen
      exact hg.halfClose size hs hfin (hdrained s hs hc hfin)

/-- **Every event** but `send` and `closeSend` keeps the invariant. -/
theorem Good.call (hg : Good m p) {a : Ledger.Act} (hother : outgoing a = false)
    {y : Mux × Option WsStatusError} (hy : Ledger.call size m a = some y) : Good y.1 p :=
  ((good_kept size m hother).call (L := []) hg hy).2

end Methods

/-! ## Every run -/

namespace Client

variable {size : Frame → ℕ} {x x' : Client}

theorem passedTo_append (passed : List (Ref × Payload)) (q r : Ref) (payload : Payload) :
    passedTo (passed ++ [(r, payload)]) q =
      passedTo passed q ++ if r = q then [payload] else [] := by
  by_cases h : r = q <;> simp [passedTo, h]

/-- The invariant of the system. -/
def Inv (x : Client) : Prop := Good x.mux (passedTo x.passed)

theorem inv_start (W B F : ℤ) (ready : Bool) (got : Option Text) :
    Inv (start W B F ready got) := by
  have hempty : ∀ m : Mux, m.objs = [] → m.nextId = 1 → m.streams = ∅ → m.sent = [] →
      m.sendBuffer = [] → Good m (passedTo []) := by
    intro m hobjs hnext hstreams hsent hbuf
    refine {
      wf := .of_empty hobjs hnext hstreams hsent hbuf
      fresh := fun _ _ => rfl
      safe := by simp [hobjs]
      exact := by simp [hobjs] }
  unfold Inv start Mux.new
  dsimp only
  split
  · split <;> exact hempty _ rfl rfl rfl rfl rfl
  · exact hempty _ rfl rfl rfl rfl rfl

theorem inv_step {a : Act} (hg : Inv x) (hk : Drained x a) (h : x.step size a = some x') :
    Inv x' := by
  unfold Inv at hg ⊢
  cases a with
  | openStream method headers =>
      obtain ⟨hb, ⟨⟩⟩ := Option.ite_none_right_eq_some.1 h
      exact hg.openStream size hb method headers
  | send r payload =>
      cases h
      cases hs : x.mux.objs[r]? with
      | none => simpa [accepts, Mux.send, hs] using hg
      | some s =>
          by_cases hopen : s.sendClosed = false ∧ s.finished = false
          · obtain ⟨hc, hfin⟩ := hopen
            simp only [accepts, hs, hc, hfin, Bool.not_false, Bool.and_self, if_true]
            refine hg.send size hs hc hfin payload ?_ fun q hq => ?_
            · rw [passedTo_append, if_pos rfl]
            · rw [passedTo_append, if_neg (Ne.symm hq), List.append_nil]
          · have hclosed : (s.sendClosed || s.finished) = true := by
              by_contra hne
              exact hopen (by simpa using hne)
            have hno : (!s.sendClosed && !s.finished) = false := by
              rw [← Bool.not_or, hclosed]
              rfl
            simpa [accepts, Mux.send, hs, hclosed, hno] using hg
  | closeSend r => cases h; exact hg.closeSend size hk
  | abort r err => cases h; exact hg.call size (a := .abort r err) rfl rfl
  | recv r => cases h; exact hg.call size (a := .recv r) rfl rfl
  | resume r =>
      obtain ⟨y, hy, rfl⟩ := Option.map_eq_some_iff.1 h
      exact hg.call size (a := .resume r) rfl hy
  | message len f => cases h; exact hg.call size (a := .message len f) rfl rfl
  | onopen got => cases h; exact hg.call size (a := .onopen got) rfl rfl
  | drop => cases h; exact hg.call size (a := .drop) rfl rfl
  | close err => cases h; exact hg.call size (a := .close err) rfl rfl

/-- **HALF_CLOSE is last.**  In every run in which no payload waits for credit when
`closeSend` takes effect: in the frames the mux has accepted, on the socket and
waiting for it to open, no MSG of a stream follows its HALF_CLOSE, and as long as
the stream has not finished, the MSGs before it carry every payload that was passed
to `send` before `closeSend`, in order. -/
theorem msgs_before_halfClose (size : Frame → ℕ) (W B F : ℤ) (ready : Bool) (got : Option Text)
    {x : Client} (h : Reach (step size) Drained (start W B F ready got) x) {r : Ref}
    {s : StreamImpl} (hs : x.mux.objs[r]? = some s) {a b : List Frame} {f : Frame}
    (hout : x.mux.sent ++ x.mux.sendBuffer = a ++ f :: b) (hf : isHalf s.id f = true) :
    (∀ g ∈ b, isMsg s.id g = false) ∧
      (s.finished = false → payloads s.id a = passedTo x.passed r) := by
  have hg : Inv x := h.invariant (inv_start W B F ready got)
    fun _ _ _ hg hk hstep => inv_step hg hk hstep
  have hsafe := hg.safe r s hs
  have hout' : x.mux.out = a ++ f :: b := hout
  have hlast : ∀ g ∈ b, isMsg s.id g = false := by
    intro g hgb
    have hord := hsafe.order
    rw [hout'] at hord
    have hfb := (List.pairwise_cons.1 (List.pairwise_append.1 hord).2.1).1 g hgb
    simpa [hf] using hfb
  refine ⟨hlast, fun hfin => ?_⟩
  have hnil : s.outbound = [] := by
    refine (hsafe.drained ⟨f, by simp [hout'], hf⟩).resolve_left ?_
    simp [hfin]
  have hfm : isMsg s.id f = false := by
    have hk : f.kind = .kindHalfClose := (of_decide_eq_true hf).1
    simp [isMsg, hk]
  have hb : (f :: b).filter (isMsg s.id) = [] := by
    simp only [List.filter_eq_nil_iff, List.forall_mem_cons]
    exact ⟨by simp [hfm], fun g hgb => by simp [hlast g hgb]⟩
  rw [← hg.exact r s hs hfin, hnil, List.append_nil, hout', payloads, payloads,
    List.filter_append, hb, List.append_nil]

/-- The frame sizes of the two runs below. -/
def payloadSize (f : Frame) : ℕ := f.payload.length

/-- The frames of the two runs below, OPEN apart. -/
def msg (payload : Payload) : Frame := { streamId := 1, kind := .kindMsg, payload }

def half : Frame := { streamId := 1, kind := .kindHalfClose }

theorem eq_cons_of_tail {l rest : List Frame} (h : l.tail = rest) (hne : rest ≠ []) :
    ∃ o, l = o :: rest := by
  cases l with
  | nil => exact absurd h.symm hne
  | cons o l => exact ⟨o, by rw [← h]; rfl⟩

/-- One payload is sent and the stream is closed. -/
theorem msgs_before_halfClose_one :
    ∃ x : Client, Reach (step payloadSize) Drained (start 4 0 0 true none) x ∧
      ∃ o, x.mux.sent ++ x.mux.sendBuffer = [o, msg [1]] ++ half :: [] ∧
        ∃ s, x.mux.objs[0]? = some s ∧ s.finished = false ∧
          payloads s.id [o, msg [1]] = passedTo x.passed 0 := by
  obtain ⟨x, hx, hp⟩ := exists_reach_of_exec (step payloadSize) Drained (start 4 0 0 true none)
    (fun x => decide (x.mux.sent.tail = [msg [1], half] ∧ x.mux.sendBuffer = [] ∧
      (x.mux.objs[0]?).map StreamImpl.id = some 1 ∧
      (x.mux.objs[0]?).map StreamImpl.finished = some false))
    [.openStream .empty ∅, .send 0 [1], .closeSend 0] (by decide)
  simp only [decide_eq_true_eq] at hp
  obtain ⟨htail, hbuf, hid, hfin⟩ := hp
  obtain ⟨o, hsent⟩ := eq_cons_of_tail htail (by simp)
  obtain ⟨s, hs, hid⟩ := Option.map_eq_some_iff.1 hid
  have hfin : s.finished = false := by simpa [hs] using hfin
  have hout : x.mux.sent ++ x.mux.sendBuffer = [o, msg [1]] ++ half :: [] := by
    rw [hsent, hbuf]
    rfl
  exact ⟨x, hx, o, hout, s, hs, hfin, (msgs_before_halfClose payloadSize 4 0 0 true none hx hs hout
    (by rw [hid]; decide)).2 hfin⟩

/-- A Go server routes a MSG and a HALF_CLOSE and receives twice. -/
def serverRun (m h : Frame) : List Go.InboundAct :=
  [.route m, .loop, .route h, .recvRawContext none, .recv, .recv, .recvRawContext none, .recv,
    .select .halfClosed, .recv]

/-- **A payload after HALF_CLOSE.**  With a window of four bytes, five bytes are sent,
then one more, which waits, then the stream is closed: HALF_CLOSE overtakes the last
payload, which goes out when the server returns credit.  By then the server's
handler, given the first payload, has been told that the input has ended. -/
theorem msg_after_halfClose :
    ∃ x : Client, Reach (step payloadSize) Always (start 4 0 0 true none) x ∧
      passedTo x.passed 0 = [[1, 2, 3, 4, 5], [6]] ∧
      (∃ o, x.mux.sent = [o, msg [1, 2, 3, 4, 5], half, msg [6]]) ∧
      (exec Go.Inbound.step Always (Go.Inbound.start true none 1 .empty 4)
        (serverRun (msg [1, 2, 3, 4, 5]) half)).map (·.results) =
          some [.ok [1, 2, 3, 4, 5], .error .eof] := by
  obtain ⟨x, hx, hp⟩ := exists_reach_of_exec (step payloadSize) Always (start 4 0 0 true none)
    (fun x => decide (passedTo x.passed 0 = [[1, 2, 3, 4, 5], [6]] ∧
      x.mux.sent.tail = [msg [1, 2, 3, 4, 5], half, msg [6]]))
    [.openStream .empty ∅, .send 0 [1, 2, 3, 4, 5], .send 0 [6], .closeSend 0,
      .message 0 (some { streamId := 1, kind := .kindWindowUpdate, window := 5 })] (by decide)
  simp only [decide_eq_true_eq] at hp
  exact ⟨x, hx, hp.1, eq_cons_of_tail hp.2 (by simp), by decide⟩

end Client

end WsProto.Ts.HalfClose
