import WsProto.Deadline
import WsProto.Ts.WireGrammar

/-!
# Deadlines and abort signals of a TypeScript client

`openStream` of `src/mux.ts` arms a timer for the deadline of a call and listens to its
`AbortSignal`; callbacks that disarm both are registered with `onClose` of the stream, and
`runClose` runs them when the stream ends, whatever ends it.  Here the mux of
`WsProto.Ts.Ledger` runs together with the timers and the signals: a timer that fires and a
signal that is aborted call `abort` in between the other calls and socket events.

* `Guarded.act`, `Loose.abort` — what one call of the mux does to the timers and listeners;
* `call_guards` — in every run those that are live are those of the streams that have not
  finished, so none outlives its stream and none is lost.
-/

namespace WsProto.Ts.CallGuards

open Machine Ledger WireGrammar

/-! ## The callbacks of a stream -/

/-- An `AbortSignal`. -/
abbrev Signal := ℕ

/-- The callbacks `openStream` registers. -/
inductive Cleanup where
  | clearTimeout
  | removeEventListener
  deriving DecidableEq

/-- What a stream holds outside the mux, and its `closeCbs`. -/
structure Guard where
  timer : Bool := false
  listener : Option Signal := none
  closeCbs : List Cleanup := []
  deriving DecidableEq

def Cleanup.run : Cleanup → Guard → Guard
  | .clearTimeout, g => { g with timer := false }
  | .removeEventListener, g => { g with listener := none }

/-- `runClose`. -/
def Guard.runClose (g : Guard) : Guard :=
  g.closeCbs.foldl (fun g cb => cb.run g) { g with closeCbs := [] }

/-- `onClose`: a callback of a stream that has finished runs at once. -/
def Guard.onClose (g : Guard) (finished : Bool) (cb : Cleanup) : Guard :=
  if finished then cb.run g else { g with closeCbs := g.closeCbs ++ [cb] }

/-- `setTimeout`, with the callback that undoes it. -/
def Guard.setTimeout (g : Guard) (finished : Bool) : Guard :=
  { g with timer := true }.onClose finished .clearTimeout

/-- `addEventListener`, with the callback that undoes it. -/
def Guard.addEventListener (g : Guard) (sig : Signal) (finished : Bool) : Guard :=
  { g with listener := some sig }.onClose finished .removeEventListener

/-- The fields of `StreamInit` beside the headers; a timeout is positive. -/
structure StreamInit where
  timeoutMs : Option JsNumber := none
  signal : Option Signal := none

/-- What a call holds until it ends. -/
def StreamInit.guard (i : StreamInit) : Guard where
  timer := i.timeoutMs.isSome
  listener := i.signal
  closeCbs := (if i.timeoutMs.isSome then [.clearTimeout] else []) ++
    if i.signal.isSome then [.removeEventListener] else []

/-! ## The system -/

def deadlineExceeded : WsStatusError :=
  { code := 4, message := "deadline exceeded".toUTF8 }

/-- `abortError`; `reason` is the message of the signal's reason, if that is an `Error`. -/
def abortError (reason : Option Text) : WsStatusError :=
  { code := codeCancelled, message := reason.getD "request aborted".toUTF8 }

/-- The stream exists and has not finished. -/
def running (m : Mux) (r : Ref) : Bool := (m.objs[r]?).any fun s => !s.finished

/-- A session with what its streams hold, and the signals that are aborted. -/
structure Calls where
  sess : Session
  guards : Ref → Guard := fun _ => {}
  aborted : Signal → Option WsStatusError := fun _ => none
  /-- Ghost: what the streams were opened with. -/
  inits : Ref → StreamInit := fun _ => {}

namespace Calls

def mux (x : Calls) : Mux := x.sess.mux

section System

variable (size : Frame → ℕ)

/-- Whether a call throws. -/
def thrown (m : Mux) (a : Act) : Bool := ((call size m a).bind Prod.snd).isSome

/-- A call of the mux: `runClose` of every stream that finishes in it.  `cancel`, `abort`,
`endOk` and `endError` set `finished` once and end with `runClose`, and nothing they do in
between looks at a timer or a listener. -/
def act (x : Calls) (a : Act) : Option Calls :=
  (x.sess.step size a).map fun sess =>
    { x with
      sess
      guards := fun r =>
        if thrown size x.mux a = false ∧ running x.mux r = true ∧ running sess.mux r = false then
          (x.guards r).runClose
        else x.guards r }

/-- The guard of one stream changes. -/
def setGuard (x : Calls) (r : Ref) (g : Guard) : Calls :=
  { x with guards := Function.update x.guards r g }

/-- `openStream` after the write of OPEN: the timer. -/
def arm (x : Calls) (r : Ref) (i : StreamInit) : Calls :=
  if i.timeoutMs.isSome then x.setGuard r ((x.guards r).setTimeout (!running x.mux r)) else x

/-- `openStream` after the write of OPEN: the signal. -/
def listen (x : Calls) (r : Ref) (i : StreamInit) : Option Calls :=
  match i.signal with
  | none => some x
  | some sig =>
      match x.aborted sig with
      | some err => x.act size (.abort r (some err))
      | none => some (x.setGuard r ((x.guards r).addEventListener sig (!running x.mux r)))

/-- `openStream`.  A defunct mux returns a failed stream at once, and an id beyond 32 bits
cannot be encoded. -/
def openStream (x : Calls) (method : Text) (headers : Headers) (i : StreamInit) : Option Calls :=
  let a := Act.openStream method (openHeaders headers i.timeoutMs) none
  let r := x.mux.objs.length
  (x.act size a).bind fun x' =>
    if thrown size x.mux a = true ∨ x.mux.defunct = true ∨ 2 ^ 32 ≤ x.mux.nextId then some x'
    else ({ x' with inits := Function.update x'.inits r i }.arm r i).listen size r i

/-- The timer of a stream fires. -/
def expire (x : Calls) (r : Ref) : Option Calls :=
  if (x.guards r).timer then
    (x.setGuard r { x.guards r with timer := false }).act size (.abort r (some deadlineExceeded))
  else none

/-- The turn of one stream when a signal fires.  The listener is taken off (`once`) before it
runs, and one that was taken off by then does not run. -/
def notify (sig : Signal) (err : WsStatusError) (x : Calls) (r : Ref) : Option Calls :=
  if (x.guards r).listener = some sig then
    (x.setGuard r { x.guards r with listener := none }).act size (.abort r (some err))
  else some x

/-- `AbortController.abort`: only the first call counts. -/
def fire (x : Calls) (sig : Signal) (err : WsStatusError) : Option Calls :=
  if (x.aborted sig).isSome then some x
  else
    (List.range x.mux.objs.length).foldlM (notify size sig err)
      { x with aborted := Function.update x.aborted sig (some err) }

inductive Event where
  | openStream (method : Text) (headers : Headers) (i : StreamInit)
  /-- Any other call or socket event. -/
  | act (a : Act)
  /-- The time of a call is over. -/
  | deadline (r : Ref)
  | signal (sig : Signal) (reason : Option Text)

def step (x : Calls) : Event → Option Calls
  | .openStream method headers i => x.openStream size method headers i
  | .act (.openStream _ _ _) => none
  | .act a => x.act size a
  | .deadline r => x.expire size r
  | .signal sig reason => x.fire size sig (abortError reason)

end System

def start (initialWindow maxSendBuffer maxFrameBytes : ℤ) (ready : Bool) (got : Option Text) :
    Calls :=
  { sess := .start initialWindow maxSendBuffer maxFrameBytes ready got }

end Calls

/-! ## Callbacks undo what they were registered for -/

theorem runClose_guard (i : StreamInit) : i.guard.runClose = {} := by
  obtain ⟨t, sig⟩ := i
  cases t <;> cases sig <;> rfl

/-- Also after the timer has fired, -/
theorem runClose_guard_timer (i : StreamInit) : { i.guard with timer := false }.runClose = {} := by
  obtain ⟨t, sig⟩ := i
  cases t <;> cases sig <;> rfl

/-- or the listener has been taken off. -/
theorem runClose_guard_listener (i : StreamInit) :
    { i.guard with listener := none }.runClose = {} := by
  obtain ⟨t, sig⟩ := i
  cases t <;> cases sig <;> rfl

/-! ## Which streams run -/

section Running

variable {size : Frame → ℕ} {m m' : Mux} {L fs : List Frame} {r q : Ref} {s : StreamImpl}

theorem running_eq_true : running m r = true ↔ ∃ s, m.objs[r]? = some s ∧ s.finished = false := by
  simp [running, Option.any_eq_true]

theorem running_of_length_le (h : m.objs.length ≤ r) : running m r = false := by
  rw [running, List.getElem?_eq_none h]
  rfl

theorem running_eq_of_getElem? (hs : m.objs[r]? = some s) : running m r = !s.finished := by
  rw [running, hs]
  rfl

theorem running_congr (h : m'.objs[r]? = m.objs[r]?) : running m' r = running m r := by
  rw [running, running, h]

theorem not_defunct_of_running (h : Sound size m L) (hr : running m r = true) :
    m.defunct = false := by
  obtain ⟨s, hs, hfin⟩ := running_eq_true.1 hr
  exact h.books.wf.not_defunct hs hfin

/-- A stream that runs ran before, if no call has started it. -/
theorem running_of_utters {hush fresh : Ref → Prop} (h : Utters hush fresh m fs m')
    (hq : ¬ fresh q) (hr : running m' q = true) : running m q = true := by
  obtain ⟨said, htalk, -⟩ := h
  obtain ⟨s', hs', hlive⟩ := running_eq_true.1 hr
  obtain ⟨c, hc, hclive⟩ :=
    ((htalk.stream (flags_getElem? hs')).1 hlive).resolve_right hq
  rw [flags, List.getElem?_map, Option.map_eq_some_iff] at hc
  obtain ⟨s, hs, rfl⟩ := hc
  exact running_eq_true.2 ⟨s, hs, hclive⟩

end Running

/-! ## One call -/

section Invariant

variable {size : Frame → ℕ} {m : Mux} {L : List Frame} {x x' : Calls} {r q : Ref} {a : Act}
  {new : Ref → Prop}

/-- What a call of the mux does beside it; only the streams `new` may start in it. -/
structure Ran (size : Frame → ℕ) (new : Ref → Prop) (x x' : Calls) : Prop where
  sound : Sound size x'.mux x'.sess.accepted
  running : ∀ q, ¬ new q → running x'.mux q = true → running x.mux q = true
  inits : x'.inits = x.inits
  aborted : x'.aborted = x.aborted
  guards : ∀ q, x'.guards q =
    if CallGuards.running x.mux q = true ∧ CallGuards.running x'.mux q = false then
      (x.guards q).runClose
    else x.guards q

/-- What a stream holds: its timer and its listener, or nothing once it has finished. -/
structure Held (x : Calls) (r : Ref) : Prop where
  live : running x.mux r = true → x.guards r = (x.inits r).guard
  ended : running x.mux r = false → x.guards r = {}

structure Guarded (size : Frame → ℕ) (x : Calls) : Prop where
  sound : Sound size x.mux x.sess.accepted
  held : ∀ r, Held x r

/-- Before a call that ends the stream `r`: it holds nothing that its callbacks do not undo. -/
structure Loose (size : Frame → ℕ) (x : Calls) (r : Ref) : Prop where
  sound : Sound size x.mux x.sess.accepted
  held : ∀ q, q ≠ r → Held x q
  live : running x.mux r = true → (x.guards r).runClose = {}
  ended : running x.mux r = false → x.guards r = {}

theorem ran_of_act (h : Sound size x.mux x.sess.accepted) (hx : x.act size a = some x') :
    Ran size (starts x.mux a) x x' := by
  obtain ⟨sess, hsess, rfl⟩ := Option.map_eq_some_iff.1 hx
  obtain ⟨y, hy, rfl⟩ := Option.map_eq_some_iff.1 hsess
  obtain ⟨hthrow, hsound⟩ := h.call hy
  have hquiet : Calls.thrown size x.mux a = false := by
    show ((call size x.sess.mux a).bind Prod.snd).isSome = false
    rw [hy, Option.bind_some, hthrow]
    rfl
  refine ⟨hsound, fun q hq => running_of_utters (utters_call h hy) hq, rfl, rfl, fun q => ?_⟩
  show (if Calls.thrown size x.mux a = false ∧ _ then _ else _) = _
  simp only [hquiet, true_and]
  rfl

theorem exists_call_of_act (hx : x.act size a = some x') :
    ∃ y, call size x.mux a = some y ∧ x'.mux = y.1 := by
  obtain ⟨sess, hsess, rfl⟩ := Option.map_eq_some_iff.1 hx
  obtain ⟨y, hy, rfl⟩ := Option.map_eq_some_iff.1 hsess
  exact ⟨y, hy, rfl⟩

/-- A stream that has not finished keeps what it holds, and `runClose` takes it away. -/
theorem Ran.held (h : Ran size new x x') (hq : ¬ new q) (hold : Held x q) : Held x' q where
  live hrun := by
    rw [h.guards, h.inits, if_neg (by rw [hrun]; simp)]
    exact hold.live (h.running q hq hrun)
  ended hrun := by
    rw [h.guards]
    split_ifs with hend
    · rw [hold.live hend.1, runClose_guard]
    · exact hold.ended (by simpa [hrun] using hend)

/-- Any call but `openStream`. -/
theorem Guarded.act (h : Guarded size x) (ha : ∀ q, ¬ starts x.mux a q)
    (hx : x.act size a = some x') : Guarded size x' := by
  have hran := ran_of_act h.sound hx
  exact ⟨hran.sound, fun q => hran.held (ha q) (h.held q)⟩

/-- **`abort`** ends its stream, which holds nothing then. -/
theorem Loose.abort (h : Loose size x r) (err : Option WsStatusError) :
    ∃ x', x.act size (.abort r err) = some x' ∧ Guarded size x' ∧ Ran size (fun _ => False) x x' ∧
      running x'.mux r = false := by
  obtain ⟨x', hx⟩ : ∃ x', x.act size (.abort r err) = some x' := ⟨_, rfl⟩
  have hran : Ran size (fun _ => False) x x' := ran_of_act (a := .abort r err) h.sound hx
  have hmux : x'.mux = (x.mux.abort size r err).1 := by
    cases hx
    rfl
  have hfin : running x'.mux r = false := by
    cases hs : x.mux.objs[r]? with
    | none =>
        by_contra hne
        have hrun := hran.running r id (by simpa using hne)
        rw [running, hs] at hrun
        cases hrun
    | some s =>
        obtain ⟨t, ht, hdone, -⟩ := abort_stream size h.sound.books.wf hs err
        rw [hmux, running_eq_of_getElem? ht, hdone]
        rfl
  refine ⟨x', hx, ⟨hran.sound, fun q => ?_⟩, hran, hfin⟩
  by_cases hq : q = r
  · subst hq
    refine ⟨fun hrun => (Bool.noConfusion (hfin.symm.trans hrun)), fun _ => ?_⟩
    rw [hran.guards]
    split_ifs with hend
    · exact h.live hend.1
    · exact h.ended (by simpa [hfin] using hend)
  · exact hran.held id (h.held q hq)

theorem Guarded.loose (h : Guarded size x) (r : Ref) : Loose size x r where
  sound := h.sound
  held q _ := h.held q
  live hrun := by rw [(h.held r).live hrun, runClose_guard]
  ended := (h.held r).ended

theorem Loose.guarded (h : Loose size x r) (hr : Held x r) : Guarded size x where
  sound := h.sound
  held q := by
    by_cases hq : q = r
    · rw [hq]
      exact hr
    · exact h.held q hq

theorem setGuard_self (x : Calls) (r : Ref) (g : Guard) : (x.setGuard r g).guards r = g := by
  simp only [Calls.setGuard, Function.update_self]

theorem Held.setGuard (h : Held x q) (hq : q ≠ r) (g : Guard) : Held (x.setGuard r g) q := by
  have hg : (x.setGuard r g).guards q = x.guards q := by
    simp only [Calls.setGuard, Function.update_of_ne hq]
  constructor
  · intro hrun
    rw [hg]
    exact h.live hrun
  · intro hrun
    rw [hg]
    exact h.ended hrun

theorem Loose.setGuard (h : Loose size x r) {g : Guard}
    (hlive : running x.mux r = true → g.runClose = {})
    (hended : running x.mux r = false → g = {}) : Loose size (x.setGuard r g) r where
  sound := h.sound
  held q hq := (h.held q hq).setGuard hq g
  live := by rw [setGuard_self]; exact hlive
  ended := by rw [setGuard_self]; exact hended

/-! ## Timers -/

/-- What `abort` writes, and which streams it spares: the other ones, unless its RST does not
fit into the buffer of a socket that is not open. -/
theorem abort_cases (h : Sound size m L) (hr : running m r = true) (err : Option WsStatusError) :
    ((m.abort size r err).1.defunct = true ∧ m.abortLog size r = []) ∨
      ((∃ s, m.objs[r]? = some s ∧ m.abortLog size r = [s.rstFrame]) ∧
        ∀ q, q ≠ r → running (m.abort size r err).1 q = running m q) := by
  obtain ⟨s, hs, hfin⟩ := running_eq_true.1 hr
  have hd : (m.setObj r s.stop).defunct = false := h.books.wf.not_defunct hs hfin
  rcases Ledger.abort_cases size h.books.wf r err with
    ⟨hdone, -⟩ | ⟨u, m₁, hu, -, rfl, -, heq, hlog⟩
  · rw [hdone s hs] at hfin
    cases hfin
  · obtain rfl : s = u := Option.some.inj (hs.symm.trans hu)
    rw [heq, hlog]
    rcases write_cases hd s.rstFrame with ⟨htakes, hobjs⟩ | ⟨htakes, hfail⟩
    · refine .inr ⟨⟨s, hs, htakes⟩, fun q hq => running_congr ?_⟩
      rw [Mux.getElem?_setObj_ne (Ne.symm hq)]
      show ((m.setObj r s.stop).writeFrame size s.rstFrame).1.objs[q]? = _
      rw [hobjs, Mux.getElem?_setObj_ne (Ne.symm hq)]
    · refine .inl ⟨?_, htakes⟩
      rw [hfail]
      rfl

/-- **The deadline of a call passes**: the call is running, and it ends. -/
theorem Guarded.expire (h : Guarded size x) (ht : (x.guards r).timer = true) :
    ∃ x', x.expire size r = some x' ∧ Guarded size x' ∧
      Ran size (fun _ => False) (x.setGuard r { x.guards r with timer := false }) x' ∧
      x'.mux = (x.mux.abort size r (some deadlineExceeded)).1 ∧
      x'.sess.accepted = x.sess.accepted ++ x.mux.abortLog size r ∧
      running x.mux r = true ∧ running x'.mux r = false := by
  have hrun : running x.mux r = true := by
    by_contra hne
    rw [(h.held r).ended (by simpa using hne)] at ht
    cases ht
  have hloose : Loose size (x.setGuard r { x.guards r with timer := false }) r := by
    refine (h.loose r).setGuard (fun _ => ?_) fun hfin => Bool.noConfusion (hfin.symm.trans hrun)
    rw [(h.held r).live hrun, runClose_guard_timer]
  obtain ⟨x', hx', hg, hran, hfin⟩ := hloose.abort (some deadlineExceeded)
  refine ⟨x', ?_, hg, hran, ?_, ?_, hrun, hfin⟩
  · rw [Calls.expire, if_pos ht]
    exact hx'
  · cases hx'
    rfl
  · cases hx'
    rfl

/-! ## Signals -/

/-- Among the streams `l`, those of the calls that run and have the signal. -/
def signalled (x : Calls) (sig : Signal) (l : List Ref) : List Ref :=
  l.filter fun q => running x.mux q ∧ (x.inits q).signal = some sig

/-- The RST of a stream. -/
def rstOf (r : Ref) : Frame := { streamId := UInt32.ofNat (2 * r + 1), kind := .kindRst }

/-- What the listeners of a signal on the streams `l` do. -/
structure Fired (size : Frame → ℕ) (sig : Signal) (l : List Ref) (x x' : Calls) : Prop where
  guarded : Guarded size x'
  inits : x'.inits = x.inits
  aborted : x'.aborted = x.aborted
  running : ∀ q, running x'.mux q = true → running x.mux q = true
  ended : ∀ q ∈ l, (x.inits q).signal = some sig → CallGuards.running x'.mux q = false
  lost : x.mux.defunct = true → x'.mux.defunct = true
  /-- Unless the mux fails, the calls that have the signal are reset and the other ones go
  on. -/
  spared : x'.mux.defunct = true ∨
    (x'.sess.accepted = x.sess.accepted ++ (signalled x sig l).map rstOf ∧
      ∀ q, (q ∉ l ∨ (x.inits q).signal ≠ some sig) →
        CallGuards.running x'.mux q = CallGuards.running x.mux q)

theorem Guarded.notify (h : Guarded size x) (sig : Signal) (err : WsStatusError) (r : Ref) :
    ∃ x', Calls.notify size sig err x r = some x' ∧ Fired size sig [r] x x' := by
  unfold Calls.notify
  split_ifs with hl
  · have hrun : running x.mux r = true := by
      by_contra hne
      rw [(h.held r).ended (by simpa using hne)] at hl
      cases hl
    have hsig : (x.inits r).signal = some sig := by
      rw [(h.held r).live hrun] at hl
      exact hl
    have hloose : Loose size (x.setGuard r { x.guards r with listener := none }) r := by
      refine (h.loose r).setGuard (fun _ => ?_) fun hfin => Bool.noConfusion (hfin.symm.trans hrun)
      rw [(h.held r).live hrun, runClose_guard_listener]
    obtain ⟨x', hx', hg, hran, hfin⟩ := hloose.abort (some err)
    have hmux : x'.mux = (x.mux.abort size r (some err)).1 := by
      cases hx'
      rfl
    have hacc : x'.sess.accepted = x.sess.accepted ++ x.mux.abortLog size r := by
      cases hx'
      rfl
    refine ⟨x', hx', hg, hran.inits, hran.aborted, fun q => hran.running q id,
      fun q hq _ => ?_, fun hd => ?_, ?_⟩
    · rw [List.mem_singleton.1 hq]
      exact hfin
    · exact Bool.noConfusion ((not_defunct_of_running h.sound hrun).symm.trans hd)
    · rw [hmux]
      rcases abort_cases h.sound hrun (some err) with ⟨hd, -⟩ | ⟨⟨s, hs, hlog⟩, hsame⟩
      · exact .inl hd
      · refine .inr ⟨?_, fun q hq => hsame q ?_⟩
        · have hrst : s.rstFrame = rstOf r := by
            rw [StreamImpl.rstFrame, h.sound.books.wf.ids r s hs, rstOf]
          rw [hacc, hlog, hrst]
          simp [signalled, hrun, hsig]
        · rintro rfl
          exact hq.elim (fun hne => hne (List.mem_singleton.2 rfl)) fun hne => hne hsig
  · have hended : (x.inits r).signal = some sig → running x.mux r = false := by
      intro hsig
      by_contra hne
      rw [(h.held r).live (by simpa using hne)] at hl
      exact hl hsig
    refine ⟨x, rfl, h, rfl, rfl, fun q hq => hq, fun q hq hsig => ?_, fun hd => hd,
      .inr ⟨?_, fun q _ => rfl⟩⟩
    · rw [List.mem_singleton.1 hq] at hsig ⊢
      exact hended hsig
    · have hnone : signalled x sig [r] = [] := by
        simp only [signalled, List.filter_eq_nil_iff, List.mem_singleton, forall_eq,
          decide_eq_true_eq]
        rintro ⟨hrun, hsig⟩
        exact Bool.noConfusion ((hended hsig).symm.trans hrun)
      rw [hnone]
      exact (List.append_nil _).symm

/-- **A signal fires**: the listeners run one after the other. -/
theorem Guarded.notifyAll (sig : Signal) (err : WsStatusError) (l : List Ref) :
    l.Nodup → ∀ {x : Calls}, Guarded size x →
      ∃ x', l.foldlM (Calls.notify size sig err) x = some x' ∧ Fired size sig l x x' := by
  induction l with
  | nil =>
      intro _ x h
      exact ⟨x, rfl, h, rfl, rfl, fun q hq => hq, fun q hq => absurd hq List.not_mem_nil,
        fun hd => hd, .inr ⟨(List.append_nil _).symm, fun q _ => rfl⟩⟩
  | cons r l ih =>
      intro hnd x h
      obtain ⟨hr, hnd⟩ := List.nodup_cons.1 hnd
      obtain ⟨x₁, hx₁, h₁⟩ := h.notify sig err r
      obtain ⟨x', hx', h'⟩ := ih hnd h₁.guarded
      refine ⟨x', ?_, h'.guarded, h'.inits.trans h₁.inits, h'.aborted.trans h₁.aborted,
        fun q hq => h₁.running q (h'.running q hq), fun q hq hsig => ?_,
        fun hd => h'.lost (h₁.lost hd), ?_⟩
      · rw [List.foldlM_cons, hx₁]
        exact hx'
      · rcases List.mem_cons.1 hq with rfl | hq
        · by_contra hne
          have hrun := h'.running q (by simpa using hne)
          rw [h₁.ended q List.mem_cons_self hsig] at hrun
          cases hrun
        · exact h'.ended q hq (by rw [h₁.inits]; exact hsig)
      · rcases h'.spared with hd | ⟨hacc, hsame⟩
        · exact .inl hd
        · rcases h₁.spared with hd | ⟨hacc₁, hsame₁⟩
          · exact .inl (h'.lost hd)
          · refine .inr ⟨?_, fun q hq => (hsame q ?_).trans (hsame₁ q ?_)⟩
            · -- the streams behind `r` are where they were when the signal fired
              have hlater : signalled x₁ sig l = signalled x sig l := by
                refine List.filter_congr fun q hq => ?_
                rw [hsame₁ q (.inl fun hmem => hr (List.mem_singleton.1 hmem ▸ hq)), h₁.inits]
              have hcons : signalled x sig (r :: l) = signalled x sig [r] ++ signalled x sig l := by
                rw [signalled, signalled, signalled, ← List.filter_append, List.singleton_append]
              rw [hacc, hacc₁, hlater, hcons, List.map_append, List.append_assoc]
            · rw [h₁.inits]
              exact hq.imp_left fun hne hmem => hne (List.mem_cons_of_mem r hmem)
            · exact hq.imp_left fun hne hmem => hne (List.mem_singleton.1 hmem ▸ List.mem_cons_self)

/-- No call that runs has a signal that was aborted. -/
def Calm (x : Calls) : Prop :=
  ∀ r sig, running x.mux r = true → (x.inits r).signal = some sig → x.aborted sig = none

theorem Guarded.fire (h : Guarded size x) (hc : Calm x) (sig : Signal) (err : WsStatusError) :
    ∃ x', x.fire size sig err = some x' ∧ Guarded size x' ∧ Calm x' ∧
      (∀ q, (x.inits q).signal = some sig → running x'.mux q = false) ∧
      (x'.mux.defunct = true ∨
        (x'.sess.accepted = x.sess.accepted ++
          (signalled x sig (List.range x.mux.objs.length)).map rstOf ∧
        ∀ q, (x.inits q).signal ≠ some sig → running x'.mux q = running x.mux q)) := by
  unfold Calls.fire
  split_ifs with hab
  · have hended : ∀ q, (x.inits q).signal = some sig → running x.mux q = false := by
      intro q hsig
      by_contra hne
      rw [hc q sig (by simpa using hne) hsig] at hab
      cases hab
    have hnone : signalled x sig (List.range x.mux.objs.length) = [] := by
      simp only [signalled, List.filter_eq_nil_iff, decide_eq_true_eq]
      rintro q - ⟨hrun, hsig⟩
      exact Bool.noConfusion ((hended q hsig).symm.trans hrun)
    refine ⟨x, rfl, h, hc, hended, .inr ⟨?_, fun q _ => rfl⟩⟩
    rw [hnone]
    exact (List.append_nil _).symm
  · -- the table changes first, and no stream looks at it
    have hset : Guarded size { x with aborted := Function.update x.aborted sig (some err) } :=
      ⟨h.sound, fun r => ⟨(h.held r).live, (h.held r).ended⟩⟩
    obtain ⟨x', hx', hfired⟩ := Guarded.notifyAll sig err (List.range x.mux.objs.length)
      List.nodup_range hset
    have hend : ∀ q, (x.inits q).signal = some sig → running x'.mux q = false := by
      intro q hsig
      by_cases hq : q < x.mux.objs.length
      · exact hfired.ended q (List.mem_range.2 hq) hsig
      · by_contra hne
        have hrun : running x.mux q = true := hfired.running q (by simpa using hne)
        rw [running_of_length_le (not_lt.1 hq)] at hrun
        cases hrun
    refine ⟨x', hx', hfired.guarded, fun r sig' hrun hsig => ?_, hend,
      hfired.spared.imp_right fun h => ⟨h.1, fun q hq => h.2 q (.inr hq)⟩⟩
    rw [hfired.inits] at hsig
    have hne : sig' ≠ sig := by
      rintro rfl
      rw [hend r hsig] at hrun
      cases hrun
    rw [hfired.aborted]
    show Function.update x.aborted sig (some err) sig' = none
    rw [Function.update_of_ne hne]
    exact hc r sig' (hfired.running r hrun) hsig

/-! ## Opening -/

theorem Ran.calm (h : Ran size new x x') (hc : Calm x) {q : Ref} (hq : ¬ new q) {sig : Signal}
    (hrun : CallGuards.running x'.mux q = true) (hsig : (x'.inits q).signal = some sig) :
    x'.aborted sig = none := by
  rw [h.aborted]
  rw [h.inits] at hsig
  exact hc q sig (h.running q hq hrun) hsig

/-- `openStream` has armed the timer of the call `r`, and has not looked at its signal. -/
structure Armed (size : Frame → ℕ) (x : Calls) (r : Ref) (i : StreamInit) : Prop where
  sound : Sound size x.mux x.sess.accepted
  held : ∀ q, q ≠ r → Held x q
  calm : ∀ q sig, q ≠ r → running x.mux q = true → (x.inits q).signal = some sig →
    x.aborted sig = none
  inits : x.inits r = i
  guard : x.guards r =
    if running x.mux r = true then StreamInit.guard ⟨i.timeoutMs, none⟩ else {}

theorem armed_arm {i : StreamInit} (hs : Sound size x.mux x.sess.accepted)
    (hheld : ∀ q, q ≠ r → Held x q)
    (hcalm : ∀ q sig, q ≠ r → running x.mux q = true → (x.inits q).signal = some sig →
      x.aborted sig = none) (hg : x.guards r = {}) (hi : x.inits r = i) :
    Armed size (x.arm r i) r i := by
  obtain ⟨t, sig⟩ := i
  unfold Calls.arm
  cases t with
  | none =>
      refine ⟨hs, hheld, hcalm, hi, ?_⟩
      show x.guards r = _
      rw [hg]
      split_ifs <;> rfl
  | some t =>
      refine ⟨hs, fun q hq => (hheld q hq).setGuard hq _, hcalm, hi, ?_⟩
      show (x.setGuard r _).guards r = if running x.mux r = true then _ else _
      rw [setGuard_self, hg]
      cases running x.mux r <;> rfl

theorem Armed.loose {i : StreamInit} (h : Armed size x r i) : Loose size x r where
  sound := h.sound
  held := h.held
  live hrun := by rw [h.guard, if_pos hrun, runClose_guard]
  ended hrun := by rw [h.guard, if_neg (by rw [hrun]; decide)]

/-- The signal: it ends the call if it is aborted, and is listened to if it is not. -/
theorem Armed.listen {i : StreamInit} (h : Armed size x r i) :
    ∃ x', x.listen size r i = some x' ∧ Guarded size x' ∧ Calm x' := by
  obtain ⟨t, sig⟩ := i
  have hi := h.inits
  unfold Calls.listen
  cases sig with
  | none =>
      refine ⟨x, rfl, h.loose.guarded ⟨fun hrun => ?_, h.loose.ended⟩, fun q sig hrun hsig => ?_⟩
      · rw [h.guard, if_pos hrun, hi]
      · refine h.calm q sig ?_ hrun hsig
        rintro rfl
        rw [hi] at hsig
        cases hsig
  | some sig =>
      dsimp only
      cases hab : x.aborted sig with
      | some err =>
          obtain ⟨x', hx', hg, hran, hfin⟩ := h.loose.abort (some err)
          refine ⟨x', hx', hg, fun q sig' hrun hsig => ?_⟩
          have hq : q ≠ r := by
            rintro rfl
            exact Bool.noConfusion (hfin.symm.trans hrun)
          rw [hran.aborted]
          rw [hran.inits] at hsig
          exact h.calm q sig' hq (hran.running q id hrun) hsig
      | none =>
          refine ⟨_, rfl, ⟨h.sound, fun q => ?_⟩, fun q sig' hrun hsig => ?_⟩
          · by_cases hq : q = r
            · subst hq
              refine ⟨fun hrun => ?_, fun hfin => ?_⟩
              · have hrun' : running x.mux q = true := hrun
                rw [setGuard_self, h.guard, if_pos hrun', hrun']
                show _ = (x.inits q).guard
                rw [hi]
                cases t <;> rfl
              · have hfin' : running x.mux q = false := hfin
                rw [setGuard_self, h.guard, hfin']
                rfl
            · exact (h.held q hq).setGuard hq _
          · by_cases hq : q = r
            · subst hq
              have hsig' : (x.inits q).signal = some sig' := hsig
              rw [hi] at hsig'
              cases hsig'
              exact hab
            · exact h.calm q sig' hq hrun hsig

/-- Nothing has been opened that runs, where `openStream` returns early. -/
theorem not_running_new (h : Sound size x.mux x.sess.accepted) {method : Text} {headers : Headers}
    (hx : x.act size (.openStream method headers none) = some x')
    (hearly : Calls.thrown size x.mux (.openStream method headers none) = true ∨
      x.mux.defunct = true ∨ 2 ^ 32 ≤ x.mux.nextId) : running x'.mux x.mux.objs.length = false := by
  obtain ⟨y, hy, hmux⟩ := exists_call_of_act hx
  obtain ⟨hthrow, hsound⟩ := h.call hy
  rw [hmux]
  rcases hearly with ht | hd | hid
  · rw [Calls.thrown, hy, Option.bind_some, hthrow] at ht
    cases ht
  · by_contra hne
    have hlive := not_defunct_of_running hsound (r := x.mux.objs.length) (by simpa using hne)
    simp only [call, Option.some.injEq] at hy
    subst hy
    have hsame : (if x.mux.nextId < 2 ^ 32 then x.mux.openWith size method headers none
        else (x.mux, none)).1.defunct = x.mux.defunct := by
      split_ifs
      · unfold Mux.openWith Mux.openStream
        dsimp only
        rw [if_pos hd]
        rfl
      · rfl
    rw [hsame, hd] at hlive
    cases hlive
  · simp only [call, Option.some.injEq] at hy
    subst hy
    rw [if_neg (not_lt.2 hid)]
    exact running_of_length_le le_rfl

/-- **A call is opened.** -/
theorem Guarded.openStream (h : Guarded size x) (hc : Calm x) (method : Text) (headers : Headers)
    (i : StreamInit) :
    ∃ x', x.openStream size method headers i = some x' ∧ Guarded size x' ∧ Calm x' := by
  obtain ⟨x₁, hx₁⟩ :
      ∃ x₁, x.act size (.openStream method (openHeaders headers i.timeoutMs) none) = some x₁ :=
    ⟨_, rfl⟩
  -- the write of OPEN: one more stream, which holds nothing yet
  have hran : Ran size (· = x.mux.objs.length) x x₁ := ran_of_act h.sound hx₁
  have hheld : ∀ q, q ≠ x.mux.objs.length → Held x₁ q := fun q hq => hran.held hq (h.held q)
  have hcalm : ∀ q sig, q ≠ x.mux.objs.length → running x₁.mux q = true →
      (x₁.inits q).signal = some sig → x₁.aborted sig = none :=
    fun q sig hq hrun hsig => hran.calm hc hq hrun hsig
  have hnew : x₁.guards x.mux.objs.length = {} := by
    have hold : running x.mux x.mux.objs.length = false := running_of_length_le le_rfl
    rw [hran.guards, if_neg (by rw [hold]; simp)]
    exact (h.held _).ended hold
  unfold Calls.openStream
  dsimp only
  rw [hx₁, Option.bind_some]
  split_ifs with hearly
  · have hfin := not_running_new h.sound hx₁ hearly
    refine ⟨x₁, rfl, ⟨hran.sound, fun q => ?_⟩, fun q sig hrun hsig => ?_⟩
    · by_cases hq : q = x.mux.objs.length
      · subst hq
        exact ⟨fun hrun => Bool.noConfusion (hfin.symm.trans hrun), fun _ => hnew⟩
      · exact hheld q hq
    · refine hcalm q sig ?_ hrun hsig
      rintro rfl
      exact Bool.noConfusion (hfin.symm.trans hrun)
  · have hold : ∀ q, q ≠ x.mux.objs.length →
        Function.update x₁.inits x.mux.objs.length i q = x₁.inits q :=
      fun q hq => Function.update_of_ne hq _ _
    refine (armed_arm (x := { x₁ with inits := Function.update x₁.inits x.mux.objs.length i })
      hran.sound (fun q hq => ⟨fun hrun => ?_, (hheld q hq).ended⟩)
      (fun q sig hq hrun hsig => ?_) hnew (Function.update_self _ _ _)).listen
    · show x₁.guards q = (Function.update x₁.inits x.mux.objs.length i q).guard
      rw [hold q hq]
      exact (hheld q hq).live hrun
    · have hsig' : (Function.update x₁.inits x.mux.objs.length i q).signal = some sig := hsig
      rw [hold q hq] at hsig'
      exact hcalm q sig hq hrun hsig'

/-! ## Every run -/

/-- What holds between two events. -/
structure Exact (size : Frame → ℕ) (x : Calls) : Prop where
  /-- The timers and listeners that are live, and the callbacks that would undo them, are those
  of the calls that have not ended. -/
  held : ∀ r, x.guards r = if running x.mux r = true then (x.inits r).guard else {}
  /-- A call whose signal is aborted has ended. -/
  aborted : ∀ r sig, (x.inits r).signal = some sig → (x.aborted sig).isSome = true →
    running x.mux r = false
  /-- A timer that is live can fire, and ends its call: by an RST that leaves the other calls
  alone, or with the mux. -/
  expires : ∀ r, (x.guards r).timer = true → ∃ x', x.step size (.deadline r) = some x' ∧
    running x.mux r = true ∧ running x'.mux r = false ∧
    (x'.mux.defunct = true ∨
      (∃ s, x.mux.objs[r]? = some s ∧ x'.sess.accepted = x.sess.accepted ++ [s.rstFrame]) ∧
        ∀ q, q ≠ r → running x'.mux q = running x.mux q)
  /-- A signal that fires ends the calls that have it: by one RST for each that runs, which
  leaves the other calls alone, or with the mux. -/
  fires : ∀ sig reason, ∃ x', x.step size (.signal sig reason) = some x' ∧
    (∀ q, (x.inits q).signal = some sig → running x'.mux q = false) ∧
    (x'.mux.defunct = true ∨
      (x'.sess.accepted = x.sess.accepted ++
        (signalled x sig (List.range x.mux.objs.length)).map rstOf ∧
      ∀ q, (x.inits q).signal ≠ some sig → running x'.mux q = running x.mux q))

theorem Guarded.exact (h : Guarded size x) (hc : Calm x) : Exact size x where
  held r := by
    cases hrun : running x.mux r with
    | true => rw [(h.held r).live hrun]; rfl
    | false => rw [(h.held r).ended hrun]; rfl
  aborted r sig hsig hab := by
    by_contra hne
    rw [hc r sig (by simpa using hne) hsig] at hab
    cases hab
  expires r ht := by
    obtain ⟨x', hx', -, -, hmux, hacc, hrun, hfin⟩ := h.expire ht
    refine ⟨x', hx', hrun, hfin, ?_⟩
    rw [hmux, hacc]
    rcases abort_cases h.sound hrun (some deadlineExceeded) with ⟨hd, -⟩ | ⟨⟨s, hs, hlog⟩, hsame⟩
    · exact .inl hd
    · exact .inr ⟨⟨s, hs, by rw [hlog]⟩, hsame⟩
  fires sig reason := by
    obtain ⟨x', hx', -, -, hend, hspared⟩ := h.fire hc sig (abortError reason)
    exact ⟨x', hx', hend, hspared⟩

theorem Guarded.step (h : Guarded size x) (hc : Calm x) {e : Calls.Event}
    (hx : x.step size e = some x') : Guarded size x' ∧ Calm x' := by
  cases e with
  | openStream method headers i =>
      obtain ⟨y, hy, hg, hcalm⟩ := h.openStream hc method headers i
      cases hy.symm.trans hx
      exact ⟨hg, hcalm⟩
  | act a =>
      obtain ⟨ha, hx⟩ : (∀ q, ¬ starts x.mux a q) ∧ x.act size a = some x' := by
        cases a with
        | openStream method headers aborted => cases hx
        | _ => exact ⟨fun q => id, hx⟩
      exact ⟨h.act ha hx, fun q sig hrun hsig =>
        (ran_of_act h.sound hx).calm hc (ha q) hrun hsig⟩
  | deadline r =>
      have ht : (x.guards r).timer = true := by
        by_contra hne
        simp only [Calls.step, Calls.expire, if_neg hne] at hx
        cases hx
      obtain ⟨y, hy, hg, hran, -⟩ := h.expire ht
      cases hy.symm.trans hx
      exact ⟨hg, fun q sig hrun hsig => hran.calm hc id hrun hsig⟩
  | signal sig reason =>
      obtain ⟨y, hy, hg, hcalm, -⟩ := h.fire hc sig (abortError reason)
      cases hy.symm.trans hx
      exact ⟨hg, hcalm⟩

end Invariant

/-- **Timers and listeners are exact**, after any sequence of calls, socket events, deadlines
and aborted signals. -/
theorem call_guards (size : Frame → ℕ) (W B F : ℤ) (ready : Bool) (got : Option Text) {x : Calls}
    (h : Reach (Calls.step size) Always (Calls.start W B F ready got) x) : Exact size x := by
  have hempty : (Calls.start W B F ready got).mux.objs = [] := by
    show (Mux.new W B F ready got).objs = []
    unfold Mux.new
    cases ready <;> cases got <;> rfl
  have hidle : ∀ r, running (Calls.start W B F ready got).mux r = false := fun r =>
    running_of_length_le (by rw [hempty]; exact Nat.zero_le r)
  have hinv : Guarded size x ∧ Calm x := by
    refine h.invariant (P := fun x => Guarded size x ∧ Calm x) ?_ ?_
    · refine ⟨⟨sound_start size W B F ready got, fun r => ⟨fun hrun => ?_, fun _ => rfl⟩⟩,
        fun r sig hrun => ?_⟩
      · exact Bool.noConfusion ((hidle r).symm.trans hrun)
      · exact Bool.noConfusion ((hidle r).symm.trans hrun)
    · intro x e x' hx _ hstep
      exact hx.1.step hx.2 hstep
  exact hinv.1.exact hinv.2

/-- Two milliseconds. -/
def twoMs : JsNumber where
  value := 2
  digits := 2
  exp := 0
  isDouble := isDouble_natCast (n := 2) (by norm_num)
  pos := by norm_num
  reduced := by norm_num
  reads := by
    intro y _
    norm_num
  shortest := by
    intro d e _
    exact List.length_pos_of_ne_nil (Decimal.format_ne_nil d)

/-- Three calls, one with a deadline and a signal, one with the same signal, one with neither:
the deadline passes, and the other two still run. -/
theorem call_guards_expired :
    ∃ x, Reach (Calls.step fun _ => 9) Always (Calls.start 0 0 0 true none) x ∧
      running x.mux 0 = false ∧ running x.mux 2 = true ∧ (x.guards 1).listener = some 7 ∧
      (x.guards 0).listener = none ∧ Exact (fun _ => 9) x := by
  obtain ⟨x, hx, hp⟩ := exists_reach_of_exec (Calls.step fun _ => 9) Always
    (Calls.start 0 0 0 true none)
    (fun x : Calls => decide (running x.mux 0 = false ∧ running x.mux 2 = true ∧
      (x.guards 1).listener = some 7 ∧ (x.guards 0).listener = none))
    [.openStream .empty ∅ ⟨some twoMs, some 7⟩, .openStream .empty ∅ ⟨none, some 7⟩,
      .openStream .empty ∅ ⟨none, none⟩, .deadline 0] (by decide)
  simp only [decide_eq_true_eq] at hp
  obtain ⟨h0, h2, h1, hn⟩ := hp
  exact ⟨x, hx, h0, h2, h1, hn, call_guards (fun _ => 9) 0 0 0 true none hx⟩

end WsProto.Ts.CallGuards
