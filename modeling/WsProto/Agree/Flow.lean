import WsProto.Lib.Binary64
import WsProto.Go.Mux
import WsProto.Ts.Mux

/-!
# The flow control of the two runtimes

A Go stream whose sends block and a TypeScript stream whose sends queue, given the
same payloads and the same WINDOW_UPDATEs.  What both are for is an `Outbox`: payloads
leave it in order as long as the credit is positive.  The window of the one is an `int` of
64 bits and that of the other a double; up to `2 ^ 53` both are exact.

* `GoSender.refines_step`, `TsSender.refines_step` — either runtime, run to quiescence
  after each event, is the outbox;
* `foldl_stepIn` — an outbox whose credit is computed in either of the machine types is the
  exact one, as long as the window and all the credit given stay within `2 ^ 53`;
* `credit_agrees_iff` — the two receivers return the same credit for what they consume
  exactly if no amount that falls due reaches `2 ^ 32`, where the Go side truncates;
* `flow_agrees_iff` — both directions together.
-/

namespace WsProto.Agree.Flow

/-! ## The abstract sender -/

/-- A sender under credit: what it may still send, what waits, what it has sent. -/
structure Outbox where
  credit : ℤ
  backlog : List Payload := []
  emitted : List Payload := []
  deriving DecidableEq

/-- What both runtimes are given. -/
inductive Event where
  | send (payload : Payload)
  /-- A WINDOW_UPDATE. -/
  | credit (delta : UInt32)
  deriving DecidableEq

/-- The credit an event gives. -/
def Event.given : Event → ℤ
  | .send _ => 0
  | .credit d => d.toNat

/-- The MSG frame of the stream, whose id is the first of its connection. -/
def msg (p : Payload) : Frame := { streamId := 1, kind := .kindMsg, payload := p }

/-- The WINDOW_UPDATE frame that gives it credit. -/
def update (delta : UInt32) : Frame := { streamId := 1, kind := .kindWindowUpdate, window := delta }

namespace Outbox

/-- Send from the front of the backlog while there is credit. -/
def drain (credit : ℤ) (emitted : List Payload) : List Payload → Outbox
  | [] => { credit, emitted }
  | p :: rest =>
      if 0 < credit then drain (credit - p.length) (emitted ++ [p]) rest
      else { credit, backlog := p :: rest, emitted }

def step (o : Outbox) : Event → Outbox
  | .send p => drain o.credit o.emitted (o.backlog ++ [p])
  | .credit d => drain (o.credit + d.toNat) o.emitted o.backlog

/-! ### Windows in machine numbers -/

/-- `drain`, where `machine` is what the machine makes of the result of an operation. -/
def drainIn (machine : ℤ → ℤ) (credit : ℤ) (emitted : List Payload) : List Payload → Outbox
  | [] => { credit, emitted }
  | p :: rest =>
      if 0 < credit then drainIn machine (machine (credit - p.length)) (emitted ++ [p]) rest
      else { credit, backlog := p :: rest, emitted }

def stepIn (machine : ℤ → ℤ) (o : Outbox) : Event → Outbox
  | .send p => drainIn machine o.credit o.emitted (o.backlog ++ [p])
  | .credit d => drainIn machine (machine (o.credit + d.toNat)) o.emitted o.backlog

/-- An `int` of Go. -/
def int64 (z : ℤ) : ℤ := z.bmod (2 ^ 64)

/-- A number of TypeScript. -/
def double (z : ℤ) : ℤ := Binary64.roundInt z

/-- The machine is exact up to `2 ^ 53`. -/
def Precise (machine : ℤ → ℤ) : Prop := ∀ z : ℤ, z.natAbs ≤ 2 ^ 53 → machine z = z

theorem precise_int64 : Precise int64 := fun z hz =>
  Int.bmod_eq_of_le (by omega) (by omega)

theorem precise_double : Precise double := fun _ hz => Binary64.roundInt_of_le hz

/-- No payload is longer than this; none that fits a machine is. -/
def Sized (l : List Payload) : Prop := ∀ p ∈ l, p.length ≤ 2 ^ 52

/-- What is kept: the window is one payload below zero at most, and what waits is sized. -/
structure Bounded (o : Outbox) : Prop where
  low : -2 ^ 52 ≤ o.credit
  sized : Sized o.backlog

/-- The machine drains like the outbox, and the credit only falls. -/
theorem drainIn_eq {machine : ℤ → ℤ} (hm : Precise machine) (l : List Payload) (hl : Sized l) :
    ∀ {c : ℤ} {out : List Payload}, -2 ^ 52 ≤ c → c ≤ 2 ^ 53 →
      drainIn machine c out l = drain c out l ∧ Bounded (drain c out l) ∧
        (drain c out l).credit ≤ c := by
  induction l with
  | nil =>
      intro c out hlow _
      exact ⟨rfl, ⟨hlow, hl⟩, le_refl c⟩
  | cons p l ih =>
      intro c out hlow hhigh
      have hp := hl p List.mem_cons_self
      rw [drainIn, drain]
      by_cases hc : 0 < c
      · rw [if_pos hc, if_pos hc, hm _ (by omega)]
        have hrest := @ih (fun q hq => hl q (List.mem_cons_of_mem p hq)) (c - p.length) (out ++ [p])
        obtain ⟨heq, hbound, hle⟩ := hrest (by omega) (by omega)
        exact ⟨heq, hbound, by omega⟩
      · rw [if_neg hc, if_neg hc]
        exact ⟨rfl, ⟨hlow, hl⟩, le_refl c⟩

/-- **The window in machine numbers is the window**, along every run whose credit stays
within `2 ^ 53`. -/
theorem foldl_stepIn {machine : ℤ → ℤ} (hm : Precise machine) (evs : List Event)
    (hevs : ∀ p, Event.send p ∈ evs → p.length ≤ 2 ^ 52) : ∀ {o : Outbox}, Bounded o →
    o.credit + (evs.map Event.given).sum ≤ 2 ^ 53 →
    evs.foldl (stepIn machine) o = evs.foldl step o := by
  induction evs with
  | nil => intro o _ _; rfl
  | cons e evs ih =>
      intro o ho hsum
      rw [List.map_cons, List.sum_cons] at hsum
      have hrest : 0 ≤ (evs.map Event.given).sum := by
        refine List.sum_nonneg fun z hz => ?_
        obtain ⟨e', -, rfl⟩ := List.mem_map.1 hz
        cases e' <;> simp [Event.given]
      have hone : stepIn machine o e = step o e ∧ Bounded (step o e) ∧
          (step o e).credit ≤ o.credit + e.given := by
        cases e with
        | send p =>
            have hsized : Sized (o.backlog ++ [p]) := by
              intro q hq
              rcases List.mem_append.1 hq with hq | hq
              · exact ho.sized q hq
              · rw [List.mem_singleton.1 hq]
                exact hevs p List.mem_cons_self
            simp only [Event.given] at hsum ⊢
            rw [add_zero]
            exact drainIn_eq hm _ hsized ho.low (by omega)
        | credit d =>
            have hlow := ho.low
            simp only [Event.given] at hsum ⊢
            rw [stepIn, hm _ (by omega)]
            exact drainIn_eq hm _ ho.sized (by omega) (by omega)
      obtain ⟨heq, hbound, hle⟩ := hone
      rw [List.foldl_cons, List.foldl_cons, heq]
      exact ih (fun p hp => hevs p (List.mem_cons_of_mem e hp)) hbound (by omega)

-- with `2 ^ 53` in the window one more byte of credit is lost on a double, and an `int`
-- that is full becomes negative
example : (stepIn double ⟨2 ^ 53, [], []⟩ (.credit 1)).credit = 2 ^ 53 ∧
    (stepIn int64 ⟨2 ^ 53, [], []⟩ (.credit 1)).credit = 2 ^ 53 + 1 ∧
    (stepIn int64 ⟨2 ^ 63 - 1024, [], []⟩ (.credit 2048)).credit < 0 := by
  decide

end Outbox

/-! ## The Go sender -/

/-- `SendRaw` called on a list of payloads by one goroutine, until it waits: the
stream, the payloads left, the frames written. -/
def sendAll (s : Go.Stream) : List Payload → Go.Stream × List Payload × List Frame
  | [] => (s, [], [])
  | b :: rest =>
      match s.sendRaw b with
      | .charged s' f =>
          ((sendAll s' rest).1, (sendAll s' rest).2.1, f :: (sendAll s' rest).2.2)
      | .failed _ => sendAll s rest
      | .wait => (s, b :: rest, [])

/-- A stream, the payloads its goroutine still has to send, and what it has written. -/
structure GoSender where
  stream : Go.Stream
  todo : List Payload := []
  written : List Frame := []
  deriving DecidableEq

namespace GoSender

/-- The goroutine runs until it waits. -/
def wake (x : GoSender) : GoSender :=
  { stream := (sendAll x.stream x.todo).1
    todo := (sendAll x.stream x.todo).2.1
    written := x.written ++ (sendAll x.stream x.todo).2.2 }

def step (x : GoSender) : Event → GoSender
  | .send p => { x with todo := x.todo ++ [p] }.wake
  | .credit d => { x with stream := (x.stream.onFrame false (update d)).stream }.wake

/-- A fresh stream of a Go client. -/
def start (method : Text) (W : ℤ) : GoSender := { stream := Go.newStream none 1 method W }

/-- The Go sender is the outbox. -/
structure Refines (x : GoSender) (o : Outbox) : Prop where
  live : x.stream.sendBlockErrLocked = none
  id : x.stream.id = 1
  window : x.stream.sendWindow = o.credit
  todo : x.todo = o.backlog
  written : x.written = o.emitted.map msg

theorem wake_of_stuck {x : GoSender} (h : sendAll x.stream x.todo = (x.stream, x.todo, [])) :
    x.wake = x := by
  rw [wake, h, List.append_nil]

/-- **The goroutine drains the outbox.** -/
theorem refines_wake (l : List Payload) : ∀ {x : GoSender} {c : ℤ} {out : List Payload},
    Refines x ⟨c, l, out⟩ → Refines x.wake (Outbox.drain c out l) := by
  induction l with
  | nil =>
      intro x c out hx
      have hstuck : sendAll x.stream x.todo = (x.stream, x.todo, []) := by
        rw [hx.todo]
        rfl
      rw [wake_of_stuck hstuck]
      exact hx
  | cons p l ih =>
      intro x c out hx
      have hcredit : x.stream.sendWindow = c := hx.window
      have htodo : x.todo = p :: l := hx.todo
      rw [Outbox.drain]
      by_cases hc : 0 < c
      · -- one turn charges the window and goes on with the rest
        have hsend : x.stream.sendRaw p =
            .charged (x.stream.chargeSend p.length) (x.stream.msgFrame p) := by
          rw [Go.Stream.sendRaw, if_pos (hcredit ▸ hc)]
        have hmsg : x.stream.msgFrame p = msg p := by rw [Go.Stream.msgFrame, hx.id, msg]
        have hw : x.wake = wake
            { stream := x.stream.chargeSend p.length, todo := l, written := x.written ++ [msg p] } := by
          simp only [wake, htodo, sendAll, hsend, hmsg, List.append_assoc, List.singleton_append]
        rw [if_pos hc, hw]
        apply ih
        refine ⟨hx.live, hx.id, ?_, rfl, ?_⟩
        · show x.stream.sendWindow - p.length = c - p.length
          rw [hcredit]
        · simp only [hx.written, List.map_append, List.map_cons, List.map_nil]
      · have hsend : x.stream.sendRaw p = .wait := by
          rw [Go.Stream.sendRaw, if_neg (hcredit ▸ hc), hx.live]
        have hstuck : sendAll x.stream x.todo = (x.stream, x.todo, []) := by
          simp only [htodo, sendAll, hsend]
        rw [if_neg hc, wake_of_stuck hstuck]
        exact hx

/-- **The Go sender is the outbox**, step by step. -/
theorem refines_step {x : GoSender} {o : Outbox} (hx : Refines x o) (e : Event)
    (he : ∀ d, e = .credit d → 0 < d.toNat) : Refines (x.step e) (o.step e) := by
  cases e with
  | send p =>
      apply refines_wake
      exact ⟨hx.live, hx.id, hx.window, by rw [hx.todo], hx.written⟩
  | credit d =>
      have hd : ¬ ((d.toNat : ℤ) ≤ 0) := by
        have := he d rfl
        omega
      have hs : (x.stream.onFrame false (update d)).stream =
          { x.stream with sendWindow := x.stream.sendWindow + d.toNat } := by
        simp only [Go.Stream.onFrame, update, Go.Routed.stream, Go.Stream.creditSend]
        exact if_neg hd
      apply refines_wake
      refine ⟨?_, ?_, ?_, hx.todo, hx.written⟩
      · rw [hs]
        exact hx.live
      · rw [hs]
        exact hx.id
      · rw [hs]
        show x.stream.sendWindow + d.toNat = o.credit + d.toNat
        rw [hx.window]

end GoSender

/-! ## The TypeScript sender -/

namespace TsSender

variable (size : Frame → ℕ)

/-- An event of the mux with the stream in it; `pump` runs within the event. -/
def step (m : Ts.Mux) : Event → Ts.Mux
  | .send p => (m.send size 0 p).1
  | .credit d => (m.route size (update d)).1

def isMsg (f : Frame) : Bool := decide (f.kind = .kindMsg)

/-- The stream holds the outbox. -/
structure Holds (s : Ts.StreamImpl) (o : Outbox) : Prop where
  id : s.id = 1
  unfinished : s.finished = false
  sendable : s.sendClosed = false
  window : s.sendWindow = o.credit
  outbound : s.outbound = o.backlog

/-- The TypeScript sender is the outbox. -/
structure Refines (m : Ts.Mux) (o : Outbox) : Prop where
  opened : m.opened = true
  live : m.defunct = false
  registered : m.streams.lookup 1 = some 0
  stream : ∃ s, m.objs[0]? = some s ∧ Holds s o
  sent : m.sent.filter isMsg = o.emitted.map msg

variable {size}

/-- Changing the stream object. -/
theorem Refines.setObj {m : Ts.Mux} {o o' : Outbox} (hm : Refines m o) {s' : Ts.StreamImpl}
    (hs' : Holds s' o') (hsent : o'.emitted = o.emitted) : Refines (m.setObj 0 s') o' := by
  obtain ⟨s, hs, -⟩ := hm.stream
  have hlt : 0 < m.objs.length := (List.getElem?_eq_some_iff.1 hs).1
  refine ⟨hm.opened, hm.live, hm.registered, ⟨s', ?_, hs'⟩, ?_⟩
  · simp [Ts.Mux.setObj, hlt]
  · rw [hsent]
    exact hm.sent

/-- The write of a message. -/
theorem Refines.writeMsg (size : Frame → ℕ) {m : Ts.Mux} {c : ℤ} {l out : List Payload}
    (hm : Refines m ⟨c, l, out⟩) (p : Payload) :
    ∃ m', m.writeFrame size (msg p) = (m', none) ∧ Refines m' ⟨c, l, out ++ [p]⟩ := by
  obtain ⟨s, hs, hh⟩ := hm.stream
  refine ⟨_, Ts.Mux.writeFrame_opened hm.opened hm.live _, hm.opened, hm.live, hm.registered, ?_, ?_⟩
  · exact ⟨s, hs, hh.id, hh.unfinished, hh.sendable, hh.window, hh.outbound⟩
  · rw [List.filter_append, hm.sent, List.map_append]
    rfl

/-- A turn of `pump` takes the oldest payload while the window is open. -/
theorem shift_of_open {s : Ts.StreamImpl} {p : Payload} {l : List Payload}
    (hout : s.outbound = p :: l) (hwin : 0 < s.sendWindow) (hfin : s.finished = false) :
    s.shift = some (p, { s with
      outbound := l
      outboundBytes := s.outboundBytes - p.length
      sendWindow := s.sendWindow - p.length }) := by
  simp only [Ts.StreamImpl.shift, hout]
  exact if_pos ⟨hwin, hfin⟩

/-- **`pump` drains the outbox.** -/
theorem refines_pumpTurns (l : List Payload) : ∀ {n : ℕ} {m : Ts.Mux} {c : ℤ} {out : List Payload},
    l.length ≤ n → Refines m ⟨c, l, out⟩ →
    Refines (m.pumpTurns size n 0).1 (Outbox.drain c out l) := by
  induction l with
  | nil =>
      intro n m c out _ hm
      obtain ⟨s, hs, hh⟩ := hm.stream
      have hshift : s.shift = none := by rw [Ts.StreamImpl.shift, hh.outbound]
      cases n with
      | zero => exact hm
      | succ n =>
          simp only [Ts.Mux.pumpTurns, hs, hshift]
          exact hm
  | cons p l ih =>
      intro n m c out hn hm
      obtain ⟨s, hs, hh⟩ := hm.stream
      have hout : s.outbound = p :: l := hh.outbound
      have hwin : s.sendWindow = c := hh.window
      cases n with
      | zero => exact absurd hn (by simp)
      | succ n =>
          rw [Outbox.drain]
          by_cases hc : 0 < c
          · have hshift := shift_of_open hout (hwin ▸ hc) hh.unfinished
            have hheld : Holds { s with
                outbound := l
                outboundBytes := s.outboundBytes - p.length
                sendWindow := s.sendWindow - p.length } ⟨c - p.length, l, out⟩ := by
              refine ⟨hh.id, hh.unfinished, hh.sendable, ?_, rfl⟩
              show s.sendWindow - p.length = c - p.length
              rw [hwin]
            have hmsg : s.msgFrame p = msg p := by rw [Ts.StreamImpl.msgFrame, hh.id, msg]
            obtain ⟨m', hw, hm'⟩ := (hm.setObj hheld rfl).writeMsg size p
            simp only [Ts.Mux.pumpTurns, hs, hshift, hmsg, hw, if_pos hc]
            exact ih (Nat.le_of_succ_le_succ hn) hm'
          · have hshift : s.shift = none := by
              simp only [Ts.StreamImpl.shift, hout, hwin, hc, false_and, if_false]
            simp only [Ts.Mux.pumpTurns, hs, hshift, if_neg hc]
            exact hm

theorem refines_pump {m : Ts.Mux} {o : Outbox} (hm : Refines m o) :
    Refines (m.pump size 0).1 (Outbox.drain o.credit o.emitted o.backlog) := by
  obtain ⟨s, hs, hh⟩ := hm.stream
  simp only [Ts.Mux.pump, hs]
  apply refines_pumpTurns _ _ hm
  rw [hh.outbound]

/-- What the outbound backlog may hold. -/
def Within (m : Ts.Mux) : Prop := ∀ s ∈ m.objs[0]?, s.outboundBytes ≤ s.maxSendBuffer

instance (m : Ts.Mux) : Decidable (Within m) :=
  inferInstanceAs (Decidable (∀ s ∈ m.objs[0]?, s.outboundBytes ≤ s.maxSendBuffer))

/-- **The TypeScript sender is the outbox**, step by step, while its backlog is within
its bound. -/
theorem refines_step {m : Ts.Mux} {o : Outbox} (hm : Refines m o) (hb : Within m) (e : Event)
    (he : ∀ d, e = .credit d → 0 < d.toNat) : Refines (step size m e) (o.step e) := by
  obtain ⟨s, hs, hh⟩ := hm.stream
  cases e with
  | send p =>
      have hopen : ¬ ((s.sendClosed || s.finished) = true) := by
        simp [hh.sendable, hh.unfinished]
      have hfull : ¬ s.maxSendBuffer < s.outboundBytes := not_lt.2 (hb s hs)
      simp only [step, Ts.Mux.send, hs, if_neg hopen, if_neg hfull]
      refine refines_pump (o := ⟨o.credit, o.backlog ++ [p], o.emitted⟩) (hm.setObj ?_ rfl)
      refine ⟨hh.id, hh.unfinished, hh.sendable, hh.window, ?_⟩
      show s.outbound ++ [p] = o.backlog ++ [p]
      rw [hh.outbound]
  | credit d =>
      have hfind : m.find (update d).streamId = some (0, s) := by
        simp [Ts.Mux.find, update, hm.registered, hs]
      have hd : ¬ (((update d).window.toNat : ℤ) ≤ 0) := by
        have := he d rfl
        show ¬ ((d.toNat : ℤ) ≤ 0)
        omega
      simp only [step, Ts.Mux.route, show (update d).kind = .kindWindowUpdate from rfl, hfind,
        Ts.Mux.creditSend, hs, if_neg hd]
      refine refines_pump (o := ⟨o.credit + d.toNat, o.backlog, o.emitted⟩) (hm.setObj ?_ rfl)
      refine ⟨hh.id, hh.unfinished, hh.sendable, ?_, hh.outbound⟩
      show s.sendWindow + d.toNat = o.credit + d.toNat
      rw [hh.window]

end TsSender

/-! ## The two senders -/

section Senders

variable (size : Frame → ℕ)

/-- The backlog of the TypeScript stream stays within its bound. -/
def WithinRun : Ts.Mux → List Event → Prop
  | m, [] => TsSender.Within m
  | m, e :: rest => TsSender.Within m ∧ WithinRun (TsSender.step size m e) rest

/-- After the same events the two senders have emitted the same MSG frames and have
the same window. -/
def SendsAgree (x : GoSender) (m : Ts.Mux) : Prop :=
  x.written = m.sent.filter TsSender.isMsg ∧
    m.objs[0]?.map Ts.StreamImpl.sendWindow = some x.stream.sendWindow

variable {size}

theorem sendsAgree_of_refines {x : GoSender} {m : Ts.Mux} {o : Outbox}
    (hx : GoSender.Refines x o) (hm : TsSender.Refines m o) : SendsAgree x m := by
  obtain ⟨s, hs, hh⟩ := hm.stream
  refine ⟨hx.written.trans hm.sent.symm, ?_⟩
  rw [hs, Option.map_some, hh.window, hx.window]

/-- **The senders are the outbox**, along every run of events. -/
theorem refines_run (evs : List Event) : ∀ {x : GoSender} {m : Ts.Mux} {o : Outbox},
    GoSender.Refines x o → TsSender.Refines m o →
    (∀ d, Event.credit d ∈ evs → 0 < d.toNat) → WithinRun size m evs →
    GoSender.Refines (evs.foldl GoSender.step x) (evs.foldl Outbox.step o) ∧
      TsSender.Refines (evs.foldl (TsSender.step size) m) (evs.foldl Outbox.step o) := by
  induction evs with
  | nil =>
      intro x m o hx hm _ _
      exact ⟨hx, hm⟩
  | cons e evs ih =>
      intro x m o hx hm hpos hwithin
      have he : ∀ d, e = .credit d → 0 < d.toNat := by
        rintro d rfl
        exact hpos d List.mem_cons_self
      refine ih (GoSender.refines_step hx e he) (TsSender.refines_step hm hwithin.1 e he) ?_ hwithin.2
      intro d hd
      exact hpos d (List.mem_cons_of_mem _ hd)

theorem refines_goStart (method : Text) {W : ℤ} (hW : 1 ≤ W) :
    GoSender.Refines (GoSender.start method W) ⟨W, [], []⟩ := by
  refine ⟨rfl, rfl, ?_, rfl, rfl⟩
  show Go.windowOr W = W
  rw [Go.windowOr, if_neg (by omega)]

theorem refines_tsStart (method : Text) (headers : Headers) {W : ℤ} (hW : 1 ≤ W)
    (maxSendBuffer : ℤ) :
    TsSender.Refines (Ts.Mux.startOne size method headers W maxSendBuffer) ⟨W, [], []⟩ := by
  have hwin : Ts.positiveOr W Ts.defaultInitialWindow = W := by
    rw [Ts.positiveOr, if_pos (by omega)]
  simp only [Ts.Mux.startOne, Ts.Mux.new, hwin, if_true]
  refine ⟨rfl, rfl, ?_, ?_, ?_⟩
  · exact AList.lookup_insert _
  · refine ⟨_, rfl, rfl, rfl, rfl, ?_, rfl⟩
    show Ts.positiveOr W Ts.defaultInitialWindow = W
    exact hwin
  · rfl

end Senders

/-! ## The credit a receiver returns -/

/-- The amounts that fall due while payloads of the given lengths are consumed, and
what is held back in the end: an amount is due once it reaches the threshold `t`. -/
def dues (t : ℤ) : ℤ → List ℕ → List ℤ × ℤ
  | p, [] => ([], p)
  | p, n :: l =>
      if p + n < t then dues t (p + n) l else ((p + n) :: (dues t 0 l).1, (dues t 0 l).2)

/-- The deltas of the WINDOW_UPDATEs of a Go receiver, and its `pendingCredit`. -/
def goCredits (s : Go.Stream) : List ℕ → List ℤ × ℤ
  | [] => ([], s.pendingCredit)
  | n :: l =>
      ((if (s.returnCredit n).2 = 0 then [] else [((s.returnCredit n).2.toNat : ℤ)]) ++
          (goCredits (s.returnCredit n).1 l).1,
        (goCredits (s.returnCredit n).1 l).2)

/-- The deltas a TypeScript receiver gives to its hook, and its `pendingCredit`. -/
def tsCredits (s : Ts.StreamImpl) : List ℕ → List ℤ × ℤ
  | [] => ([], s.pendingCredit)
  | n :: l =>
      ((s.returnCredit n).2.toList ++ (tsCredits (s.returnCredit n).1 l).1,
        (tsCredits (s.returnCredit n).1 l).2)

/-- Every amount that falls due is positive. -/
theorem dues_pos {t : ℤ} (ht : 1 ≤ t) (l : List ℕ) : ∀ p, ∀ d ∈ (dues t p l).1, 0 < d := by
  induction l with
  | nil => intro p d hd; cases hd
  | cons n l ih =>
      intro p d hd
      rw [dues] at hd
      split_ifs at hd with hlt
      · exact ih _ d hd
      · rcases List.mem_cons.1 hd with rfl | hd
        · omega
        · exact ih _ d hd

/-- The TypeScript receiver returns what falls due. -/
theorem tsCredits_eq {t : ℤ} (ht : 1 ≤ t) (l : List ℕ) : ∀ {s : Ts.StreamImpl} {p : ℤ},
    s.finished = false → max 1 (s.initialWindow / 2) = t → s.pendingCredit = p → p < t →
    tsCredits s l = dues t p l := by
  induction l with
  | nil =>
      intro s p _ _ hp _
      rw [tsCredits, dues, hp]
  | cons n l ih =>
      intro s p hfin hthr hp hlt
      rw [tsCredits, dues]
      by_cases hn : n = 0
      · -- nothing was consumed
        have hret : s.returnCredit n = (s, none) := by
          rw [Ts.StreamImpl.returnCredit, if_pos (Or.inl (by omega))]
        have hadd : p + n = p := by omega
        rw [hret, hadd, if_pos hlt]
        exact ih hfin hthr hp hlt
      · have hgo : ¬ ((n : ℤ) ≤ 0 ∨ s.finished = true) := by
          rw [hfin]
          rintro (h | h)
          · omega
          · cases h
        by_cases hdue : p + n < t
        · have hret : s.returnCredit n = ({ s with pendingCredit := p + n }, none) := by
            rw [Ts.StreamImpl.returnCredit, if_neg hgo, hthr, hp, if_neg (not_le.2 hdue)]
          rw [hret, if_pos hdue]
          exact ih hfin hthr rfl hdue
        · have hret : s.returnCredit n = ({ s with pendingCredit := 0 }, some (p + n)) := by
            rw [Ts.StreamImpl.returnCredit, if_neg hgo, hthr, hp, if_pos (not_lt.1 hdue)]
          have hrest : tsCredits { s with pendingCredit := 0 } l = dues t 0 l :=
            ih hfin hthr rfl (by omega)
          rw [hret, if_neg hdue, hrest]
          rfl

/-- What is left of the due amounts after the conversion to `uint32`. -/
def truncated (ds : List ℤ) : List ℤ := (ds.map (· % 2 ^ 32)).filter (· ≠ 0)

/-- A delta is written if the conversion leaves something of it. -/
theorem truncated_cons (d : ℤ) (ds : List ℤ) :
    truncated (d :: ds) = (if Go.Stream.toUint32 d = 0 then []
      else [((Go.Stream.toUint32 d).toNat : ℤ)]) ++ truncated ds := by
  have hconv := Go.Stream.toNat_toUint32 d
  have hzero : Go.Stream.toUint32 d = 0 ↔ d % 2 ^ 32 = 0 := by
    rw [← UInt32.toNat_inj, UInt32.toNat_zero]
    omega
  rw [truncated, List.map_cons]
  by_cases h : d % 2 ^ 32 = 0
  · rw [if_pos (hzero.2 h), List.filter_cons_of_neg (by simpa using h)]
    rfl
  · rw [if_neg (mt hzero.1 h), List.filter_cons_of_pos (by simpa using h), hconv]
    rfl

/-- Nothing is lost exactly if every amount fits. -/
theorem truncated_eq_iff {ds : List ℤ} (hpos : ∀ d ∈ ds, 0 < d) :
    truncated ds = ds ↔ ∀ d ∈ ds, d < 2 ^ 32 := by
  constructor
  · intro h d hd
    rw [← h] at hd
    obtain ⟨d', -, rfl⟩ := List.mem_map.1 (List.mem_filter.1 hd).1
    exact Int.emod_lt_of_pos d' (by norm_num)
  · intro h
    have hmap : ds.map (· % 2 ^ 32) = ds := by
      refine (List.map_congr_left ?_).trans (List.map_id ds)
      intro d hd
      exact Int.emod_eq_of_lt (hpos d hd).le (h d hd)
    rw [truncated, hmap, List.filter_eq_self]
    intro d hd
    have := hpos d hd
    simp only [ne_eq, decide_not, Bool.not_eq_true', decide_eq_false_iff_not]
    omega

/-- The Go receiver returns what falls due, truncated. -/
theorem goCredits_eq {t : ℤ} (ht : 1 ≤ t) (l : List ℕ) : ∀ {s : Go.Stream} {p : ℤ},
    s.creditThreshold = t → s.pendingCredit = p → p < t →
    goCredits s l = (truncated (dues t p l).1, (dues t p l).2) := by
  induction l with
  | nil =>
      intro s p _ hp _
      rw [goCredits, dues, hp]
      rfl
  | cons n l ih =>
      intro s p hthr hp hlt
      rw [goCredits, dues]
      by_cases hn : n = 0
      · have hret : s.returnCredit n = (s, 0) := by
          rw [Go.Stream.returnCredit, if_pos (by omega)]
        have hadd : p + n = p := by omega
        rw [hret, hadd, if_pos hlt, if_pos rfl, ih hthr hp hlt]
        rfl
      · have hgo : ¬ ((n : ℤ) ≤ 0) := by omega
        by_cases hdue : p + n < t
        · have hret : s.returnCredit n = ({ s with pendingCredit := p + n }, 0) := by
            rw [Go.Stream.returnCredit, if_neg hgo, hthr, hp, if_pos hdue]
          have hrest := ih (s := { s with pendingCredit := p + n }) hthr rfl hdue
          rw [hret, if_pos hdue, if_pos rfl, hrest]
          rfl
        · have hret : s.returnCredit n =
              ({ s with pendingCredit := 0 }, Go.Stream.toUint32 (p + n)) := by
            rw [Go.Stream.returnCredit, if_neg hgo, hthr, hp, if_neg hdue]
          have hrest := ih (s := { s with pendingCredit := 0 }) (p := 0) hthr rfl (by omega)
          rw [hret, if_neg hdue, hrest, truncated_cons]

/-- The threshold for a window `W`. -/
def threshold (W : ℤ) : ℤ := max 1 (W / 2)

/-- No amount that falls due while payloads of these lengths are consumed reaches
`2 ^ 32`. -/
def Fits (W : ℤ) (lens : List ℕ) : Prop := ∀ d ∈ (dues (threshold W) 0 lens).1, d < 2 ^ 32

instance (W : ℤ) (lens : List ℕ) : Decidable (Fits W lens) :=
  inferInstanceAs (Decidable (∀ d ∈ (dues (threshold W) 0 lens).1, d < 2 ^ 32))

/-- The two receivers emit the same deltas and hold back the same. -/
def CreditAgrees (method : Text) (W maxSendBuffer : ℤ) (lens : List ℕ) : Prop :=
  goCredits (Go.newStream none 1 method W) lens = tsCredits (Ts.newStreamImpl 1 W maxSendBuffer) lens

/-- **The receivers agree exactly if every due amount fits a `uint32`.** -/
theorem credit_agrees_iff (method : Text) {W : ℤ} (hW : 1 ≤ W) (maxSendBuffer : ℤ)
    (lens : List ℕ) : CreditAgrees method W maxSendBuffer lens ↔ Fits W lens := by
  have ht : 1 ≤ threshold W := le_max_left _ _
  have hwin : Go.windowOr W = W := by rw [Go.windowOr, if_neg (by omega)]
  have hgo : goCredits (Go.newStream none 1 method W) lens =
      (truncated (dues (threshold W) 0 lens).1, (dues (threshold W) 0 lens).2) := by
    refine goCredits_eq ht lens (p := 0) ?_ rfl (by omega)
    simp only [Go.Stream.creditThreshold, Go.newStream, hwin, threshold]
    split_ifs <;> omega
  have hts : tsCredits (Ts.newStreamImpl 1 W maxSendBuffer) lens = dues (threshold W) 0 lens := by
    refine tsCredits_eq ht lens (p := 0) rfl ?_ rfl (by omega)
    show max 1 (Ts.positiveOr W Ts.defaultInitialWindow / 2) = threshold W
    rw [Ts.positiveOr, if_pos (by omega), threshold]
  rw [CreditAgrees, hgo, hts, Fits, ← truncated_eq_iff (dues_pos ht lens 0), Prod.ext_iff]
  exact and_iff_left rfl

/-! ## Both directions -/

/-- **Flow control agrees exactly as long as every due amount fits a `uint32`.**  For
every window, every list of sends and WINDOW_UPDATEs that keeps the TypeScript backlog
within its bound and the window within `2 ^ 53`, and every list of consumed lengths.  Up to
there an `int` and a double hold the window exactly. -/
theorem flow_agrees_iff (size : Frame → ℕ) (method : Text) (headers : Headers) {W : ℤ}
    (hW : 1 ≤ W) (maxSendBuffer : ℤ) (evs : List Event) (lens : List ℕ)
    (hevs : ∀ d, Event.credit d ∈ evs → 0 < d.toNat ∧ d.toNat < 2 ^ 31)
    (hlens : ∀ p, Event.send p ∈ evs → p.length ≤ 2 ^ 52)
    (hrange : W + (evs.map Event.given).sum ≤ 2 ^ 53)
    (hwithin : WithinRun size (Ts.Mux.startOne size method headers W maxSendBuffer) evs) :
    (GoSender.Refines (evs.foldl GoSender.step (GoSender.start method W))
        (evs.foldl (Outbox.stepIn Outbox.int64) ⟨W, [], []⟩) ∧
      TsSender.Refines
        (evs.foldl (TsSender.step size) (Ts.Mux.startOne size method headers W maxSendBuffer))
        (evs.foldl (Outbox.stepIn Outbox.double) ⟨W, [], []⟩)) ∧
    ((SendsAgree (evs.foldl GoSender.step (GoSender.start method W))
        (evs.foldl (TsSender.step size) (Ts.Mux.startOne size method headers W maxSendBuffer)) ∧
      CreditAgrees method W maxSendBuffer lens) ↔ Fits W lens) := by
  obtain ⟨hgo, hts⟩ := refines_run evs (refines_goStart method hW)
    (refines_tsStart method headers hW maxSendBuffer) (fun d hd => (hevs d hd).1) hwithin
  have hstart : Outbox.Bounded ⟨W, [], []⟩ := ⟨by show -2 ^ 52 ≤ W; omega, by simp [Outbox.Sized]⟩
  refine ⟨⟨?_, ?_⟩, ?_⟩
  · rw [Outbox.foldl_stepIn Outbox.precise_int64 evs hlens hstart hrange]
    exact hgo
  · rw [Outbox.foldl_stepIn Outbox.precise_double evs hlens hstart hrange]
    exact hts
  · rw [credit_agrees_iff method hW]
    exact and_iff_right (sendsAgree_of_refines hgo hts)

/-- A blocked send that a WINDOW_UPDATE releases, and one consumed byte. -/
theorem flow_agrees_iff_one :
    SendsAgree ([.send [1, 2], .send [3], .credit 2].foldl GoSender.step (GoSender.start .empty 1))
        ([.send [1, 2], .send [3], .credit 2].foldl (TsSender.step fun _ => 1)
          (Ts.Mux.startOne (fun _ => 1) .empty ∅ 1 0)) ∧
      CreditAgrees .empty 1 0 [1] := by
  refine (flow_agrees_iff (fun _ => 1) .empty ∅ (by decide) 0 [.send [1, 2], .send [3], .credit 2]
    [1] ?_ ?_ (by decide) ?_).2.2 (by decide)
  · intro d hd
    obtain rfl : d = 2 := by simpa using hd
    decide
  · intro p hp
    obtain rfl | rfl : p = [1, 2] ∨ p = [3] := by simpa using hp
    · decide
    · decide
  · exact ⟨by decide, by decide, by decide, show TsSender.Within _ by decide⟩

/-- **A gibibyte of credit is returned for five.**  With a window of 10 GiB the credit
falls due after five payloads of a GiB each: the Go receiver returns one GiB of it, the
TypeScript receiver five. -/
theorem credit_truncated :
    goCredits (Go.newStream none 1 .empty (10 * 2 ^ 30)) (List.replicate 5 (2 ^ 30)) = ([2 ^ 30], 0) ∧
      tsCredits (Ts.newStreamImpl 1 (10 * 2 ^ 30) 0) (List.replicate 5 (2 ^ 30)) =
        ([5 * 2 ^ 30], 0) := by
  decide

end WsProto.Agree.Flow
