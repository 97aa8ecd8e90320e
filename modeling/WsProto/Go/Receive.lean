import WsProto.Lib.Run
import WsProto.Inbox
import WsProto.Go.Inbound.Model

/-!
# Receiving on a Go client

One client stream, frames that the read loop routes to it, and any number of `RecvRaw`
calls, some of which may be parked in their `select`.  After a frame or a call the
receivers run until each has returned or is parked with no case ready; which parked
receiver wakes, and which ready case its `select` takes, is open.

* `reads_runs` — however they run, what they return is what the mailbox of
  `WsProto.Inbox` says;
* `exists_runs` — and they do come to rest.

The receivers' code is that of `Inbound`; a routed frame is `Stream.onFrame`, which
`Inbound.loopEnds_route` takes apart.
-/

namespace WsProto.Go

open Machine Inbox

/-! ## The model -/

/-- A client stream with one receiver inside `RecvRaw`, or none, and the receivers
that are parked. -/
structure Receivers where
  x : Inbound
  parked : ℕ := 0
  deriving DecidableEq

namespace Receivers

/-- Some case of the `select` is ready. -/
def ready (x : Inbound) : Bool :=
  x.stream.recvSignal || x.stream.halfClosed || x.stream.ended || x.stream.ctxErr.isSome ||
    x.callerErr.isSome

inductive Act where
  /-- A parked receiver finds a case ready. -/
  | wake
  | recv
  | select (c : Case)
  /-- A receiver finds no case ready. -/
  | park
  deriving DecidableEq

def step (y : Receivers) : Act → Option Receivers
  | .wake =>
      if y.x.recv = .idle ∧ 0 < y.parked ∧ ready y.x then
        some { x := { y.x with recv := .select }, parked := y.parked - 1 }
      else none
  | .recv => y.x.recvStep.map fun x => { y with x }
  | .select c =>
      if y.x.recv = .select then (y.x.selectStep c).map fun x => { y with x } else none
  | .park =>
      if y.x.recv = .select ∧ ready y.x = false then
        some { x := { y.x with recv := .idle }, parked := y.parked + 1 }
      else none

/-- The read loop routes a frame. -/
def route (x : Inbound) (f : Frame) : Inbound :=
  if x.registered then
    { x with
      stream := (x.stream.onFrame x.server f).stream
      registered := !(x.stream.onFrame x.server f).leaves }
  else x

/-- The first step of an event. -/
def begin (y : Receivers) : Event → Receivers
  | .frame f => { y with x := route y.x f }
  | .recv => { y with x := { y.x with recv := .pop, callerErr := none } }

/-- Every receiver has returned or is parked with no case ready. -/
def Quiet (y : Receivers) : Prop := y.x.recv = .idle ∧ (y.parked = 0 ∨ ready y.x = false)

/-- An event, run until nothing more can happen. -/
def Runs (y : Receivers) (e : Event) (y' : Receivers) : Prop :=
  Reach step Always (y.begin e) y' ∧ y'.Quiet

/-- A list of events. -/
def RunsAll : Receivers → List Event → Receivers → Prop
  | y, [], y' => y' = y
  | y, e :: evs, y' => ∃ y₁, y.Runs e y₁ ∧ RunsAll y₁ evs y'

/-- A fresh client stream. -/
def start (method : Text) (W : ℤ) : Receivers := { x := Inbound.start false none 1 method W }

end Receivers

/-! ## The mailbox -/

/-- The error a receive returns once the stream has ended. -/
def causeError : Cause → GoError
  | .frame f => Inbound.endError f
  | .overflow => Inbound.statusError (fromError (some overflowErr))

/-- What a receive returns. -/
def toResult : Except Cause Payload → Except GoError Payload
  | .ok p => .ok p
  | .error c => .error (causeError c)

/-- The stream holds the payloads `items`, and has ended with `o`. -/
structure Base (limit : ℤ) (s : Stream) (registered : Bool) (items : List Payload)
    (o : Option Cause) : Prop where
  pos : 0 < limit
  backlog : s.recvItems.map Frame.payload = items
  recvBytes : s.recvBytes = bytes items
  limit : s.maxRecvBytes = limit
  half : s.halfClosed = false
  ended : s.ended = o.isSome
  registered : registered = o.isNone
  ctx : o = none → s.ctxErr = none
  fresh : o = none → s.endFrame = none
  frame : ∀ f, o = some (.frame f) → s.endFrame = some f ∧ (f.kind = .kindEnd ∨ f.kind = .kindRst)
  overflowed : o = some .overflow → s.endFrame = none ∧ s.endSt = fromError (some overflowErr)
  trailer : s.trailer = none ∨ ∃ f, o = some (.frame f) ∧ s.trailer = f.headers

/-- Where a receiver stands, the stream holds what the completed receives have left. -/
def Stands (limit : ℤ) (x : Inbound) (g : Mailbox Payload Cause) : Prop :=
  match x.recv with
  | .idle | .pop => Base limit x.stream x.registered g.buffered g.outcome
  | .select =>
      Base limit x.stream x.registered g.buffered g.outcome ∧
        (x.stream.recvItems = [] ∨ x.stream.recvSignal = true)
  | .deliver f =>
      ∃ rest, g.buffered = f.payload :: rest ∧ Base limit x.stream x.registered rest g.outcome
  | .endedPop | .ctxEnded _ =>
      Base limit x.stream x.registered g.buffered g.outcome ∧ g.outcome.isSome
  | .endedFrame =>
      Base limit x.stream x.registered g.buffered g.outcome ∧ g.buffered = [] ∧ g.outcome.isSome
  | .endedStatus =>
      Base limit x.stream x.registered g.buffered g.outcome ∧ g.buffered = [] ∧
        g.outcome = some .overflow
  | .record f =>
      Base limit x.stream x.registered g.buffered g.outcome ∧ g.buffered = [] ∧
        g.outcome = some (.frame f)
  | .cancel f =>
      Base limit x.stream x.registered g.buffered g.outcome ∧ g.buffered = [] ∧
        g.outcome = some (.frame f) ∧ x.stream.trailer = f.headers
  | .halfPop | .ctxPop _ => False

/-- The receivers in the middle of an event: `g` is the mailbox of the receives that
have returned. -/
structure Going (limit : ℤ) (y : Receivers) (g : Mailbox Payload Cause) : Prop where
  client : y.x.server = false
  caller : y.x.callerErr = none
  unparked : g.parked = 0
  results : y.x.results = g.results.map toResult
  stands : Stands limit y.x g
  /-- A message for a parked receiver has its token. -/
  woken : 0 < y.parked → y.x.stream.recvItems = [] ∨
    (y.x.stream.recvItems.length = 1 ∧ (y.x.stream.recvSignal = true ∨ y.x.recv = .pop))
  observed : 0 < g.beyond → ∀ f, g.outcome = some (.frame f) → y.x.stream.trailer = f.headers

/-- The receiver inside `RecvRaw`. -/
def active (x : Inbound) : ℕ := if x.recv = .idle then 0 else 1

/-- The mailbox with the receives that have not returned as well. -/
def total (y : Receivers) (g : Mailbox Payload Cause) : Mailbox Payload Cause :=
  { g with pulls := g.pulls + y.parked + active y.x }

variable {limit : ℤ} {y y' : Receivers} {g : Mailbox Payload Cause}

/-! ## The backlog -/

theorem Base.popRecv_nil {s : Stream} {reg : Bool} {o : Option Cause}
    (hb : Base limit s reg [] o) : s.popRecv = none := by
  rw [Stream.popRecv, List.map_eq_nil_iff.1 hb.backlog]

theorem Base.popRecv_cons {s : Stream} {reg : Bool} {o : Option Cause} {p : Payload}
    {rest : List Payload} (hb : Base limit s reg (p :: rest) o) :
    ∃ f s', s.popRecv = some (f, s') ∧ f.payload = p ∧ Base limit s' reg rest o ∧
      s'.recvItems = s.recvItems.tail ∧ s'.trailer = s.trailer ∧ s'.recvSignal = s.recvSignal := by
  obtain ⟨f, r, hitems, hp, hr⟩ := List.map_eq_cons_iff.1 hb.backlog
  refine ⟨f, { s with recvItems := r, recvBytes := s.recvBytes - f.payload.length }, ?_, hp, ?_, ?_,
    rfl, rfl⟩
  · rw [Stream.popRecv, hitems]
  · refine { hb with backlog := hr, recvBytes := ?_ }
    show s.recvBytes - f.payload.length = bytes rest
    rw [hb.recvBytes, bytes_cons, hp]
    ring
  · rw [hitems]
    rfl

/-! ## One step of a receiver -/

/-- A receiver moves on without returning, and the mailbox stays. -/
theorem Going.move (hy : Going limit y g) (x' : Inbound) (hactive : active x' = active y.x)
    (hclient : x'.server = y.x.server) (hcaller : x'.callerErr = y.x.callerErr)
    (hres : x'.results = y.x.results) (hstands : Stands limit x' g)
    (hwoken : 0 < y.parked → x'.stream.recvItems = [] ∨
      (x'.stream.recvItems.length = 1 ∧ (x'.stream.recvSignal = true ∨ x'.recv = .pop)))
    (hobs : 0 < g.beyond → ∀ f, g.outcome = some (.frame f) → x'.stream.trailer = f.headers) :
    ∃ g', Going limit { y with x := x' } g' ∧ total { y with x := x' } g' = total y g := by
  refine ⟨g, ⟨hclient.trans hy.client, hcaller.trans hy.caller, hy.unparked, hres.trans hy.results,
    hstands, hwoken, hobs⟩, ?_⟩
  simp only [total, hactive]

/-- A receiver returns. -/
theorem Going.finish (hy : Going limit y g) {x : Inbound} {r : Except Cause Payload}
    (hact : y.x.recv ≠ .idle) (hclient : x.server = y.x.server)
    (hcaller : x.callerErr = y.x.callerErr) (hres : x.results = y.x.results)
    (hpull : g.pull.results = g.results ++ [r] ∧ g.pull.parked = 0)
    (hbase : Base limit x.stream x.registered g.pull.buffered g.outcome)
    (hwoken : 0 < y.parked → x.stream.recvItems = [] ∨
      (x.stream.recvItems.length = 1 ∧ x.stream.recvSignal = true))
    (hobs : 0 < g.pull.beyond → ∀ f, g.outcome = some (.frame f) → x.stream.trailer = f.headers) :
    ∃ g', Going limit { y with x := x.finish (toResult r) } g' ∧
      total { y with x := x.finish (toResult r) } g' = total y g := by
  refine ⟨g.pull, ⟨hclient.trans hy.client, hcaller.trans hy.caller, hpull.2, ?_, hbase,
    fun hk => (hwoken hk).imp_right (And.imp_right Or.inl), hobs⟩, ?_⟩
  · show x.results ++ [toResult r] = g.pull.results.map toResult
    rw [hres, hy.results, hpull.1, List.map_append]
    rfl
  · have hidle : active (x.finish (toResult r)) = 0 := rfl
    have hone : active y.x = 1 := if_neg hact
    simp only [total, hidle, hone, Mailbox.pull]
    congr 1
    omega

/-- A pop that finds a message. -/
theorem Going.pop (hy : Going limit y g) (hact : y.x.recv ≠ .idle)
    (hb : Base limit y.x.stream y.x.registered g.buffered g.outcome) (otherwise : Inbound)
    {p : Payload} {rest : List Payload} (hbuf : g.buffered = p :: rest) :
    ∃ g', Going limit { y with x := y.x.popOr otherwise } g' ∧
      total { y with x := y.x.popOr otherwise } g' = total y g := by
  rw [hbuf] at hb
  obtain ⟨f, s', hpop, hp, hb', htail, htr, -⟩ := hb.popRecv_cons
  have hpopOr : y.x.popOr otherwise = { y.x with stream := s', recv := .deliver f } := by
    rw [Inbound.popOr, hpop]
  rw [hpopOr]
  refine hy.move _ ?_ rfl rfl rfl ⟨rest, by rw [hp]; exact hbuf, hb'⟩ ?_ ?_
  · rw [active, active, if_neg hact]
    rfl
  rotate_left
  · intro hg f' hf'
    show s'.trailer = _
    rw [htr]
    exact hy.observed hg f' hf'
  · intro hk
    left
    show s'.recvItems = []
    rw [htail]
    rcases hy.woken hk with hnil | ⟨hone, -⟩
    · rw [hnil]
      rfl
    · rw [← List.length_eq_zero_iff, List.length_tail, hone]

/-- A pop that finds nothing. -/
theorem popOr_nil {x otherwise : Inbound} {o : Option Cause}
    (hb : Base limit x.stream x.registered [] o) : x.popOr otherwise = otherwise := by
  rw [Inbound.popOr, hb.popRecv_nil]

theorem Base.recvItems_nil {s : Stream} {reg : Bool} {items : List Payload} {o : Option Cause}
    (hb : Base limit s reg items o) (hnil : items = []) : s.recvItems = [] := by
  subst hnil
  exact List.map_eq_nil_iff.1 hb.backlog

/-- A receiver moves on and only its place changes. -/
theorem Going.goto (hy : Going limit y g) {pc : RecvPc} (hact : y.x.recv ≠ .idle)
    (hpc : pc ≠ .idle) (hstands : Stands limit { y.x with recv := pc } g)
    (hnil : y.x.stream.recvItems = [] ∨ (pc = .endedPop ∧ y.x.recv ≠ .pop)) :
    ∃ g', Going limit { y with x := { y.x with recv := pc } } g' ∧
      total { y with x := { y.x with recv := pc } } g' = total y g := by
  refine hy.move { y.x with recv := pc } ?_ rfl rfl rfl hstands ?_ hy.observed
  · rw [active, active, if_neg hact, if_neg hpc]
  · intro hk
    rcases hnil with hnil | ⟨-, hpop⟩
    · exact Or.inl hnil
    · rcases hy.woken hk with h | ⟨hone, h | h⟩
      · exact Or.inl h
      · exact Or.inr ⟨hone, Or.inl h⟩
      · exact absurd h hpop

/-- A step in `recvEnded`, where nothing is buffered and the cause is read. -/
theorem Going.endedFrame (hy : Going limit y g) (hpc : y.x.recv = .endedFrame) {x' : Inbound}
    (h : y.x.recvStep = some x') :
    ∃ g', Going limit { y with x := x' } g' ∧ total { y with x := x' } g' = total y g := by
  have hstands := hy.stands
  simp only [Stands, hpc] at hstands
  obtain ⟨hb, hbuf, hsome⟩ := hstands
  have hact : y.x.recv ≠ .idle := by rw [hpc]; simp
  have hnil := hb.recvItems_nil hbuf
  obtain ⟨c, hc⟩ := Option.isSome_iff_exists.1 hsome
  cases c with
  | frame f =>
      obtain ⟨hend, hkind⟩ := hb.frame f hc
      simp only [Inbound.recvStep, hpc, hend, if_pos hkind, Option.some.injEq] at h
      subst h
      exact hy.goto hact (by simp) ⟨hb, hbuf, hc⟩ (Or.inl hnil)
  | overflow =>
      simp only [Inbound.recvStep, hpc, (hb.overflowed hc).1, Option.some.injEq] at h
      subst h
      exact hy.goto hact (by simp) ⟨hb, hbuf, hc⟩ (Or.inl hnil)

/-- `applyEnd` records the trailers of the terminal frame. -/
theorem Going.record (hy : Going limit y g) {f : Frame} (hpc : y.x.recv = .record f) :
    ∃ g', Going limit { y with
        x := { y.x with stream := y.x.stream.recordEnd f, recv := .cancel f } } g' ∧
      total { y with x := { y.x with stream := y.x.stream.recordEnd f, recv := .cancel f } } g' =
        total y g := by
  have hstands := hy.stands
  simp only [Stands, hpc] at hstands
  obtain ⟨hb, hbuf, hout⟩ := hstands
  have htr : (y.x.stream.recordEnd f).trailer = f.headers := by
    show f.headers.or y.x.stream.trailer = f.headers
    rcases hb.trailer with h | ⟨f', hf', h⟩
    · rw [h, Option.or_none]
    · rw [hout] at hf'
      cases hf'
      rw [h, Option.or_self]
  have hb' : Base limit (y.x.stream.recordEnd f) y.x.registered g.buffered g.outcome :=
    { hb with
      overflowed := by rw [hout]; intro ho; cases ho
      trailer := Or.inr ⟨f, hout, htr⟩ }
  refine hy.move _ ?_ rfl rfl rfl ⟨hb', hbuf, hout, htr⟩ ?_ ?_
  · rw [active, active, hpc]
    rfl
  · intro _
    exact Or.inl (hb.recvItems_nil hbuf)
  · intro _ f' hf'
    rw [hout] at hf'
    cases hf'
    exact htr

/-- **A step of a receiver**, its `select` apart. -/
theorem Going.recvStep (hy : Going limit y g) {x' : Inbound} (h : y.x.recvStep = some x') :
    ∃ g', Going limit { y with x := x' } g' ∧ total { y with x := x' } g' = total y g := by
  have hstands := hy.stands
  cases hpc : y.x.recv with
  | idle => simp [Inbound.recvStep, hpc] at h
  | select => simp [Inbound.recvStep, hpc] at h
  | halfPop => simp [Stands, hpc] at hstands
  | ctxPop e => simp [Stands, hpc] at hstands
  | endedFrame => exact hy.endedFrame hpc h
  | record f =>
      simp only [Inbound.recvStep, hpc, Option.some.injEq] at h
      subst h
      exact hy.record hpc
  | pop =>
      have hact : y.x.recv ≠ .idle := by rw [hpc]; simp
      simp only [Inbound.recvStep, hpc, Option.some.injEq] at h
      simp only [Stands, hpc] at hstands
      subst h
      cases hbuf : g.buffered with
      | cons p rest => exact hy.pop hact hstands _ hbuf
      | nil =>
          have hnil := hstands.recvItems_nil hbuf
          rw [popOr_nil (hbuf ▸ hstands)]
          exact hy.goto hact (by simp) ⟨hstands, Or.inl hnil⟩ (Or.inl hnil)
  | endedPop =>
      have hact : y.x.recv ≠ .idle := by rw [hpc]; simp
      simp only [Inbound.recvStep, hpc, Option.some.injEq] at h
      simp only [Stands, hpc] at hstands
      obtain ⟨hb, hsome⟩ := hstands
      subst h
      cases hbuf : g.buffered with
      | cons p rest => exact hy.pop hact hb _ hbuf
      | nil =>
          rw [popOr_nil (hbuf ▸ hb)]
          exact hy.goto hact (by simp) ⟨hb, hbuf, hsome⟩ (Or.inl (hb.recvItems_nil hbuf))
  | ctxEnded e =>
      have hact : y.x.recv ≠ .idle := by rw [hpc]; simp
      simp only [Stands, hpc] at hstands
      obtain ⟨hb, hsome⟩ := hstands
      have hended : y.x.stream.ended = true := by rw [hb.ended, hsome]
      simp only [Inbound.recvStep, hpc, hended, if_true, Option.some.injEq] at h
      subst h
      exact hy.goto hact (by simp) ⟨hb, hsome⟩ (Or.inr ⟨rfl, by rw [hpc]; simp⟩)
  | endedStatus =>
      have hact : y.x.recv ≠ .idle := by rw [hpc]; simp
      simp only [Stands, hpc] at hstands
      obtain ⟨hb, hbuf, hout⟩ := hstands
      simp only [Inbound.recvStep, hpc, (hb.overflowed hout).2, Option.some.injEq] at h
      subst h
      obtain ⟨hbuf', hres, hpark⟩ := Mailbox.pull_finished hbuf hout
      refine hy.finish (r := .error .overflow) hact rfl rfl rfl ⟨hres, hpark⟩ ?_ ?_ ?_
      · rw [hbuf', ← hbuf]
        exact hb
      · exact fun _ => Or.inl (hb.recvItems_nil hbuf)
      · intro _ f hf
        rw [hout] at hf
        cases hf
  | cancel f =>
      have hact : y.x.recv ≠ .idle := by rw [hpc]; simp
      simp only [Stands, hpc] at hstands
      obtain ⟨hb, hbuf, hout, htr⟩ := hstands
      simp only [Inbound.recvStep, hpc, Option.some.injEq] at h
      subst h
      obtain ⟨hbuf', hres, hpark⟩ := Mailbox.pull_finished hbuf hout
      refine hy.finish (r := .error (.frame f)) hact rfl rfl rfl ⟨hres, hpark⟩ ?_ ?_ ?_
      · rw [hbuf', ← hbuf]
        exact { hb with ctx := by rw [hout]; intro ho; cases ho }
      · exact fun _ => Or.inl (hb.recvItems_nil hbuf)
      · intro _ f' hf'
        rw [hout] at hf'
        cases hf'
        exact htr
  | deliver f =>
      have hact : y.x.recv ≠ .idle := by rw [hpc]; simp
      simp only [Stands, hpc] at hstands
      obtain ⟨rest, hbuf, hb⟩ := hstands
      simp only [Inbound.recvStep, hpc, Option.some.injEq] at h
      subst h
      obtain ⟨c, hc⟩ := y.x.stream.returnCredit_fst f.payload.length
      obtain ⟨hbuf', hres, hpark⟩ := Mailbox.pull_buffered hbuf
      rw [hc]
      refine hy.finish (r := .ok f.payload) hact rfl rfl rfl ⟨hres, hpark⟩ ?_ ?_ ?_
      · rw [hbuf']
        exact { hb with }
      · intro hk
        refine (hy.woken hk).imp_right (And.imp_right ?_)
        rintro (h | h)
        · exact h
        · rw [hpc] at h
          cases h
      · intro hbey
        rw [Mailbox.pull_beyond (by rw [hbuf]; simp)] at hbey
        exact absurd hbey (lt_irrefl 0)

/-- **The `select` of a receiver.** -/
theorem Going.selectStep (hy : Going limit y g) (hpc : y.x.recv = .select) {c : Case}
    {x' : Inbound} (h : y.x.selectStep c = some x') :
    ∃ g', Going limit { y with x := x' } g' ∧ total { y with x := x' } g' = total y g := by
  have hstands := hy.stands
  simp only [Stands, hpc] at hstands
  obtain ⟨hb, htoken⟩ := hstands
  have hact : y.x.recv ≠ .idle := by rw [hpc]; simp
  have hnopop : y.x.recv ≠ .pop := by rw [hpc]; simp
  cases c with
  | recvSignal =>
      simp only [Inbound.selectStep] at h
      split_ifs at h with hsig
      cases h
      refine hy.move _ ?_ rfl rfl rfl { hb with } ?_ hy.observed
      · rw [active, active, if_neg hact]
        rfl
      · intro hk
        rcases hy.woken hk with hnil | ⟨hone, -⟩
        · exact Or.inl hnil
        · exact Or.inr ⟨hone, Or.inr rfl⟩
  | halfClosed =>
      simp only [Inbound.selectStep, hb.half] at h
      cases h
  | ended =>
      simp only [Inbound.selectStep] at h
      split_ifs at h with hended
      cases h
      rw [hb.ended] at hended
      exact hy.goto hact (by simp) ⟨hb, hended⟩ (Or.inr ⟨rfl, hnopop⟩)
  | ctxDone =>
      obtain ⟨e, he, rfl⟩ := Option.map_eq_some_iff.1 h
      have hsome : g.outcome.isSome := by
        rw [Option.isSome_iff_ne_none]
        intro hnone
        rw [hb.ctx hnone] at he
        cases he
      refine hy.move _ ?_ rfl rfl rfl ⟨hb, hsome⟩ ?_ hy.observed
      · rw [active, active, if_neg hact]
        rfl
      · intro hk
        refine (hy.woken hk).imp_right (And.imp_right ?_)
        rintro (h | h)
        · exact Or.inl h
        · exact absurd h hnopop
  | callerDone =>
      simp only [Inbound.selectStep, hy.caller] at h
      cases h

/-- **Every step of the receivers** keeps the mailbox, with the receives under way. -/
theorem Going.step (hy : Going limit y g) {a : Receivers.Act} (h : y.step a = some y') :
    ∃ g', Going limit y' g' ∧ total y' g' = total y g := by
  have hstands := hy.stands
  cases a with
  | recv =>
      obtain ⟨x', hx', rfl⟩ := Option.map_eq_some_iff.1 h
      exact hy.recvStep hx'
  | select c =>
      simp only [Receivers.step] at h
      split_ifs at h with hpc
      obtain ⟨x', hx', rfl⟩ := Option.map_eq_some_iff.1 h
      exact hy.selectStep hpc hx'
  | wake =>
      simp only [Receivers.step] at h
      split_ifs at h with hcond
      obtain ⟨hidle, hk, -⟩ := hcond
      cases h
      simp only [Stands, hidle] at hstands
      have hitems : y.x.stream.recvItems = [] ∨
          (y.x.stream.recvItems.length = 1 ∧ y.x.stream.recvSignal = true) := by
        refine (hy.woken hk).imp_right (And.imp_right ?_)
        rintro (h | h)
        · exact h
        · rw [hidle] at h
          cases h
      refine ⟨g, ⟨hy.client, hy.caller, hy.unparked, hy.results, ?_, ?_, hy.observed⟩, ?_⟩
      · exact ⟨hstands, hitems.imp_right And.right⟩
      · intro _
        exact hitems.imp_right (And.imp_right Or.inl)
      · simp only [total, active, hidle]
        congr 1
        simp
        omega
  | park =>
      simp only [Receivers.step] at h
      split_ifs at h with hcond
      obtain ⟨hpc, hready⟩ := hcond
      cases h
      simp only [Stands, hpc] at hstands
      have hsig : y.x.stream.recvSignal = false := by
        simp only [Receivers.ready, Bool.or_eq_false_iff] at hready
        exact hready.1.1.1.1
      have hnil : y.x.stream.recvItems = [] := by
        rcases hstands.2 with h | h
        · exact h
        · rw [hsig] at h
          cases h
      refine ⟨g, ⟨hy.client, hy.caller, hy.unparked, hy.results, hstands.1, ?_, hy.observed⟩, ?_⟩
      · exact fun _ => Or.inl hnil
      · simp only [total, active, hpc]
        congr 1

/-- What the receivers do between two events keeps the mailbox. -/
theorem Going.reach (hy : Going limit y g) (h : Reach Receivers.step Always y y') :
    ∃ g', Going limit y' g' ∧ total y' g' = total y g := by
  induction h with
  | refl => exact ⟨g, hy, rfl⟩
  | tail _ _ hstep ih =>
      obtain ⟨g₁, hg₁, ht₁⟩ := ih
      obtain ⟨g₂, hg₂, ht₂⟩ := hg₁.step hstep
      exact ⟨g₂, hg₂, ht₂.trans ht₁⟩

/-! ## Frames -/

section Frames

variable {s : Stream} {items : List Payload} {f : Frame}

/-- END or RST on an open stream. -/
theorem Base.terminal (hb : Base limit s true items none)
    (hk : f.kind = .kindEnd ∨ f.kind = .kindRst) :
    (s.onFrame false f).leaves = true ∧
      Base limit (s.onFrame false f).stream false items (some (.frame f)) ∧
      (s.onFrame false f).stream.recvItems = s.recvItems := by
  have hended : ¬ s.ended = true := by simp [hb.ended]
  have hon : s.onFrame false f = .removed { s with endFrame := some f, ended := true } := by
    rcases hk with h | h <;> simp [Stream.onFrame, h, Stream.signalEnd, hended]
  rw [hon]
  refine ⟨rfl, ?_, rfl⟩
  refine
    { hb with
      ended := rfl
      registered := rfl
      ctx := fun h => by cases h
      fresh := fun h => by cases h
      frame := ?_
      overflowed := fun h => by cases h
      trailer := ?_ }
  · rintro f' ⟨⟩
    exact ⟨rfl, hk⟩
  · refine hb.trailer.imp_right ?_
    rintro ⟨f', hf', -⟩
    cases hf'

/-- A message that fits. -/
theorem Base.message (hb : Base limit s true items none) (hk : f.kind = .kindMsg)
    (hfit : ¬ limit < bytes items) :
    (s.onFrame false f).leaves = false ∧
      Base limit (s.onFrame false f).stream true (items ++ [f.payload]) none ∧
      (s.onFrame false f).stream.recvItems = s.recvItems ++ [f] ∧
      (s.onFrame false f).stream.recvSignal = true := by
  have hctx : ¬ s.ctxErr.isSome = true := by simp [hb.ctx rfl]
  have hfull : ¬ (s.recvItems ≠ [] ∧ s.maxRecvBytes < s.recvBytes) := by
    rw [hb.limit, hb.recvBytes]
    exact fun h => hfit h.2
  have hon : s.onFrame false f = .kept (Stream.signalRecv { s with
      recvItems := s.recvItems ++ [f], recvBytes := s.recvBytes + f.payload.length }) := by
    simp only [Stream.onFrame, hk, Stream.tryDeliver, Stream.deliver, if_neg hctx, if_neg hfull]
  rw [hon]
  refine ⟨rfl, { hb with backlog := ?_, recvBytes := ?_ }, rfl, rfl⟩
  · show (s.recvItems ++ [f]).map Frame.payload = _
    rw [List.map_append, hb.backlog]
    rfl
  · show s.recvBytes + f.payload.length = _
    rw [hb.recvBytes, bytes_append, bytes_cons, bytes_nil, add_zero]

/-- A message that does not fit. -/
theorem Base.overflow (hb : Base limit s true items none) (hk : f.kind = .kindMsg)
    (hover : limit < bytes items) :
    (s.onFrame false f).leaves = true ∧
      Base limit (s.onFrame false f).stream false items (some .overflow) ∧
      (s.onFrame false f).stream.recvItems = s.recvItems := by
  have hctx : ¬ s.ctxErr.isSome = true := by simp [hb.ctx rfl]
  have hne : s.recvItems ≠ [] := by
    intro hnil
    have hitems := hb.backlog
    rw [hnil] at hitems
    rw [← hitems, List.map_nil, bytes_nil] at hover
    exact absurd hover (not_lt.2 hb.pos.le)
  have hfull : s.recvItems ≠ [] ∧ s.maxRecvBytes < s.recvBytes := by
    rw [hb.limit, hb.recvBytes]
    exact ⟨hne, hover⟩
  have hon : s.onFrame false f = .overflowed (s.failWith (some overflowErr)) := by
    simp only [Stream.onFrame, hk, Stream.tryDeliver, Stream.deliver, if_neg hctx, if_pos hfull]
  rw [hon]
  refine ⟨rfl, ?_, rfl⟩
  refine
    { hb with
      ended := rfl
      registered := rfl
      ctx := fun h => by cases h
      fresh := fun h => by cases h
      frame := fun f' h => by cases h
      overflowed := fun _ => ⟨hb.fresh rfl, rfl⟩
      trailer := hb.trailer.imp_right ?_ }
  rintro ⟨f', hf', -⟩
  cases hf'

/-- The other frames. -/
theorem Base.other (hb : Base limit s true items none)
    (hk : f.kind = .kindHeader ∨ f.kind = .kindWindowUpdate) :
    (s.onFrame false f).leaves = false ∧ Base limit (s.onFrame false f).stream true items none ∧
      (s.onFrame false f).stream.recvItems = s.recvItems := by
  rcases hk with hk | hk
  · have hon : s.onFrame false f = .kept (s.setLeadingHeader f.headers) := by
      simp [Stream.onFrame, hk]
    rw [hon]
    exact ⟨rfl, { hb with }, rfl⟩
  · have hon : s.onFrame false f = .kept (s.creditSend f.window.toNat) := by
      simp [Stream.onFrame, hk]
    rw [hon]
    simp only [Routed.leaves, Routed.stream, Stream.creditSend]
    split_ifs
    · exact ⟨trivial, hb, rfl⟩
    · exact ⟨trivial, { hb with }, rfl⟩

end Frames

/-! ## Events -/

/-- Between two events: parked receivers mean that nothing is buffered. -/
theorem Going.quiet (hy : Going limit y g) (hq : y.Quiet) :
    Base limit y.x.stream y.x.registered g.buffered g.outcome ∧
      (y.parked = 0 ∨ y.x.stream.recvItems = [] ∧ g.buffered = [] ∧ g.outcome = none) := by
  obtain ⟨hidle, hrest⟩ := hq
  have hb := hy.stands
  simp only [Stands, hidle] at hb
  refine ⟨hb, ?_⟩
  rcases Nat.eq_zero_or_pos y.parked with hk | hk
  · exact Or.inl hk
  · have hready := hrest.resolve_left (by omega)
    simp only [Receivers.ready, Bool.or_eq_false_iff] at hready
    obtain ⟨⟨⟨⟨hsig, -⟩, hended⟩, -⟩, -⟩ := hready
    have hnil : y.x.stream.recvItems = [] := by
      rcases hy.woken hk with h | ⟨-, h | h⟩
      · exact h
      · rw [hsig] at h
        cases h
      · rw [hidle] at h
        cases h
    refine Or.inr ⟨hnil, ?_, ?_⟩
    · rw [← hb.backlog, hnil]
      rfl
    · rw [hb.ended] at hended
      simpa using hended

/-- Between two events the receives under way are the parked ones. -/
theorem total_quiet (hq : y.Quiet) : total y g = { g with pulls := g.pulls + y.parked } := by
  simp only [total, active, if_pos hq.1, add_zero]

theorem Going.total_buffered (hy : Going limit y g) (hq : y.Quiet) :
    (total y g).buffered = g.buffered := by
  rw [total_quiet hq]
  rcases (hy.quiet hq).2 with hk | ⟨-, hbuf, -⟩
  · rw [hk]
    rfl
  · rw [hbuf, Mailbox.buffered_eq_nil_iff]
    rw [Mailbox.buffered_eq_nil_iff] at hbuf
    show g.accepted.length ≤ g.pulls + y.parked
    omega

/-- **What the receivers have returned**, between two events. -/
theorem Going.results_total (hy : Going limit y g) (hq : y.Quiet) :
    y.x.results = (total y g).results.map toResult := by
  rw [hy.results, total_quiet hq]
  rcases (hy.quiet hq).2 with hk | ⟨-, hbuf, hout⟩
  · rw [hk]
    rfl
  · rw [Mailbox.buffered_eq_nil_iff] at hbuf
    have hle : g.accepted.length ≤ g.pulls + y.parked := by omega
    simp only [Mailbox.results, hout, List.take_of_length_le hbuf, List.take_of_length_le hle,
      Option.map_none]

/-- A receive call begins. -/
theorem Going.call (hy : Going limit y g) (hq : y.Quiet) :
    ∃ g', Going limit (y.begin .recv) g' ∧
      total (y.begin .recv) g' = Inbox.step limit (total y g) .recv := by
  obtain ⟨hb, hk⟩ := hy.quiet hq
  refine ⟨g, ⟨hy.client, rfl, hy.unparked, hy.results, hb, ?_, hy.observed⟩, ?_⟩
  · intro hpos
    rcases hk with h | ⟨h, -⟩
    · exact absurd h (Nat.ne_of_gt hpos)
    · exact Or.inl h
  · rw [total_quiet hq]
    rfl

/-- A frame for a stream that has ended. -/
theorem Going.frame_finished (hy : Going limit y g) (hq : y.Quiet) (ho : g.outcome.isSome)
    (f : Frame) : y.begin (.frame f) = y ∧
      total y g = Inbox.step limit (total y g) (.frame f) := by
  have hreg : ¬ y.x.registered = true := by
    rw [(hy.quiet hq).1.registered]
    simpa [Option.isSome_iff_ne_none] using ho
  refine ⟨?_, (Inbox.step_of_finished (h := total y g) ho f).symm⟩
  simp only [Receivers.begin, Receivers.route, if_neg hreg]

/-- A frame for an open stream, given what it makes of the stream. -/
theorem Going.frame_open (hy : Going limit y g) (hq : y.Quiet) {f : Frame}
    {g' : Mailbox Payload Cause} (hbey : g'.beyond = 0) (hpark : g'.parked = 0)
    (hres : g'.results = g.results) (ho : g.outcome = none)
    (hbase : Base limit (y.x.stream.onFrame false f).stream
      (!(y.x.stream.onFrame false f).leaves) g'.buffered g'.outcome)
    (hitems : y.x.stream.recvItems = [] → (y.x.stream.onFrame false f).stream.recvItems = [] ∨
      (y.x.stream.onFrame false f).stream.recvItems.length = 1 ∧
        (y.x.stream.onFrame false f).stream.recvSignal = true) :
    Going limit (y.begin (.frame f)) g' := by
  obtain ⟨hb, hk⟩ := hy.quiet hq
  have hreg : y.x.registered = true := by rw [hb.registered, ho]; rfl
  have hx : (y.begin (.frame f)).x = { y.x with
      stream := (y.x.stream.onFrame false f).stream
      registered := !(y.x.stream.onFrame false f).leaves } := by
    simp only [Receivers.begin, Receivers.route, if_pos hreg, hy.client]
  have hidle : (y.begin (.frame f)).x.recv = .idle := by
    rw [hx]
    exact hq.1
  refine ⟨?_, ?_, hpark, ?_, ?_, ?_, ?_⟩
  · rw [hx]
    exact hy.client
  · rw [hx]
    exact hy.caller
  · rw [hx, hres]
    exact hy.results
  · rw [Stands, hidle, hx]
    exact hbase
  · intro hpos
    rw [hx]
    rcases hk with h | ⟨h, -⟩
    · exact absurd h (Nat.ne_of_gt hpos)
    · exact (hitems h).imp_right (And.imp_right Or.inl)
  · intro hg
    rw [hbey] at hg
    exact absurd hg (lt_irrefl 0)

/-- **A frame is a step of the mailbox.** -/
theorem Going.frame (hy : Going limit y g) (hq : y.Quiet) {f : Frame} (hf : Addressed f) :
    ∃ g', Going limit (y.begin (.frame f)) g' ∧
      total (y.begin (.frame f)) g' = Inbox.step limit (total y g) (.frame f) := by
  cases ho : g.outcome with
  | some c =>
      obtain ⟨hbegin, htotal⟩ := hy.frame_finished hq (by rw [ho]; rfl) f
      rw [hbegin, ← htotal]
      exact ⟨g, hy, rfl⟩
  | none =>
      obtain ⟨hb, -⟩ := hy.quiet hq
      have hreg : y.x.registered = true := by rw [hb.registered, ho]; rfl
      rw [ho, hreg] at hb
      have hbey : g.beyond = 0 := (Mailbox.parked_of_none ho).symm.trans hy.unparked
      have htotal : ∀ g', total (y.begin (.frame f)) g' = { g' with pulls := g'.pulls + y.parked } := by
        intro g'
        have hidle : (y.begin (.frame f)).x.recv = .idle := by
          simp only [Receivers.begin, Receivers.route]
          split <;> exact hq.1
        simp only [total, active, if_pos hidle, add_zero]
        rfl
      simp only [Inbox.step, hy.total_buffered hq]
      simp only [htotal, total_quiet hq]
      cases hk : f.kind with
      | kindMsg =>
          by_cases hover : limit < bytes g.buffered
          · obtain ⟨hleaves, hbase, hitems⟩ := hb.overflow hk hover
            obtain ⟨hout, hres, hpark⟩ := g.finish_of_none .overflow ho
            refine ⟨g.finish .overflow, ?_, ?_⟩
            · refine hy.frame_open hq hbey hpark ?_ ho ?_ ?_
              · rw [hres, hy.unparked, List.replicate_zero, List.append_nil]
              · rw [hleaves, hout]
                exact hbase
              · exact fun h => Or.inl (hitems.trans h)
            · rw [if_pos hover]
              rfl
          · obtain ⟨hleaves, hbase, hitems, hsig⟩ := hb.message hk hover
            obtain ⟨hbuf, hres, hpark⟩ := g.push_unparked f.payload ho hy.unparked
            refine ⟨g.push f.payload, ?_, ?_⟩
            · refine hy.frame_open hq ?_ hpark hres ho ?_ ?_
              · rw [← hpark, Mailbox.parked_of_none (by rw [Mailbox.push_outcome, ho])]
                rfl
              · rw [hleaves, hbuf, Mailbox.push_outcome, ho]
                exact hbase
              · intro h
                rw [hitems, h]
                exact Or.inr ⟨rfl, hsig⟩
            · rw [if_neg hover, Mailbox.push_of_none _ ho, Mailbox.push_of_none _ (by exact ho)]
      | kindEnd | kindRst =>
          obtain ⟨hleaves, hbase, hitems⟩ := hb.terminal (f := f) (by simp [hk])
          obtain ⟨hout, hres, hpark⟩ := g.finish_of_none (.frame f) ho
          refine ⟨g.finish (.frame f), ?_, rfl⟩
          refine hy.frame_open hq hbey hpark ?_ ho ?_ ?_
          · rw [hres, hy.unparked, List.replicate_zero, List.append_nil]
          · rw [hleaves, hout]
            exact hbase
          · exact fun h => Or.inl (hitems.trans h)
      | kindHeader | kindWindowUpdate =>
          obtain ⟨hleaves, hbase, hitems⟩ := hb.other (f := f) (by simp [hk])
          refine ⟨g, ?_, rfl⟩
          refine hy.frame_open hq hbey hy.unparked rfl ho ?_ ?_
          · rw [hleaves, ho]
            exact hbase
          · exact fun h => Or.inl (hitems.trans h)
      | _ =>
          have hin := hf.2
          rw [hk] at hin
          cases hin

theorem Going.begin (hy : Going limit y g) (hq : y.Quiet) {e : Event}
    (he : ∀ f, e = .frame f → Addressed f) :
    ∃ g', Going limit (y.begin e) g' ∧ total (y.begin e) g' = Inbox.step limit (total y g) e := by
  cases e with
  | frame f => exact hy.frame hq (he f rfl)
  | recv => exact hy.call hq

/-- **However the receivers run**, the mailbox of the receives says what there is. -/
theorem Going.runsAll {evs : List Event} : ∀ {y : Receivers} {g : Mailbox Payload Cause},
    Going limit y g → y.Quiet → y.RunsAll evs y' → (∀ f, .frame f ∈ evs → Addressed f) →
    ∃ g', Going limit y' g' ∧ y'.Quiet ∧
      total y' g' = evs.foldl (Inbox.step limit) (total y g) := by
  induction evs with
  | nil =>
      intro y g hy hq hrun _
      cases hrun
      exact ⟨g, hy, hq, rfl⟩
  | cons e evs ih =>
      intro y g hy hq hrun hevs
      obtain ⟨y₁, ⟨hreach, hq₁⟩, hrun⟩ := hrun
      obtain ⟨g₀, hg₀, ht₀⟩ := hy.begin hq fun f hf => hevs f (hf ▸ List.mem_cons_self)
      obtain ⟨g₁, hg₁, ht₁⟩ := hg₀.reach hreach
      obtain ⟨g', hg', hq', ht'⟩ := ih hg₁ hq₁ hrun fun f hf => hevs f (List.mem_cons_of_mem e hf)
      refine ⟨g', hg', hq', ?_⟩
      rw [ht', ht₁, ht₀, List.foldl_cons]

/-! ## Coming to rest -/

/-- How far a receiver is from returning, its `select` apart. -/
def rank : RecvPc → ℕ
  | .idle | .pop => 7
  | .select => 6
  | .ctxEnded _ => 5
  | .endedPop | .ctxPop _ | .halfPop => 4
  | .endedFrame => 3
  | .endedStatus | .record _ => 2
  | .cancel _ | .deliver _ => 1

/-- A receive that returns outweighs a token, a token outweighs the way to the
`select`. -/
def weight (x : Inbound) : ℕ := 16 * active x + 8 * x.stream.recvSignal.toNat + rank x.recv

theorem rank_pos (pc : RecvPc) : 0 < rank pc := by
  cases pc <;> simp [rank]

theorem rank_le (pc : RecvPc) : rank pc ≤ 7 := by
  cases pc <;> simp [rank]

/-- The receiver returns or moves on, and the token stays. -/
theorem weight_goto {x x' : Inbound} (hact : x.recv ≠ .idle)
    (hsig : x'.stream.recvSignal = x.stream.recvSignal)
    (hlt : x'.recv = .idle ∨ rank x'.recv < rank x.recv) : weight x' < weight x := by
  have hone : active x = 1 := if_neg hact
  have hpos := rank_pos x.recv
  rw [weight, weight, hsig, hone]
  rcases hlt with h | h
  · have hzero : active x' = 0 := if_pos h
    have := rank_le x'.recv
    omega
  · have hle : active x' ≤ 1 := by rw [active]; split <;> decide
    omega

theorem weight_popOr {x otherwise : Inbound} (hact : x.recv ≠ .idle) (hrank : 1 < rank x.recv)
    (ho : weight otherwise < weight x) : weight (x.popOr otherwise) < weight x := by
  rw [Inbound.popOr]
  cases hpop : x.stream.popRecv with
  | none => exact ho
  | some r =>
      refine weight_goto hact ?_ (Or.inr hrank)
      rw [Stream.popRecv] at hpop
      split at hpop
      · cases hpop
      · cases hpop
        rfl

/-- Every step outside the `select` comes closer to the return. -/
theorem exists_recvStep {x : Inbound} (hidle : x.recv ≠ .idle) (hselect : x.recv ≠ .select) :
    ∃ x', x.recvStep = some x' ∧ weight x' < weight x := by
  have hgoto : ∀ {x' : Inbound}, x'.stream.recvSignal = x.stream.recvSignal →
      (x'.recv = .idle ∨ rank x'.recv < rank x.recv) → weight x' < weight x :=
    weight_goto hidle
  simp only [Inbound.recvStep]
  cases hpc : x.recv with
  | idle => exact absurd hpc hidle
  | select => exact absurd hpc hselect
  | pop =>
      refine ⟨_, rfl, weight_popOr hidle (by simp [hpc, rank]) (hgoto rfl ?_)⟩
      exact Or.inr (by simp [hpc, rank])
  | halfPop =>
      refine ⟨_, rfl, weight_popOr hidle (by simp [hpc, rank]) (hgoto rfl (Or.inl rfl))⟩
  | ctxPop e =>
      refine ⟨_, rfl, weight_popOr hidle (by simp [hpc, rank]) (hgoto rfl (Or.inl rfl))⟩
  | endedPop =>
      refine ⟨_, rfl, weight_popOr hidle (by simp [hpc, rank]) (hgoto rfl ?_)⟩
      exact Or.inr (by simp [hpc, rank])
  | endedFrame =>
      cases x.stream.endFrame with
      | none => exact ⟨_, rfl, hgoto rfl (Or.inr (by simp [hpc, rank]))⟩
      | some f =>
          by_cases hk : f.kind = .kindEnd ∨ f.kind = .kindRst
          · simp only [if_pos hk]
            exact ⟨_, rfl, hgoto rfl (Or.inr (by simp [hpc, rank]))⟩
          · simp only [if_neg hk]
            exact ⟨_, rfl, hgoto rfl (Or.inl rfl)⟩
  | endedStatus => exact ⟨_, rfl, hgoto rfl (Or.inl rfl)⟩
  | record f => exact ⟨_, rfl, hgoto rfl (Or.inr (by simp [hpc, rank]))⟩
  | cancel f => exact ⟨_, rfl, hgoto rfl (Or.inl rfl)⟩
  | ctxEnded e =>
      refine ⟨_, rfl, hgoto rfl (Or.inr ?_)⟩
      rw [hpc]
      show rank (if x.stream.ended then .endedPop else .ctxPop e) < 5
      split <;> simp [rank]
  | deliver f =>
      refine ⟨_, rfl, hgoto ?_ (Or.inl rfl)⟩
      obtain ⟨c, hc⟩ := x.stream.returnCredit_fst f.payload.length
      show (x.stream.returnCredit f.payload.length).1.recvSignal = _
      rw [hc]

/-- A receiver in its `select` finds a case ready, or parks. -/
theorem Going.exists_select (hy : Going limit y g) (hpc : y.x.recv = .select)
    (hready : Receivers.ready y.x = true) :
    ∃ c x', y.x.selectStep c = some x' ∧ weight x' < weight y.x := by
  have hb := hy.stands
  simp only [Stands, hpc] at hb
  have hidle : y.x.recv ≠ .idle := by rw [hpc]; simp
  simp only [Receivers.ready, hb.1.half, hy.caller, Option.isSome_none, Bool.or_false,
    Bool.or_eq_true] at hready
  rcases hready with (hsig | hended) | hctx
  · refine ⟨.recvSignal, _, if_pos hsig, ?_⟩
    have hone : active y.x = 1 := if_neg hidle
    show 16 * 1 + 8 * 0 + 7 < weight y.x
    rw [weight, hone, hsig, hpc]
    decide
  · exact ⟨.ended, _, if_pos hended, weight_goto hidle rfl (Or.inr (by simp [hpc, rank]))⟩
  · obtain ⟨e, he⟩ := Option.isSome_iff_exists.1 hctx
    refine ⟨.ctxDone, { y.x with recv := .ctxEnded e }, ?_, ?_⟩
    · simp only [Inbound.selectStep, he, Option.map_some]
    · exact weight_goto hidle rfl (Or.inr (by simp [hpc, rank]))

/-- The receivers are at rest, or one of them can go on. -/
theorem Going.exists_step (hy : Going limit y g) :
    y.Quiet ∨ ∃ a y', y.step a = some y' ∧
      (y'.Quiet ∨ 16 * y'.parked + weight y'.x < 16 * y.parked + weight y.x) := by
  by_cases hidle : y.x.recv = .idle
  · by_cases hk : 0 < y.parked ∧ Receivers.ready y.x = true
    · refine Or.inr ⟨.wake, _, if_pos ⟨hidle, hk⟩, Or.inr ?_⟩
      have hzero : weight y.x = 8 * y.x.stream.recvSignal.toNat + 7 := by
        rw [weight, active, if_pos hidle, hidle, mul_zero, zero_add]
        rfl
      show 16 * (y.parked - 1) + (16 * 1 + 8 * y.x.stream.recvSignal.toNat + 6) < _
      omega
    · refine Or.inl ⟨hidle, ?_⟩
      rcases Nat.eq_zero_or_pos y.parked with h | h
      · exact Or.inl h
      · exact Or.inr (Bool.eq_false_iff.2 fun hr => hk ⟨h, hr⟩)
  · right
    by_cases hpc : y.x.recv = .select
    · cases hready : Receivers.ready y.x with
      | true =>
          obtain ⟨c, x', hx', hlt⟩ := hy.exists_select hpc hready
          refine ⟨.select c, { y with x := x' }, ?_, Or.inr (Nat.add_lt_add_left hlt _)⟩
          simp only [Receivers.step, if_pos hpc, hx', Option.map_some]
      | false => exact ⟨.park, _, if_pos ⟨hpc, hready⟩, Or.inl ⟨rfl, Or.inr hready⟩⟩
    · obtain ⟨x', hx', hlt⟩ := exists_recvStep hidle hpc
      refine ⟨.recv, { y with x := x' }, ?_, Or.inr (Nat.add_lt_add_left hlt _)⟩
      simp only [Receivers.step, hx', Option.map_some]

/-- **Every event comes to rest.** -/
theorem Going.exists_quiet (hy : Going limit y g) :
    ∃ y', Reach Receivers.step Always y y' ∧ y'.Quiet := by
  refine exists_rest (P := fun y => ∃ g, Going limit y g)
    (fun y => 16 * y.parked + weight y.x) ?_ ⟨g, hy⟩
  rintro y ⟨g, hy⟩
  refine hy.exists_step.imp_right ?_
  rintro ⟨a, y', hstep, h⟩
  obtain ⟨g', hg', -⟩ := hy.step hstep
  exact ⟨a, y', trivial, hstep, ⟨g', hg'⟩, h⟩

theorem Going.exists_runsAll {evs : List Event} : ∀ {y : Receivers} {g : Mailbox Payload Cause},
    Going limit y g → y.Quiet → (∀ f, .frame f ∈ evs → Addressed f) → ∃ y', y.RunsAll evs y' := by
  induction evs with
  | nil =>
      intro y g _ _ _
      exact ⟨y, rfl⟩
  | cons e evs ih =>
      intro y g hy hq hevs
      obtain ⟨g₀, hg₀, -⟩ := hy.begin hq fun f hf => hevs f (hf ▸ List.mem_cons_self)
      obtain ⟨y₁, hreach, hq₁⟩ := hg₀.exists_quiet
      obtain ⟨g₁, hg₁, -⟩ := hg₀.reach hreach
      obtain ⟨y', hrun⟩ := ih hg₁ hq₁ fun f hf => hevs f (List.mem_cons_of_mem e hf)
      exact ⟨y', y₁, ⟨hreach, hq₁⟩, hrun⟩

/-! ## A fresh stream -/

theorem going_start (method : Text) (W : ℤ) :
    Going (windowOr W) (Receivers.start method W) {} where
  client := rfl
  caller := rfl
  unparked := rfl
  results := rfl
  stands :=
    { pos := windowOr_pos W
      backlog := rfl
      recvBytes := rfl
      limit := rfl
      half := rfl
      ended := rfl
      registered := rfl
      ctx := fun _ => rfl
      fresh := fun _ => rfl
      frame := fun f h => by cases h
      overflowed := fun h => by cases h
      trailer := Or.inl rfl }
  woken := fun h => absurd h (lt_irrefl 0)
  observed := fun h => absurd h (lt_irrefl 0)

theorem quiet_start (method : Text) (W : ℤ) : (Receivers.start method W).Quiet :=
  ⟨rfl, Or.inl rfl⟩

/-- The trailers, once a receive has returned the outcome. -/
theorem Going.trailers (hy : Going limit y g) (hq : y.Quiet) {c : Cause}
    (hc : (total y g).outcome = some c) (hbey : 0 < (total y g).beyond) :
    y.x.stream.trailer.getD ∅ = c.trailers := by
  obtain ⟨hb, hk⟩ := hy.quiet hq
  rw [total_quiet hq] at hc hbey
  have hc : g.outcome = some c := hc
  rcases hk with hk | ⟨-, -, hnone⟩
  · rw [hk] at hbey
    cases c with
    | frame f => rw [hy.observed hbey f hc, Cause.trailers]
    | overflow =>
        rcases hb.trailer with h | ⟨f, hf, -⟩
        · rw [h]
          rfl
        · rw [hc] at hf
          cases hf
  · rw [hc] at hnone
    cases hnone

section Runs

variable (method : Text) (W : ℤ) {evs : List Event} (hevs : ∀ f, .frame f ∈ evs → Addressed f)

include hevs

/-- **What a Go client receives.**  However its receivers run, the results are those of
the mailbox, and so are the trailers once the outcome has been returned. -/
theorem reads_runs (hrun : (Receivers.start method W).RunsAll evs y') :
    y'.x.results = (evs.foldl (Inbox.step (windowOr W)) {}).results.map toResult ∧
      ∀ c, (evs.foldl (Inbox.step (windowOr W)) {}).outcome = some c →
        0 < (evs.foldl (Inbox.step (windowOr W)) {}).beyond →
        y'.x.stream.trailer.getD ∅ = c.trailers := by
  obtain ⟨g, hg, hq, ht⟩ := (going_start method W).runsAll (quiet_start method W) hrun hevs
  rw [show total (Receivers.start method W) {} = {} from rfl] at ht
  rw [← ht]
  exact ⟨hg.results_total hq, fun c hc hbey => hg.trailers hq hc hbey⟩

theorem exists_runs : ∃ y', (Receivers.start method W).RunsAll evs y' :=
  (going_start method W).exists_runsAll (quiet_start method W) hevs

end Runs

end WsProto.Go
