import WsProto.Lib.Broadcast
import WsProto.Ts.Transport.Steady

/-!
# The state listeners of a transport

`setState` calls a snapshot of the listeners, and a listener may call the transport back.
Each function of the transport is cut where it calls `setState`: every one ends there, but
`dial`, which goes on to arm the dial timeout.

* `begin`, `finish` — the two parts; `begin_finish` checks the cut against the model of the
  transport: without listeners they make up its step.  The results below are about the parts
  and do not go through it;
* `Listened.step` — the transport with its listeners, over the hub of `Broadcast`; what a
  listener does inside its callback is up to the world;
* `listeners_current` — the listeners end up with the current state, and learn of the states
  in their order, in every run in which a callback that changes the state is the last of
  every walk it is in;
* `stale_state_last` — a listener that closes the transport leaves the next one with the
  state before.

A callback comes after the method of the mux that caused it, as in the model of the
transport.  A recursion of listeners without an end is a run that never comes to rest.
-/

namespace WsProto.Ts.Transport

open Machine Broadcast

variable {size : Frame → ℕ} {o : Options} {x y : Transport} {l : Label}

/-! ## The functions, up to `setState` -/

/-- What is left of a function of the transport. -/
inductive Todo where
  /-- Nothing; it has not called `setState`. -/
  | done
  /-- The listeners, in `setState`. -/
  | tell
  /-- The listeners, and then the dial timeout. -/
  | tellAndArm
  deriving DecidableEq

/-- A function of the transport that has come to its `setState`, or to its end. -/
structure Partway where
  x : Transport
  todo : Todo
  deriving DecidableEq

section Begin

variable (size : Frame → ℕ) (o : Options)

/-- `dial`, up to the `setState` in `attach`. -/
def beginDial (x : Transport) (ws : Socket) : Partway :=
  ⟨(x.clearTimer .retryTimer).attach o ws, .tellAndArm⟩

/-- `dial`, after `attach`: the timeout is for the mux of now. -/
def armDial (x : Transport) : Transport :=
  if x.phase = .connecting ∧ 0 < o.dialTimeoutMs then
    { x.setTimeout o.dialTimeoutMs (.dial (x.current.getD 0)) with dialTimer := some x.nextTimer }
  else x

/-- `pause`. -/
def beginPause (x : Transport) : Partway :=
  ⟨x.pause o,
    if x.closed || !o.dials || x.paused then .done
    else if x.phase = .waiting ∨ x.phase = .connecting then .tell else .done⟩

/-- `resume`. -/
def beginResume (x : Transport) (ws : Socket) : Partway :=
  if x.closed || !x.paused then ⟨x, .done⟩
  else
    let x := { x with paused := false, attempt := 0 }
    if x.phase = .paused then x.beginDial o ws else ⟨x, .done⟩

/-- `retryNow`. -/
def beginRetryNow (x : Transport) (ws : Socket) : Partway :=
  if x.closed || x.paused || !o.dials then ⟨x, .done⟩
  else
    match x.phase with
    | .waiting | .disconnected _ => x.beginDial o ws
    | _ => ⟨x, .done⟩

/-- `close`. -/
def beginClose (x : Transport) : Partway := ⟨x.close, if x.closed then .done else .tell⟩

/-- A timer fires. -/
def beginTimer (x : Transport) (id : ℕ) (ws : Socket) (random : ℕ) : Option Partway :=
  (x.timers.find? fun t => t.id = id).map fun t =>
    let x := { x with timers := x.timers.filter fun t => t.id ≠ id }
    match t.callback with
    | .retry => x.beginDial o ws
    | .dial i =>
        ⟨({ x with dialTimer := none }.closeMux i dialTimeout).afterDrop o dialTimeout true random,
          .tell⟩
    | .stable => ⟨{ x with stableTimer := none, attempt := 0 }, .done⟩

/-- An event of mux `i` comes to `onOpen` or `afterDrop` if it is the current mux. -/
def beginMux (x : Transport) (i : ℕ) (a : Ledger.Act) (random : ℕ) : Option Partway :=
  (x.conns[i]?).bind fun c =>
    (Ledger.call size c.mux a).map fun y =>
      let x := x.setConn i { c with mux := y.1 }
      match notice c.mux a y.1 with
      | none => ⟨x, .done⟩
      | some n =>
          ⟨x.notify o i n random,
            if c.lifecycle = true ∧ x.current = some i then .tell else .done⟩

/-- A step of the transport, up to its `setState`. -/
def begin (x : Transport) (l : Label) : Option Partway :=
  match l.act with
  | .pause => some (x.beginPause o)
  | .resume => some (x.beginResume o l.socket)
  | .retryNow => some (x.beginRetryNow o l.socket)
  | .close => some x.beginClose
  | .openStream method headers aborted =>
      match x.current with
      | none => some ⟨x, .done⟩
      | some i => x.beginMux size o i (.openStream method headers aborted) l.random
  | .fire id => x.beginTimer o id l.socket l.random
  | .mux i a => if outside a then x.beginMux size o i a l.random else none

/-- What is left of a step when nobody listens. -/
def Partway.finish (p : Partway) : Transport :=
  match p.todo with
  | .tellAndArm => p.x.armDial o
  | _ => p.x

end Begin

/-! ## The parts together -/

theorem armDial_attach (x : Transport) (ws : Socket) :
    ((x.clearTimer .retryTimer).attach o ws).armDial o = x.dial o ws := by
  have hcur : ((x.clearTimer .retryTimer).attach o ws).current = some x.conns.length := by
    unfold attach onOpen
    dsimp only
    split_ifs <;> rfl
  unfold armDial dial
  rw [hcur]
  rfl

theorem beginDial_finish (x : Transport) (ws : Socket) :
    (x.beginDial o ws).finish o = x.dial o ws := armDial_attach x ws

theorem Partway.finish_of_ne {p : Partway} (h : p.todo ≠ .tellAndArm) : p.finish o = p.x := by
  unfold Partway.finish
  split
  · contradiction
  · rfl

theorem beginMux_finish (i : ℕ) (a : Ledger.Act) (random : ℕ) :
    (x.beginMux size o i a random).map (Partway.finish o) = x.onMux size o i a random := by
  unfold beginMux onMux
  cases x.conns[i]? with
  | none => rfl
  | some c =>
      rw [Option.bind_some, Option.bind_some, Option.map_map]
      congr 1
      funext y
      dsimp only [Function.comp]
      cases notice c.mux a y.1 with
      | none => rfl
      | some n =>
          refine Partway.finish_of_ne ?_
          dsimp only
          split_ifs <;> decide

/-- **Without listeners the two parts are a step of the transport.** -/
theorem begin_finish (x : Transport) (l : Label) :
    (x.begin size o l).map (Partway.finish o) = x.step size o l := by
  unfold begin step
  cases hact : l.act with
  | pause =>
      refine congrArg some (Partway.finish_of_ne ?_)
      unfold beginPause
      dsimp only
      split_ifs <;> decide
  | resume =>
      refine congrArg some ?_
      unfold beginResume resume
      split_ifs
      · rfl
      · dsimp only
        split_ifs
        · exact beginDial_finish _ _
        · rfl
  | retryNow =>
      refine congrArg some ?_
      unfold beginRetryNow retryNow
      split_ifs
      · rfl
      · cases x.phase with
        | waiting | disconnected => exact beginDial_finish _ _
        | paused | connecting | connected | closed => rfl
  | close =>
      refine congrArg some (Partway.finish_of_ne ?_)
      unfold beginClose
      dsimp only
      split_ifs <;> decide
  | fire id =>
      dsimp only
      unfold beginTimer onTimer
      rw [Option.map_map]
      congr 1
      funext t
      dsimp only [Function.comp]
      cases t.callback with
      | retry => exact beginDial_finish _ _
      | dial i => rfl
      | stable => rfl
  | openStream method headers aborted =>
      dsimp only
      cases x.current with
      | none => rfl
      | some i => exact beginMux_finish i _ _
  | mux i a =>
      dsimp only
      split_ifs
      · exact beginMux_finish i a _
      · rfl

/-! ## The phase is set by `setState` only -/

theorem armDial_phase (x : Transport) : (x.armDial o).phase = x.phase := by
  unfold armDial
  split_ifs <;> rfl

theorem beginPause_phase (h : (x.beginPause o).todo = .done) :
    (x.beginPause o).x.phase = x.phase := by
  unfold beginPause at h ⊢
  dsimp only at h ⊢
  unfold pause
  split_ifs at h ⊢ with hskip hphase
  · rfl
  · dsimp only
    split
    · rename_i hw
      exact absurd (.inl hw) hphase
    · rename_i hc
      exact absurd (.inr hc) hphase
    · rfl

theorem beginMux_phase {i : ℕ} {a : Ledger.Act} {random : ℕ} {p : Partway}
    (hp : x.beginMux size o i a random = some p) (h : p.todo = .done) : p.x.phase = x.phase := by
  obtain ⟨c, hc, hp⟩ := Option.bind_eq_some_iff.1 hp
  obtain ⟨z, -, rfl⟩ := Option.map_eq_some_iff.1 hp
  dsimp only at h ⊢
  cases hn : notice c.mux a z.1 with
  | none => rfl
  | some n =>
      simp only [hn] at h ⊢
      have hno : ¬ (c.lifecycle = true ∧ x.current = some i) := by
        intro hboth
        have hboth' : c.lifecycle = true ∧
            (x.setConn i { mux := z.1, lifecycle := c.lifecycle }).current = some i := hboth
        rw [if_pos hboth'] at h
        cases h
      have hself : (x.setConn i { c with mux := z.1 }).conns[i]? = some { c with mux := z.1 } :=
        setConn_get_self hc
      cases n with
      | opened =>
          rw [notify_opened_eq hself]
          split_ifs with hboth
          · exact absurd hboth hno
          · rfl
      | drop err redial =>
          rw [notify_drop_eq hself]
          split_ifs with hl hcur
          · exact absurd ⟨hl, hcur⟩ hno
          · rfl
          · rfl

/-- A step that tells nobody leaves the phase. -/
theorem begin_phase {p : Partway} (hp : x.begin size o l = some p) (h : p.todo = .done) :
    p.x.phase = x.phase := by
  unfold begin at hp
  cases hact : l.act with
  | pause =>
      rw [hact] at hp
      cases hp
      exact beginPause_phase h
  | resume =>
      rw [hact] at hp
      cases hp
      unfold beginResume at h ⊢
      dsimp only at h ⊢
      split_ifs at h ⊢
      · rfl
      · cases h
      · rfl
  | retryNow =>
      rw [hact] at hp
      cases hp
      unfold beginRetryNow at h ⊢
      split_ifs at h ⊢
      · rfl
      · cases hphase : x.phase with
        | waiting | disconnected => simp [hphase, beginDial] at h
        | paused | connecting | connected | closed => exact hphase
  | close =>
      rw [hact] at hp
      cases hp
      unfold beginClose at h ⊢
      dsimp only at h ⊢
      split_ifs at h with hclosed
      rw [close, if_pos hclosed]
  | fire id =>
      rw [hact] at hp
      obtain ⟨t, -, rfl⟩ := Option.map_eq_some_iff.1 hp
      dsimp only at h ⊢
      cases hcb : t.callback with
      | retry => simp [hcb, beginDial] at h
      | dial i => simp [hcb] at h
      | stable => rfl
  | openStream method headers aborted =>
      rw [hact] at hp
      dsimp only at hp
      split at hp
      · cases hp
        rfl
      · exact beginMux_phase hp h
  | mux i a =>
      rw [hact] at hp
      dsimp only at hp
      split_ifs at hp
      exact beginMux_phase hp h

/-! ## The transport with its listeners -/

/-- The calls of the public interface. -/
def Act.isCall : Act → Bool
  | .pause | .resume | .retryNow | .close | .openStream _ _ _ => true
  | .fire _ | .mux _ _ => false

/-- A transport, its listeners, and the functions that have not returned; the hub's own
frames are the walks of `setState`, and what a setter leaves to do is the rest of `dial`. -/
structure Listened where
  x : Transport
  hub : Hub Phase Unit
  /-- The listeners whose error is rethrown in a microtask. -/
  rethrown : List ℕ := []
  deriving DecidableEq

inductive ListenedAct where
  /-- A public call from outside, a timer or an event of a socket. -/
  | event (l : Label)
  /-- A public call from inside a callback. -/
  | call (l : Label)
  | subscribe (listener : ℕ)
  | unsubscribe (listener : ℕ)
  /-- `setState` or `dial` goes on. -/
  | run
  /-- A callback returns or throws. -/
  | ret (throws : Bool)
  deriving DecidableEq

namespace Listened

variable {w w' : Listened}

/-- The world runs: nothing of the transport is on the stack, or a listener is on top. -/
def outer (w : Listened) : Bool :=
  match w.hub.stack with
  | [] | .inside _ :: _ => true
  | _ => false

/-- A listener runs. -/
def inner (w : Listened) : Bool :=
  match w.hub.stack with
  | .inside _ :: _ => true
  | _ => false

/-- A function has come to its `setState`, or to its end. -/
def proceed (w : Listened) (p : Partway) : Listened :=
  match p.todo with
  | .done => { w with x := p.x }
  | .tell => { w with x := p.x, hub := w.hub.set p.x.phase }
  | .tellAndArm => { w with x := p.x, hub := (w.hub.push ()).set p.x.phase }

def step (size : Frame → ℕ) (o : Options) (w : Listened) : ListenedAct → Option Listened
  | .event l => if w.hub.stack = [] then (w.x.begin size o l).map w.proceed else none
  | .call l => if w.inner ∧ l.act.isCall then (w.x.begin size o l).map w.proceed else none
  | .subscribe n => if w.outer then some { w with hub := w.hub.subscribe n } else none
  | .unsubscribe n => if w.outer then some { w with hub := w.hub.unsubscribe n } else none
  | .run =>
      match w.hub.stack with
      | .loop k rest :: stack => some { w with hub := w.hub.walk k rest stack }
      | .after _ :: stack => some { w with x := w.x.armDial o, hub := { w.hub with stack } }
      | _ => none
  | .ret throws =>
      match w.hub.stack with
      | .inside n :: stack =>
          some { w with
            hub := { w.hub with stack }
            rethrown := if throws then w.rethrown ++ [n] else w.rethrown }
      | _ => none

/-- A fresh transport, before anybody can have subscribed. -/
def start (o : Options) (paused : Bool) (ws : Socket) : Listened :=
  { x := Transport.start o paused ws, hub := { history := [(Transport.start o paused ws).phase] } }

/-- The condition on a step: a call from inside a callback comes to `setState` only if no
walk has another listener to call. -/
def Last (size : Frame → ℕ) (o : Options) (w : Listened) : ListenedAct → Prop
  | .call l => ∀ p ∈ w.x.begin size o l, p.todo ≠ .done → w.hub.Quiet
  | _ => True

instance (w : Listened) : (a : ListenedAct) → Decidable (w.Last size o a)
  | .call l => inferInstanceAs (Decidable (∀ p ∈ w.x.begin size o l, p.todo ≠ .done → w.hub.Quiet))
  | .event _ | .subscribe _ | .unsubscribe _ | .run | .ret _ => inferInstanceAs (Decidable True)

/-- What holds in every state. -/
structure Inv (w : Listened) : Prop where
  current : w.hub.Current
  phase : w.hub.history.getLast? = some w.x.phase

theorem inv_start (o : Options) (paused : Bool) (ws : Socket) : Inv (start o paused ws) :=
  ⟨Hub.current_start _, rfl⟩

theorem inv_proceed (h : Inv w) {p : Partway} (hdone : p.todo = .done → p.x.phase = w.x.phase)
    (hquiet : p.todo ≠ .done → w.hub.Quiet) : Inv (w.proceed p) := by
  unfold proceed
  cases htodo : p.todo with
  | done => exact ⟨h.current, h.phase.trans (congrArg some (hdone htodo).symm)⟩
  | tell =>
      have hq := hquiet (by rw [htodo]; decide)
      exact ⟨h.current.set_of_quiet hq _, List.getLast?_concat⟩
  | tellAndArm =>
      have hq := hquiet (by rw [htodo]; decide)
      exact ⟨(h.current.push ()).set_of_quiet (hq.push ()) _, List.getLast?_concat⟩

theorem quiet_of_rest (h : w.hub.stack = []) : w.hub.Quiet := by
  intro fr hmem
  rw [h] at hmem
  cases hmem

/-- The hub's own operations leave the states alone. -/
theorem Inv.hub {hub : Hub Phase Unit} (h : Inv w) (hc : hub.Current)
    (hh : hub.history = w.hub.history) : Inv { w with hub } :=
  ⟨hc, hh ▸ h.phase⟩

theorem inv_step {a : ListenedAct} (h : Inv w) (hok : w.Last size o a)
    (hstep : w.step size o a = some w') : Inv w' := by
  cases a with
  | event l =>
      obtain ⟨hrest, hmap⟩ := Option.ite_none_right_eq_some.1 hstep
      obtain ⟨p, hp, rfl⟩ := Option.map_eq_some_iff.1 hmap
      exact inv_proceed h (begin_phase hp) fun _ => quiet_of_rest hrest
  | call l =>
      obtain ⟨-, hmap⟩ := Option.ite_none_right_eq_some.1 hstep
      obtain ⟨p, hp, rfl⟩ := Option.map_eq_some_iff.1 hmap
      exact inv_proceed h (begin_phase hp) (hok p hp)
  | subscribe n =>
      obtain ⟨-, ⟨⟩⟩ := Option.ite_none_right_eq_some.1 hstep
      exact h.hub (h.current.subscribe n) rfl
  | unsubscribe n =>
      obtain ⟨-, ⟨⟩⟩ := Option.ite_none_right_eq_some.1 hstep
      exact h.hub (h.current.unsubscribe n) rfl
  | run =>
      unfold step at hstep
      dsimp only at hstep
      split at hstep
      · rename_i k rest stack hs
        cases hstep
        refine h.hub (h.current.walk hs) ?_
        cases rest <;> rfl
      · rename_i c stack hs
        cases hstep
        refine ⟨h.current.pop hs nofun, ?_⟩
        rw [armDial_phase]
        exact h.phase
      · cases hstep
  | ret throws =>
      unfold step at hstep
      dsimp only at hstep
      split at hstep
      · rename_i n stack hs
        cases hstep
        exact ⟨h.current.pop hs nofun, h.phase⟩
      · cases hstep

/-! ## Every run -/

/-- **The listeners end up with the current state.**  In every run in which a callback that
changes the state is the last of every walk it is in: when everything has returned, each
listener was last called with the latest state that was set, which is that of the transport;
and no listener is ever called with an earlier state after a later one. -/
theorem listeners_current (size : Frame → ℕ) (o : Options) (paused : Bool) (ws : Socket)
    (w : Listened) (hrun : Reach (step size o) (Last size o) (start o paused ws) w) :
    (w.hub.stack = [] → ∀ n ∈ w.hub.listeners,
      (w.hub.heardBy n).getLast? = some w.hub.latest ∧ w.hub.lastHeard n = some w.x.phase) ∧
    ∀ n, (w.hub.heardBy n).Pairwise (· ≤ ·) := by
  have h : Inv w := hrun.invariant (inv_start o paused ws)
    fun _ _ _ hi hok hstep => inv_step hi hok hstep
  refine ⟨fun hrest n hn => ?_, h.current.heardBy_pairwise⟩
  have hlast := h.current.getLast?_heardBy hrest hn
  exact ⟨hlast, (Hub.lastHeard_of_latest hlast).trans h.phase⟩

/-- The second of two listeners, which has thrown before, closes the transport when it
hears that it is connected. -/
theorem listeners_current_closed :
    ∃ w, Reach (step (fun _ => 0) {}) (Last (fun _ => 0) {}) (start {} false {}) w ∧
      w.hub.listeners = [1, 2] ∧ w.x.phase = .closed ∧ w.rethrown = [2] ∧
      w.hub.lastHeard 1 = some .closed ∧ w.hub.lastHeard 2 = some .closed ∧
      ∀ n, (w.hub.heardBy n).Pairwise (· ≤ ·) := by
  obtain ⟨w, hrun, hw⟩ := exists_reach_of_exec (step (fun _ => 0) {}) (Last (fun _ => 0) {})
    (start {} false {})
    (fun w => decide (w.hub.stack = [] ∧ w.hub.listeners = [1, 2] ∧ w.x.phase = .closed ∧
      w.rethrown = [2]))
    [.subscribe 1, .ret false, .subscribe 2, .ret true, .event { act := .mux 0 (.onopen none) },
      .run, .ret false, .run, .call { act := .close }, .run, .ret false, .run, .ret false, .run,
      .ret false, .run] (by decide)
  obtain ⟨hrest, hlisten, hphase, hthrown⟩ := of_decide_eq_true hw
  obtain ⟨hlast, hord⟩ := listeners_current _ _ false {} w hrun
  refine ⟨w, hrun, hlisten, hphase, hthrown, ?_, ?_, hord⟩
  · rw [(hlast hrest 1 (by simp [hlisten])).2, hphase]
  · rw [(hlast hrest 2 (by simp [hlisten])).2, hphase]

/-- **A stale state comes last.**  The first of two listeners closes the transport when it
hears that it is connected; the second is told `closed`, and then `connected`, which is what
it is left with. -/
theorem stale_state_last :
    ∃ w, Reach (step (fun _ => 0) {}) Always (start {} false {}) w ∧ w.hub.stack = [] ∧
      2 ∈ w.hub.listeners ∧ w.x.phase = .closed ∧ w.hub.lastHeard 2 = some .connected ∧
      w.hub.heardBy 2 = [0, 2, 1] := by
  obtain ⟨w, hrun, hw⟩ := exists_reach_of_exec (step (fun _ => 0) {}) Always (start {} false {})
    (fun w => decide (w.hub.stack = [] ∧ 2 ∈ w.hub.listeners ∧ w.x.phase = .closed ∧
      w.hub.lastHeard 2 = some .connected ∧ w.hub.heardBy 2 = [0, 2, 1]))
    [.subscribe 1, .ret false, .subscribe 2, .ret false, .event { act := .mux 0 (.onopen none) },
      .run, .call { act := .close }, .run, .ret false, .run, .ret false, .run, .ret false, .run,
      .ret false, .run] (by decide)
  exact ⟨w, hrun, of_decide_eq_true hw⟩

end Listened

end WsProto.Ts.Transport
