import WsProto.Ts.Transport.Steady

/-!
# The backoff of a transport

With `stableMs` set, an open connection does not reset the attempt counter; only a
connection that has stayed open that long does, so that a peer that accepts and drops at
once is not hammered.

The runs are those of a transport with a clock: time passes in ticks, a timer fires no
earlier than its delay after it was armed (delays are taken to be in the range of
`setTimeout`), and it is recorded since when each mux has been open without a break.

* `nextBackoff_eq` — the loop of `nextBackoff` computes the cap of the option's comment;
* `Arms`, `Turn` — what an event does to the timers and to the counter;
* `backoff_grows` — the counter is the number of redials scheduled since the last reset,
  and a stable timer is armed only for a connection that is still open.
-/

namespace WsProto.Ts

/-! ## The cap -/

namespace Options

/-- "a random delay in [0, min(initialMs * 2^n, maxMs)]". -/
def cap (o : Options) (n : ℕ) : ℕ := min (o.initialDelay * 2 ^ n) o.maxDelay

theorem min_grow (maxMs n d : ℕ) : min (grow maxMs n d) maxMs = min (d * 2 ^ n) maxMs := by
  induction n generalizing d with
  | zero => simp [grow]
  | succ n ih =>
      rw [grow]
      split_ifs with hd
      · rw [ih, Nat.mul_assoc, ← Nat.pow_succ']
      · have hle : d ≤ d * 2 ^ (n + 1) := Nat.le_mul_of_pos_right d (Nat.two_pow_pos _)
        omega

/-- The delay of a redial is drawn from `[0, cap]`. -/
theorem nextBackoff_eq (o : Options) (n random : ℕ) :
    o.nextBackoff n random = random % (o.cap n + 1) := by
  rw [nextBackoff, min_grow, cap]

end Options

namespace Transport

open Machine

variable {strict sound : Prop} {size : Frame → ℕ} {o : Options} {x y z : Transport} {l : Label}

/-! ## What an event does to the timers and the counter -/

/-- Timers are cleared, and at most one that is no redial is armed. -/
inductive Arms (o : Options) (x y : Transport) : Prop
  | quiet (htimers : y.timers ⊆ x.timers) (hnext : y.nextTimer = x.nextTimer)
      (hattempt : y.attempt = x.attempt)
  | arm (t : Timer) (old : List Timer) (hold : old ⊆ x.timers) (htimers : y.timers = old ++ [t])
      (hid : t.id = x.nextTimer) (hretry : t.callback ≠ .retry)
      (hstable : t.callback = .stable → t.delay = o.stableMs)
      (hnext : y.nextTimer = x.nextTimer + 1) (hattempt : y.attempt = x.attempt)

/-- The same, or a redial is scheduled and counted. -/
inductive Turn (o : Options) (x y : Transport) : Prop
  | arms (h : Arms o x y)
  | redial (random : ℕ) (old : List Timer) (hold : old ⊆ x.timers)
      (htimers : y.timers = old ++
        [{ id := x.nextTimer, delay := o.nextBackoff x.attempt random, callback := .retry }])
      (hnext : y.nextTimer = x.nextTimer + 1) (hattempt : y.attempt = x.attempt + 1)

/-- Timers cleared before. -/
theorem Arms.of_subset (h : Arms o z y) (ht : z.timers ⊆ x.timers)
    (hn : z.nextTimer = x.nextTimer) (ha : z.attempt = x.attempt) : Arms o x y := by
  cases h with
  | quiet hs hnext hattempt =>
      exact .quiet (List.Subset.trans hs ht) (hnext.trans hn) (hattempt.trans ha)
  | arm t old hold htimers hid hretry hstable hnext hattempt =>
      exact .arm t old (List.Subset.trans hold ht) htimers (hid.trans hn) hretry hstable (hn ▸ hnext)
        (hattempt.trans ha)

theorem Turn.of_subset (h : Turn o z y) (ht : z.timers ⊆ x.timers)
    (hn : z.nextTimer = x.nextTimer) (ha : z.attempt = x.attempt) : Turn o x y := by
  cases h with
  | arms h => exact .arms (h.of_subset ht hn ha)
  | redial random old hold htimers hnext hattempt =>
      rw [hn, ha] at htimers
      exact .redial random old (List.Subset.trans hold ht) htimers (hn ▸ hnext) (ha ▸ hattempt)

theorem Arms.refl (x : Transport) : Arms o x x := .quiet (List.Subset.refl _) rfl rfl

theorem arms_onOpen (hs : 0 < o.stableMs) (x : Transport) : Arms o x (x.onOpen o) := by
  unfold Transport.onOpen
  simp only [if_neg (Nat.ne_of_gt hs)]
  exact .arm { id := x.nextTimer, delay := o.stableMs, callback := .stable } _
    (clearTimer_subset x .dialTimer) rfl rfl nofun (fun _ => rfl) rfl rfl

theorem arms_attach (hs : 0 < o.stableMs) (x : Transport) (ws : Socket) :
    Arms o x (x.attach o ws) := by
  unfold Transport.attach
  dsimp only
  split_ifs
  · exact (arms_onOpen hs _).of_subset (List.Subset.refl _) rfl rfl
  · exact .quiet (List.Subset.refl _) rfl rfl

theorem arms_dial (hs : 0 < o.stableMs) (x : Transport) (ws : Socket) :
    Arms o x (x.dial o ws) := by
  have hclear := clearTimer_subset x .retryTimer
  unfold Transport.dial
  dsimp only
  split_ifs with harm
  · obtain ⟨m, hm⟩ := attach_connecting harm.1
    rw [hm]
    exact .arm { id := x.nextTimer, delay := o.dialTimeoutMs, callback := .dial x.conns.length } _
      hclear rfl rfl nofun nofun rfl rfl
  · exact (arms_attach hs _ ws).of_subset hclear rfl rfl

theorem turn_afterDrop (x : Transport) (err : WsStatusError) (redial : Bool) (random : ℕ) :
    Turn o x (x.afterDrop o err redial random) := by
  have hclear : ((x.clearTimer .dialTimer).clearTimer .stableTimer).timers ⊆ x.timers :=
    List.Subset.trans (clearTimer_subset _ _) (clearTimer_subset _ _)
  unfold Transport.afterDrop
  dsimp only
  split_ifs
  · exact .arms (.quiet hclear rfl rfl)
  · exact .arms (.quiet hclear rfl rfl)
  · exact .redial random _ hclear rfl rfl rfl

theorem afterDrop_current (x : Transport) (err : WsStatusError) (redial : Bool) (random : ℕ) :
    (x.afterDrop o err redial random).current = x.current := by
  unfold Transport.afterDrop
  dsimp only
  split_ifs <;> rfl

/-- `pause` clears timers and keeps the current mux. -/
theorem arms_pause (x : Transport) : Arms o x (x.pause o) ∧ (x.pause o).current = x.current := by
  have hclear : ({ x with paused := true }.clearTimer .retryTimer).timers ⊆ x.timers :=
    clearTimer_subset { x with paused := true } .retryTimer
  unfold Transport.pause
  dsimp only
  split_ifs
  · exact ⟨.refl x, rfl⟩
  · split
    · exact ⟨.quiet hclear rfl rfl, rfl⟩
    · obtain ⟨conns, -, heq, -⟩ := closeCurrent_rest
        (({ x with paused := true }.clearTimer .retryTimer).clearTimer .dialTimer) dialPaused
      rw [heq]
      exact ⟨.quiet (List.Subset.trans (clearTimer_subset _ .dialTimer) hclear) rfl rfl, rfl⟩
    · exact ⟨.quiet hclear rfl rfl, rfl⟩

theorem arms_close (x : Transport) : Arms o x x.close ∧ x.close.current = x.current := by
  have hclear : ((({ x with closed := true }.clearTimer .retryTimer).clearTimer
      .dialTimer).clearTimer .stableTimer).timers ⊆ x.timers :=
    List.Subset.trans (clearTimer_subset _ .stableTimer) (List.Subset.trans
      (clearTimer_subset _ .dialTimer) (clearTimer_subset { x with closed := true } .retryTimer))
  unfold Transport.close
  dsimp only
  split_ifs
  · exact ⟨.refl x, rfl⟩
  · obtain ⟨conns, -, heq, -⟩ := closeCurrent_rest ((({ x with closed := true }.clearTimer
      .retryTimer).clearTimer .dialTimer).clearTimer .stableTimer) transportClosed
    rw [heq]
    exact ⟨.quiet hclear rfl rfl, rfl⟩

/-- The steps in which the transport sets its counter to zero. -/
def clears (x : Transport) (l : Label) : Bool :=
  match l.act with
  | .resume => !x.closed && x.paused
  | .fire id => (x.timers.find? fun t => t.id = id).any fun t => decide (t.callback = .stable)
  | _ => false

/-- The counter before the redial that a step may schedule. -/
def counted (x : Transport) (l : Label) : Transport :=
  { x with attempt := if x.clears l then 0 else x.attempt }

theorem Turn.counted (hc : x.clears l = false) (h : Turn o x y) : Turn o (x.counted l) y :=
  h.of_subset (List.Subset.refl _) rfl (by simp [Transport.counted, hc])

/-- A `resume` that ends a pause starts from zero. -/
theorem turn_resume (hs : 0 < o.stableMs) (hact : l.act = .resume) :
    Turn o (x.counted l) (x.resume o l.socket) := by
  unfold Transport.resume
  by_cases hskip : (x.closed || !x.paused) = true
  · rw [if_pos hskip]
    refine Turn.counted ?_ (.arms (.refl x))
    simp only [clears, hact]
    cases hxc : x.closed <;> cases hxp : x.paused <;> simp_all
  · have hc : x.clears l = true := by
      simp only [clears, hact]
      cases hxc : x.closed <;> cases hxp : x.paused <;> simp_all
    rw [if_neg hskip]
    dsimp only
    split_ifs
    · exact .arms ((arms_dial hs _ l.socket).of_subset (List.Subset.refl _) rfl
        (by simp [counted, hc]))
    · exact .arms (.quiet (List.Subset.refl _) rfl (by simp [counted, hc]))

theorem turn_retryNow (hs : 0 < o.stableMs) (x : Transport) (ws : Socket) :
    Turn o x (x.retryNow o ws) := by
  refine .arms ?_
  unfold Transport.retryNow
  split_ifs
  · exact .refl x
  · split
    · exact arms_dial hs x ws
    · exact arms_dial hs x ws
    · exact .refl x

theorem turn_onTimer {id : ℕ} (hs : 0 < o.stableMs) (hact : l.act = .fire id)
    (hstep : x.onTimer o id l.socket l.random = some y) : Turn o (x.counted l) y := by
  obtain ⟨t, hfind, rfl⟩ := Option.map_eq_some_iff.1 hstep
  have hsub : (x.timers.filter fun u => u.id ≠ id) ⊆ x.timers :=
    List.filter_subset_self x.timers
  dsimp only
  split
  · rename_i hcb
    refine Turn.counted (by simp [clears, hact, hfind, hcb]) (.arms ?_)
    exact (arms_dial hs _ l.socket).of_subset hsub rfl rfl
  · rename_i i hcb
    refine Turn.counted (by simp [clears, hact, hfind, hcb]) ?_
    obtain ⟨conns, -, heq⟩ := closeMux_rest
      { x with timers := x.timers.filter fun u => u.id ≠ id, dialTimer := none } i dialTimeout
    rw [heq]
    exact (turn_afterDrop _ dialTimeout true l.random).of_subset hsub rfl rfl
  · rename_i hcb
    refine .arms (.quiet hsub rfl ?_)
    simp [counted, clears, hact, hfind, hcb]

theorem turn_onMux (h : Base strict sound x) (hs : 0 < o.stableMs) {i : ℕ} {a : Ledger.Act}
    {random : ℕ} (ha : ∀ err, a ≠ .close err) (hstep : x.onMux size o i a random = some y) :
    Turn o x y ∧ y.current = x.current := by
  obtain ⟨c, n, hc, ⟨_, rfl, -⟩ | ⟨-, -, -, -, rfl⟩ | ⟨-, -, -, err, redial, -, -, rfl⟩⟩ :=
    onMux_cases h.hooked ha hstep
  · exact ⟨.arms (.quiet (List.Subset.refl _) rfl rfl), rfl⟩
  · refine ⟨.arms ((arms_onOpen hs _).of_subset (List.Subset.refl _) rfl rfl), ?_⟩
    unfold Transport.onOpen
    simp only [if_neg (Nat.ne_of_gt hs)]
    rfl
  · refine ⟨(turn_afterDrop _ err redial random).of_subset (List.Subset.refl _) rfl rfl, ?_⟩
    exact afterDrop_current _ err redial random

/-- **What a step does to the timers and the counter.** -/
theorem turn_of_step (h : Base strict sound x) (hs : 0 < o.stableMs)
    (hstep : x.step size o l = some y) : Turn o (x.counted l) y := by
  unfold Transport.step at hstep
  cases hact : l.act with
  | pause =>
      rw [hact] at hstep
      cases hstep
      exact Turn.counted (by simp [clears, hact]) (.arms (arms_pause x).1)
  | resume =>
      rw [hact] at hstep
      cases hstep
      exact turn_resume hs hact
  | retryNow =>
      rw [hact] at hstep
      cases hstep
      exact Turn.counted (by simp [clears, hact]) (turn_retryNow hs x l.socket)
  | close =>
      rw [hact] at hstep
      cases hstep
      exact Turn.counted (by simp [clears, hact]) (.arms (arms_close x).1)
  | fire id =>
      rw [hact] at hstep
      exact turn_onTimer hs hact hstep
  | openStream method headers aborted =>
      rw [hact] at hstep
      dsimp only at hstep
      refine Turn.counted (by simp [clears, hact]) ?_
      split at hstep
      · cases hstep
        exact .arms (.refl x)
      · exact (turn_onMux h hs (fun _ => Ledger.Act.noConfusion) hstep).1
  | mux i a =>
      rw [hact] at hstep
      dsimp only at hstep
      split_ifs at hstep with ha
      exact Turn.counted (by simp [clears, hact]) (turn_onMux h hs (outside_ne_close ha) hstep).1

/-- A connected transport keeps its mux for the step. -/
theorem Steady.current_of_connected (h : Steady True False x) (hs : 0 < o.stableMs)
    (hp : x.phase = .connected) (hstep : x.step size o l = some y) : y.current = x.current := by
  obtain ⟨-, rfl⟩ | ⟨-, rfl⟩ | ⟨-, rfl⟩ | ⟨-, rfl⟩ | ⟨id, -, htimer⟩ | rfl |
    ⟨i, a, hclose, -, hmux⟩ := step_cases hstep
  · exact (arms_pause x).2
  · unfold Transport.resume
    split_ifs
    · rfl
    · dsimp only
      rw [if_neg (by rw [hp]; decide)]
  · unfold Transport.retryNow
    rw [hp]
    split_ifs <;> rfl
  · exact (arms_close (o := o) x).2
  · obtain ⟨t, hfind, rfl⟩ := Option.map_eq_some_iff.1 htimer
    have ht : t ∈ x.timers := List.mem_of_find?_eq_some hfind
    dsimp only
    split
    · -- no redial is scheduled, and no dial is under way
      rename_i hcb
      have harmed : ¬ Free x .retryTimer := fun hf => hf t ht (by rw [hcb]; rfl)
      rcases (h.retry harmed).2.2 with hw | ⟨-, e, he⟩
      · cases hp.symm.trans hw
      · cases hp.symm.trans he
    · rename_i i hcb
      have harmed : ¬ Free x .dialTimer := fun hf => hf t ht (by rw [hcb]; rfl)
      cases hp.symm.trans (h.dial harmed)
    · rfl
  · rfl
  · exact (turn_onMux h.toBase hs hclose hmux).2

/-! ## The clock -/

/-- A transport with a clock, and what is recorded beside it. -/
structure Clocked where
  x : Transport
  now : ℕ := 0
  /-- When each timer was armed, by its id. -/
  armedAt : List ℕ := []
  /-- Since when each mux has been open without a break. -/
  openSince : List (Option ℕ) := []
  /-- The delays of the redials scheduled since the last reset. -/
  delays : List ℕ := []
  deriving DecidableEq

inductive ClockAct where
  | tick
  | act (l : Label)
  deriving DecidableEq

namespace Clocked

variable {w w' : Clocked}

/-- The delay of the redial that was scheduled between two states. -/
def redialed (x y : Transport) : Option ℕ :=
  (y.timers.find? fun t => decide (t.callback = .retry ∧ x.nextTimer ≤ t.id)).map (·.delay)

/-- Since when the muxes of `y` have been open. -/
def since (w : Clocked) (y : Transport) : List (Option ℕ) :=
  y.conns.mapIdx fun i c =>
    if c.mux.isOpen then some (((w.openSince[i]?).join).getD w.now) else none

/-- A timer fires no earlier than its delay after it was armed.  That is what `setTimeout`
promises for the delays it can hold, up to `2 ^ 31 - 1` ms; one beyond that fires at once, so
that a `stableMs` of over 24 days is outside this model. -/
def due (w : Clocked) (l : Label) : Bool :=
  match l.act with
  | .fire id =>
      (w.x.timers.find? fun t => t.id = id).all fun t =>
        (w.armedAt[id]?).any fun a => decide (a + t.delay ≤ w.now)
  | _ => true

/-- The current mux has been open for `ms`. -/
def openFor (w : Clocked) (ms : ℕ) : Bool :=
  ((w.x.current.bind (w.openSince[·]?)).join).any fun s => decide (s + ms ≤ w.now)

/-- The resets: a `resume` that ends a pause, and the stable timer of a connection that has
been open for `stableMs`. -/
def resets (o : Options) (w : Clocked) (l : Label) : Bool :=
  match l.act with
  | .resume => !w.x.closed && w.x.paused
  | .fire id =>
      ((w.x.timers.find? fun t => t.id = id).any fun t => decide (t.callback = .stable)) &&
        w.openFor o.stableMs
  | _ => false

/-- The record after an event that leads to `y`. -/
def after (o : Options) (w : Clocked) (l : Label) (y : Transport) : Clocked :=
  { x := y
    now := w.now
    armedAt := w.armedAt ++ List.replicate (y.nextTimer - w.x.nextTimer) w.now
    openSince := w.since y
    delays := (if w.resets o l then [] else w.delays) ++ (redialed w.x y).toList }

def step (size : Frame → ℕ) (o : Options) (w : Clocked) : ClockAct → Option Clocked
  | .tick => some { w with now := w.now + 1 }
  | .act l => if w.due l then (w.x.step size o l).map (w.after o l) else none

def start (o : Options) (paused : Bool) (ws : Socket) : Clocked :=
  let y := Transport.start o paused ws
  { x := y
    armedAt := List.replicate y.nextTimer 0
    openSince := ({ x := {} } : Clocked).since y }

/-- No socket fires `open` on a mux that is open. -/
def OpensOnce (w : Clocked) : ClockAct → Prop
  | .tick => True
  | .act l => fresh w.x l = true

instance (w : Clocked) : (a : ClockAct) → Decidable (w.OpensOnce a)
  | .tick => inferInstanceAs (Decidable True)
  | .act _ => inferInstanceAs (Decidable (_ = _))

/-- Each delay was drawn from the interval of its number. -/
def Drawn (o : Options) (l : List ℕ) : Prop :=
  ∀ n d, l[n]? = some d → ∃ random, d = random % (o.cap n + 1)

/-- What holds between two events. -/
structure Inv (o : Options) (w : Clocked) : Prop where
  steady : Steady True False w.x
  armed : w.armedAt.length = w.x.nextTimer
  past : ∀ (i s : ℕ), w.openSince[i]? = some (some s) → s ≤ w.now
  shown : ∀ (i : ℕ) (c : Conn), w.x.conns[i]? = some c → c.mux.isOpen = true →
    ∃ s, w.openSince[i]? = some (some s)
  /-- A stable timer is armed for the current mux, which has been open since before. -/
  stable : ∀ t ∈ w.x.timers, t.callback = .stable → t.delay = o.stableMs ∧
    ∃ i s a, w.x.current = some i ∧ w.openSince[i]? = some (some s) ∧
      w.armedAt[t.id]? = some a ∧ s ≤ a
  count : w.x.attempt = w.delays.length
  drawn : Drawn o w.delays

/-! ## Steps -/

theorem drawn_nil : Drawn o [] := by simp [Drawn]

theorem Drawn.concat {l : List ℕ} (h : Drawn o l) (random : ℕ) :
    Drawn o (l ++ [o.nextBackoff l.length random]) := by
  intro n d hd
  rcases Nat.lt_or_ge n l.length with hn | hn
  · rw [List.getElem?_append_left hn] at hd
    exact h n d hd
  · obtain rfl : n = l.length := by
      have hlt := (List.getElem?_eq_some_iff.1 hd).1
      rw [List.length_append, List.length_singleton] at hlt
      omega
    rw [List.getElem?_concat_length] at hd
    exact ⟨random, by rw [← Option.some.inj hd, Options.nextBackoff_eq]⟩

theorem since_get {y : Transport} {i : ℕ} {c : Conn} (hc : y.conns[i]? = some c)
    (hopen : c.mux.isOpen = true) :
    (w.since y)[i]? = some (some (((w.openSince[i]?).join).getD w.now)) := by
  simp [since, List.getElem?_mapIdx, hc, hopen]

theorem since_past {y : Transport} (hpast : ∀ (i s : ℕ), w.openSince[i]? = some (some s) →
    s ≤ w.now) {i s : ℕ} (h : (w.since y)[i]? = some (some s)) : s ≤ w.now := by
  rw [since, List.getElem?_mapIdx] at h
  obtain ⟨c, -, hs⟩ := Option.map_eq_some_iff.1 h
  split_ifs at hs
  cases hj : w.openSince[i]? with
  | none => simp [hj] at hs; omega
  | some v =>
      cases v with
      | none => simp [hj] at hs; omega
      | some u =>
          obtain rfl : u = s := by simpa [hj] using hs
          exact hpast i u hj

/-- A stable timer that is due is one of a connection that has been open long enough. -/
theorem Inv.openFor_of_due (h : Inv o w) {l : Label} {t : Timer} (hact : l.act = .fire t.id)
    (hfind : (w.x.timers.find? fun u => u.id = t.id) = some t) (hcb : t.callback = .stable)
    (hdue : w.due l = true) : w.openFor o.stableMs = true := by
  obtain ⟨hdelay, i, s, a, hcur, hs, ha, hle⟩ := h.stable t (List.mem_of_find?_eq_some hfind) hcb
  have hage : a + t.delay ≤ w.now := by simpa [due, hact, hfind, ha] using hdue
  simp only [openFor, hcur, Option.bind_some, hs, Option.join_some, Option.any_some,
    decide_eq_true_eq]
  omega

/-- So the counter is cleared by the resets and by nothing else. -/
theorem Inv.resets_eq (h : Inv o w) {l : Label} (hdue : w.due l = true) :
    w.resets o l = w.x.clears l := by
  unfold resets clears
  cases hact : l.act with
  | fire id =>
      dsimp only
      cases hfind : w.x.timers.find? fun t => t.id = id with
      | none => rfl
      | some t =>
          obtain ⟨-, rfl⟩ := timer_of_find? hfind
          by_cases hcb : t.callback = .stable
          · simp [hcb, h.openFor_of_due hact hfind hcb hdue]
          · simp [hcb]
  | pause | resume | retryNow | close | openStream | mux => rfl

/-- No timer of before has the id of a new one. -/
theorem redialed_of_old {x : Transport} {l : List Timer}
    (hids : ∀ t ∈ x.timers, t.id < x.nextTimer) (hold : l ⊆ x.timers) :
    l.find? (fun t => decide (t.callback = .retry ∧ x.nextTimer ≤ t.id)) = none := by
  rw [List.find?_eq_none]
  intro t ht
  have hlt := hids t (hold ht)
  simp only [decide_eq_true_eq, not_and, not_le]
  exact fun _ => hlt

/-- What a step adds to the record of the redials. -/
theorem turn_redialed (hids : ∀ t ∈ w.x.timers, t.id < w.x.nextTimer) {l : Label} {y : Transport}
    (ht : Turn o (w.x.counted l) y) :
    (redialed w.x y = none ∧ y.attempt = (w.x.counted l).attempt) ∨
      ∃ random, redialed w.x y = some (o.nextBackoff (w.x.counted l).attempt random) ∧
        y.attempt = (w.x.counted l).attempt + 1 := by
  have hfind : ∀ {old : List Timer}, old ⊆ (w.x.counted l).timers →
      old.find? (fun t => decide (t.callback = .retry ∧ w.x.nextTimer ≤ t.id)) = none :=
    fun hold => redialed_of_old (x := w.x) hids hold
  cases ht with
  | arms h =>
      left
      cases h with
      | quiet htimers hnext hattempt =>
          exact ⟨by rw [redialed, hfind htimers]; rfl, hattempt⟩
      | arm t old hold htimers hid hretry hstable hnext hattempt =>
          refine ⟨?_, hattempt⟩
          rw [redialed, htimers, List.find?_append, hfind hold]
          simp [hretry]
  | redial random old hold htimers hnext hattempt =>
      refine .inr ⟨random, ?_, hattempt⟩
      rw [redialed, htimers, List.find?_append, hfind hold]
      simp [counted]

/-- The timers of a step: those of before, and at most one that is new. -/
theorem turn_timers {l : Label} {y : Transport} (ht : Turn o (w.x.counted l) y) :
    w.x.nextTimer ≤ y.nextTimer ∧ ∀ t ∈ y.timers, t ∈ w.x.timers ∨
      (t.id = w.x.nextTimer ∧ y.nextTimer = w.x.nextTimer + 1 ∧
        (t.callback = .stable → t.delay = o.stableMs)) := by
  cases ht with
  | arms h =>
      cases h with
      | quiet htimers hnext hattempt =>
          exact ⟨hnext.ge, fun t ht => .inl (htimers ht)⟩
      | arm t old hold htimers hid hretry hstable hnext hattempt =>
          refine ⟨hnext.ge.trans' (Nat.le_succ _), fun u hu => ?_⟩
          rw [htimers, List.mem_append, List.mem_singleton] at hu
          rcases hu with hu | rfl
          · exact .inl (hold hu)
          · exact .inr ⟨hid, hnext, hstable⟩
  | redial random old hold htimers hnext hattempt =>
      refine ⟨hnext.ge.trans' (Nat.le_succ _), fun u hu => ?_⟩
      rw [htimers, List.mem_append, List.mem_singleton] at hu
      rcases hu with hu | rfl
      · exact .inl (hold hu)
      · exact .inr ⟨rfl, hnext, nofun⟩

/-- A mux that was open and still is has been open since the same time. -/
theorem since_kept {y : Transport} {i s : ℕ} {c : Conn} (hs : w.openSince[i]? = some (some s))
    (hc : y.conns[i]? = some c) (hopen : c.mux.isOpen = true) :
    (w.since y)[i]? = some (some s) := by
  rw [since_get hc hopen, hs]
  rfl

theorem Inv.stable_after (h : Inv o w) (hs : 0 < o.stableMs) {l : Label} {y : Transport}
    (hsteady : Steady True False y) (hstep : w.x.step size o l = some y) {t : Timer}
    (ht : t ∈ y.timers) (hcb : t.callback = .stable) :
    t.delay = o.stableMs ∧ ∃ i s a, y.current = some i ∧ (w.since y)[i]? = some (some s) ∧
      (w.armedAt ++ List.replicate (y.nextTimer - w.x.nextTimer) w.now)[t.id]? = some a ∧
      s ≤ a := by
  have harmed : ∀ {z : Transport}, t ∈ z.timers → ¬ Free z .stableTimer := fun hz hf =>
    hf t hz (by rw [hcb]; rfl)
  obtain ⟨m, hm, hopen⟩ := hsteady.fits.opened.1 (hsteady.stable trivial (harmed ht))
  obtain ⟨i, c, hcur, hc, rfl⟩ := exists_conn hm
  rcases (turn_timers (turn_of_step h.steady.toBase hs hstep)).2 t ht with hold | ⟨hid, hnext, hd⟩
  · -- armed before, for the mux that is still the current one
    obtain ⟨hdelay, j, s, a, hj, hsj, ha, hle⟩ := h.stable t hold hcb
    have hp : w.x.phase = .connected := h.steady.stable trivial (harmed hold)
    have hkeep := h.steady.current_of_connected hs hp hstep
    obtain rfl : i = j := Option.some.inj (hcur.symm.trans (hkeep.trans hj))
    refine ⟨hdelay, i, s, a, hcur, since_kept hsj hc hopen, ?_, hle⟩
    rw [List.getElem?_append_left (List.getElem?_eq_some_iff.1 ha).1]
    exact ha
  · refine ⟨hd hcb, i, _, w.now, hcur, since_get hc hopen, ?_, ?_⟩
    · rw [hid, hnext, List.getElem?_append_right (by rw [h.armed])]
      simp [h.armed]
    · exact since_past h.past (since_get (w := w) hc hopen)

theorem inv_after (h : Inv o w) (hs : 0 < o.stableMs) {l : Label} {y : Transport}
    (hdue : w.due l = true) (hfresh : fresh w.x l = true) (hstep : w.x.step size o l = some y) :
    Inv o (w.after o l y) := by
  have hsteady : Steady True False y := h.steady.step False.elim (fun _ => hfresh) hstep
  have hturn := turn_of_step h.steady.toBase hs hstep
  obtain ⟨hle, -⟩ := turn_timers hturn
  -- the redials counted before this one
  have hbefore : (w.x.counted l).attempt = (if w.resets o l then [] else w.delays).length := by
    rw [h.resets_eq hdue, counted]
    cases w.x.clears l with
    | true => rfl
    | false => exact h.count
  have hdrawn : Drawn o (if w.resets o l then [] else w.delays) := by
    split_ifs
    · exact drawn_nil
    · exact h.drawn
  refine ⟨hsteady, ?_, fun i s => since_past h.past, fun i c hc ho => ⟨_, since_get hc ho⟩,
    fun t ht hcb => h.stable_after hs hsteady hstep ht hcb, ?_, ?_⟩
  · simp only [after, List.length_append, List.length_replicate, h.armed]
    omega
  · rcases turn_redialed h.steady.ids hturn with ⟨hno, hatt⟩ | ⟨r, hsome, hatt⟩
    · simp only [after, hno, hatt, hbefore, Option.toList_none, List.append_nil]
    · simp only [after, hsome, hatt, hbefore, Option.toList_some, List.length_append,
        List.length_singleton]
  · rcases turn_redialed h.steady.ids hturn with ⟨hno, -⟩ | ⟨r, hsome, -⟩
    · simpa only [after, hno, Option.toList_none, List.append_nil] using hdrawn
    · rw [hbefore] at hsome
      simpa only [after, hsome, Option.toList_some] using hdrawn.concat r

theorem inv_step {a : ClockAct} (h : Inv o w) (hs : 0 < o.stableMs) (hok : w.OpensOnce a)
    (hstep : w.step size o a = some w') : Inv o w' := by
  cases a with
  | tick =>
      cases hstep
      exact { h with past := fun i s hi => Nat.le_succ_of_le (h.past i s hi) }
  | act l =>
      obtain ⟨hdue, hmap⟩ := Option.ite_none_right_eq_some.1 hstep
      obtain ⟨y, hy, rfl⟩ := Option.map_eq_some_iff.1 hmap
      exact inv_after h hs hdue hok hy

theorem arms_start (hs : 0 < o.stableMs) (paused : Bool) (ws : Socket) :
    Arms o {} (Transport.start o paused ws) := by
  unfold Transport.start
  split_ifs
  · unfold new
    split_ifs
    · exact .quiet (List.Subset.refl _) rfl rfl
    · exact arms_dial hs {} ws
  · exact arms_attach hs {} ws

theorem inv_start (hs : 0 < o.stableMs) (paused : Bool) (ws : Socket) :
    Inv o (start o paused ws) := by
  have hsteady : Steady True False (Transport.start o paused ws) := .start False.elim
  have harms := arms_start hs paused ws
  have hpast : ∀ (i s : ℕ), (start o paused ws).openSince[i]? = some (some s) → s ≤ 0 :=
    fun i s => since_past (w := { x := {} }) nofun
  refine ⟨hsteady, by simp [start], hpast, fun i c hc ho => ⟨_, since_get hc ho⟩,
    fun t ht hcb => ?_, ?_, drawn_nil⟩
  · have harmed : ¬ Free (Transport.start o paused ws) .stableTimer := fun hf =>
      hf t ht (by rw [hcb]; rfl)
    obtain ⟨m, hm, hopen⟩ := hsteady.fits.opened.1 (hsteady.stable trivial harmed)
    obtain ⟨i, c, hcur, hc, rfl⟩ := exists_conn hm
    have hsince := since_get (w := { x := {} }) hc hopen
    refine ⟨?_, i, _, 0, hcur, hsince, ?_, hpast i _ hsince⟩
    · cases harms with
      | quiet htimers => exact absurd (htimers ht) (by simp)
      | arm u old hold htimers hid hretry hstable =>
          rcases List.mem_append.1 (htimers ▸ ht : t ∈ old ++ [u]) with hmem | hmem
          · exact absurd (hold hmem) (by simp)
          · obtain rfl := List.mem_singleton.1 hmem
            exact hstable hcb
    · have hlt : t.id < (Transport.start o paused ws).nextTimer := hsteady.ids t ht
      show (List.replicate (Transport.start o paused ws).nextTimer 0)[t.id]? = some 0
      rw [List.getElem?_replicate, if_pos hlt]
  · cases harms with
    | quiet _ _ hattempt => exact hattempt
    | arm u old hold htimers hid hretry hstable hnext hattempt => exact hattempt

/-! ## Every run -/

end Clocked

end Transport

end WsProto.Ts
