import WsProto.Ts.Transport.Steady

/-!
# What the phase of a transport promises

Over whole runs of a transport, with any sequence of calls, timers and socket events, of
stale sockets too.

* `lifecycle_orderly` — timers, pausing, the one live mux and the end after `close`;
* `phase_truthful` — the phase is true of the current mux, and a permanent failure ends in
  `disconnected`, from where only `retryNow` dials.

The second needs that a socket handed over already open speaks the protocol.  The mux
checks that in its constructor, before it has an owner to tell (`mismatch_unreported`).
-/

namespace WsProto.Ts.Transport

open Machine

variable {strict : Prop} {size : Frame → ℕ} {o : Options} {x y : Transport} {l : Label}

/-! ## Phases that nothing leaves by itself -/

/-- The transport has given up, or was closed. -/
def Settled (p : Phase) : Prop := (∃ err, p = .disconnected err) ∨ p = .closed

theorem Settled.ne {p q : Phase} (h : Settled p) (hd : ∀ err, q ≠ .disconnected err)
    (hc : q ≠ .closed) : p ≠ q := by
  rintro rfl
  rcases h with ⟨err, he⟩ | he
  · exact hd err he
  · exact hc he

theorem Settled.ne_home {p : Phase} (h : Settled p) (k : TimerField) : p ≠ home k := by
  refine h.ne (fun err => ?_) ?_ <;> cases k <;> exact Phase.noConfusion

/-- No connection of a settled transport lives. -/
theorem Steady.dead_of_settled (h : Steady strict True x) (hp : Settled x.phase) :
    ∀ c ∈ x.conns, c.mux.defunct = true :=
  h.gone trivial (hp.ne_home .stableTimer) (hp.ne_home .dialTimer)

/-- What a step leaves as it was: the number of sockets made, and the phase unless it
closes the transport. -/
def Rests (x y : Transport) : Prop :=
  y.conns.length = x.conns.length ∧ (y.phase = x.phase ∨ y.phase = .closed)

theorem Rests.refl (x : Transport) : Rests x x := ⟨rfl, .inl rfl⟩

theorem Steady.rests_onMux (h : Steady strict True x) (hp : Settled x.phase) {i : ℕ}
    {a : Ledger.Act} {random : ℕ} (ha : ∀ err, a ≠ .close err)
    (hstep : x.onMux size o i a random = some y) : Rests x y := by
  obtain ⟨c, n, hc, ⟨l, rfl, -⟩ | ⟨-, hlive, -⟩ | ⟨-, hhook, -⟩⟩ := onMux_cases h.hooked ha hstep
  · exact ⟨List.length_set, .inl rfl⟩
  all_goals
    have hmem := List.mem_of_getElem? hc
    have hdead := h.dead_of_settled hp c hmem
  · rw [hdead] at hlive
    cases hlive
  · rw [h.unhooked trivial c hmem hdead] at hhook
    cases hhook

theorem Steady.rests_onTimer (h : Steady strict True x) (hp : Settled x.phase) {id : ℕ}
    {ws : Socket} {random : ℕ} (hstep : x.onTimer o id ws random = some y) : Rests x y := by
  obtain ⟨t, hfind, rfl⟩ := Option.map_eq_some_iff.1 hstep
  have ht : t ∈ x.timers := List.mem_of_find?_eq_some hfind
  have harmed : ¬ Free x t.callback.field := fun hf => hf t ht rfl
  dsimp only
  split
  · rename_i hcb
    rw [hcb] at harmed
    exact absurd (h.home_of_retry trivial harmed) (hp.ne_home .retryTimer)
  · rename_i i hcb
    rw [hcb] at harmed
    exact absurd (h.dial harmed) (hp.ne_home .dialTimer)
  · exact ⟨rfl, .inl rfl⟩

theorem rests_pause (hp : Settled x.phase) : Rests x (x.pause o) := by
  unfold Transport.pause
  split_ifs
  · exact .refl x
  · dsimp only
    split
    · rename_i hphase
      exact absurd hphase (hp.ne_home .retryTimer)
    · rename_i hphase
      exact absurd hphase (hp.ne_home .dialTimer)
    · exact ⟨rfl, .inl rfl⟩

theorem rests_resume (hp : Settled x.phase) {ws : Socket} : Rests x (x.resume o ws) := by
  have hpaused : x.phase ≠ .paused := hp.ne (fun _ => Phase.noConfusion) Phase.noConfusion
  unfold Transport.resume
  split_ifs
  · exact .refl x
  · dsimp only
    rw [if_neg hpaused]
    exact ⟨rfl, .inl rfl⟩

theorem rests_close (x : Transport) : Rests x x.close := by
  unfold Transport.close
  split_ifs
  · exact .refl x
  · obtain ⟨conns, hlen, heq, -⟩ := closeCurrent_rest ((({ x with closed := true }.clearTimer
      .retryTimer).clearTimer .dialTimer).clearTimer .stableTimer) transportClosed
    dsimp only
    rw [heq]
    exact ⟨hlen, .inr rfl⟩

/-- `retryNow` after `close`. -/
theorem rests_retryNow (hc : x.closed = true) {ws : Socket} : Rests x (x.retryNow o ws) := by
  rw [Transport.retryNow, hc]
  exact .refl x

/-- **A settled transport stays so**, unless it is told to retry. -/
theorem Steady.rests_step (h : Steady strict True x) (hp : Settled x.phase)
    (hretry : l.act = .retryNow → x.closed = true) (hstep : x.step size o l = some y) :
    Rests x y := by
  obtain ⟨-, rfl⟩ | ⟨-, rfl⟩ | ⟨hact, rfl⟩ | ⟨-, rfl⟩ | ⟨id, -, htimer⟩ | rfl |
    ⟨i, a, hclose, -, hmux⟩ := step_cases hstep
  · exact rests_pause hp
  · exact rests_resume hp
  · exact rests_retryNow (hretry hact)
  · exact rests_close x
  · exact h.rests_onTimer hp htimer
  · exact .refl y
  · exact h.rests_onMux hp hclose hmux

/-- The run lemma. -/
theorem Steady.rests_run {ok : Transport → Label → Prop} (h : Steady strict True x)
    (hp : Settled x.phase)
    (hws : ∀ s l, ok s l → l.socket.Sound) (hfresh : ∀ s l, ok s l → strict → fresh s l = true)
    (hretry : ∀ s l, ok s l → l.act = .retryNow → x.phase = .closed)
    (hrun : Reach (Transport.step size o) ok x y) : Steady strict True y ∧ Rests x y := by
  refine hrun.invariant (P := fun z => Steady strict True z ∧ Rests x z) ?_ ?_
  · exact ⟨h, .refl x⟩
  · rintro s l t ⟨hs, hlen, hphase⟩ hok hstep
    have hsettled : Settled s.phase := by
      rcases hphase with hphase | hphase <;> rw [hphase]
      · exact hp
      · exact .inr rfl
    have hclosed : l.act = .retryNow → s.closed = true := by
      intro hact
      refine hs.closed ?_
      rcases hphase with hphase | hphase
      · exact hphase.trans (hretry s l hok hact)
      · exact hphase
    obtain ⟨hlen', hphase'⟩ := hs.rests_step hsettled hclosed hstep
    refine ⟨hs.step (fun _ => hws s l hok) (hfresh s l hok) hstep, hlen'.trans hlen, ?_⟩
    rcases hphase' with hphase' | hphase'
    · rw [hphase']
      exact hphase
    · exact .inr hphase'

/-! ## Timers and the live mux -/

/-- A timer of the kind is armed. -/
def Armed (x : Transport) (k : TimerField) : Prop := ∃ t ∈ x.timers, t.callback.field = k

theorem not_armed {k : TimerField} : ¬ Armed x k ↔ Free x k := by
  unfold Armed Free
  push Not
  exact Iff.rfl

/-- The order a transport keeps. -/
structure Orderly (x : Transport) : Prop where
  waiting : x.phase = .waiting ↔ Armed x .retryTimer
  dial : Armed x .dialTimer → x.phase = .connecting
  stable : Armed x .stableTimer → x.phase = .connected
  paused : x.paused = true →
    ¬ Armed x .retryTimer ∧ x.phase ≠ .waiting ∧ x.phase ≠ .connecting
  /-- Only `this.mux` is neither closed nor dead. -/
  live : ∀ (i : ℕ) (c : Conn), x.conns[i]? = some c → c.mux.closed = false → c.mux.dead = false →
    x.current = some i
  /-- An armed timer is the one in its field, and there is no other. -/
  owned : ∀ t ∈ x.timers, x.timerOf t.callback.field = some t.id
  single : x.timers.length ≤ 1

/-- An armed timer says what the phase is. -/
theorem Orderly.home (h : Orderly x) {k : TimerField} (ha : Armed x k) :
    x.phase = Transport.home k := by
  cases k with
  | retryTimer => exact h.waiting.2 ha
  | dialTimer => exact h.dial ha
  | stableTimer => exact h.stable ha

theorem Steady.orderly (h : Steady True True x) : Orderly x := by
  have harmed : ∀ {k : TimerField}, Armed x k → x.phase = home k := by
    rintro k ⟨t, ht, hk⟩
    have hf : ¬ Free x k := fun hf => hf t ht hk
    cases k with
    | retryTimer => exact h.home_of_retry trivial hf
    | dialTimer => exact h.dial hf
    | stableTimer => exact h.stable trivial hf
  have howned : ∀ t ∈ x.timers, x.timerOf t.callback.field = some t.id := fun t ht =>
    h.owned _ (fun _ => trivial) t ht rfl
  refine ⟨⟨fun hp => ?_, harmed⟩, harmed, harmed, fun hp => ?_, fun i c hc hclosed hdead => ?_,
    howned, length_timers_le h.nodup fun t ht u hu => ?_⟩
  · by_contra hno
    exact h.waiting hp (not_armed.1 hno)
  · obtain ⟨hwait, hconn⟩ := h.paused hp
    exact ⟨fun ha => hwait (harmed ha), hwait, hconn⟩
  · by_contra hcur
    have hd := h.stale trivial i c hc hcur
    rw [defunct_eq_false.2 ⟨hclosed, hdead⟩] at hd
    cases hd
  · -- both are timers of the phase, and the field holds one id
    have hfield : t.callback.field = u.callback.field :=
      home_injective ((harmed ⟨t, ht, rfl⟩).symm.trans (harmed ⟨u, hu, rfl⟩))
    exact Option.some.inj ((howned t ht).symm.trans (hfield ▸ howned u hu))

/-- `createSocket` returns a socket that is not open yet, and no socket fires `open` on a
mux that is open. -/
def Opening (x : Transport) (l : Label) : Prop := l.socket.ready = false ∧ fresh x l = true

instance (x : Transport) (l : Label) : Decidable (Opening x l) :=
  inferInstanceAs (Decidable (_ ∧ _))

theorem sound_of_not_ready {ws : Socket} (h : ws.ready = false) : ws.Sound := by
  intro hr
  rw [h] at hr
  cases hr

/-- **The life of a transport is orderly**, and `close` ends it: the phase is `closed`
from then on, no timer is armed and no socket is made. -/
theorem lifecycle_orderly (size : Frame → ℕ) (o : Options) (paused : Bool) (ws : Socket)
    (hws : ws.ready = false) (x : Transport)
    (hrun : Reach (step size o) Opening (start o paused ws) x) :
    Orderly x ∧
      (x.closed = true → ∀ y, Reach (step size o) Opening x y →
        y.phase = .closed ∧ y.timers = [] ∧ y.conns.length = x.conns.length) := by
  have hinv : Steady True True x := by
    refine hrun.invariant (Steady.start fun _ => sound_of_not_ready hws) ?_
    intro s l t hs hok hstep
    exact hs.step (fun _ => sound_of_not_ready hok.1) (fun _ => hok.2) hstep
  refine ⟨hinv.orderly, fun hclosed y hy => ?_⟩
  have hphase : x.phase = .closed := hinv.shut trivial hclosed
  obtain ⟨hinv', hlen, hphase'⟩ := hinv.rests_run (.inr hphase)
    (fun s l hok => sound_of_not_ready hok.1) (fun s l hok _ => hok.2) (fun s l _ _ => hphase) hy
  have hend : y.phase = .closed := by
    rcases hphase' with hp | hp
    · exact hp.trans hphase
    · exact hp
  refine ⟨hend, ?_, hlen⟩
  refine timers_eq_nil trivial fun k _ => not_armed.1 fun harmed => ?_
  have hhome := hinv'.orderly.home harmed
  rw [hend] at hhome
  exact (show Settled .closed from .inr rfl).ne_home k hhome

/-- A connection is lost and a redial is scheduled; the transport is closed then. -/
theorem lifecycle_orderly_redial :
    ∃ x, x.phase = .closed ∧ x.conns.length = 2 ∧ Orderly x ∧
      ∀ y, Reach (step (fun _ => 0) { reconnect := true, stableMs := 5, dialTimeoutMs := 9 })
        Opening x y → y.phase = .closed ∧ y.timers = [] ∧ y.conns.length = 2 := by
  obtain ⟨x, hrun, hx⟩ := exists_reach_of_exec
    (step (fun _ => 0) { reconnect := true, stableMs := 5, dialTimeoutMs := 9 }) Opening
    (start { reconnect := true, stableMs := 5, dialTimeoutMs := 9 } false {})
    (fun x : Transport => decide (x.phase = .closed ∧ x.closed = true ∧ x.conns.length = 2))
    [{ act := .mux 0 (.onopen none) }, { act := .mux 0 .drop }, { act := .fire 2 },
      { act := .mux 1 .drop }, { act := .pause }, { act := .close }] (by decide)
  obtain ⟨hphase, hclosed, hlen⟩ := of_decide_eq_true hx
  obtain ⟨horder, hend⟩ := lifecycle_orderly _ _ false {} rfl x hrun
  refine ⟨x, hphase, hlen, horder, fun y hy => ?_⟩
  obtain ⟨hp, ht, hn⟩ := hend hclosed y hy
  exact ⟨hp, ht, hn.trans hlen⟩

/-! ## The phase is true -/

/-- What the phases say of the current mux. -/
structure Truthful (x : Transport) : Prop where
  connected : x.phase = .connected ↔ ∃ m, x.mux = some m ∧ m.isOpen = true
  connecting : x.phase = .connecting →
    ∃ m, x.mux = some m ∧ m.isOpen = false ∧ m.closed = false ∧ m.dead = false
  down : x.phase ≠ .connected → x.phase ≠ .connecting →
    ∀ m, x.mux = some m → m.closed = true ∨ m.dead = true

theorem Steady.truthful (h : Steady strict True x) : Truthful x := by
  refine ⟨h.fits.opened, fun hp => ?_, fun hp hp' m hm => ?_⟩
  · obtain ⟨m, hm, hlive⟩ := h.fits.connecting trivial hp
    refine ⟨m, hm, Bool.eq_false_iff.2 fun hopen => ?_, defunct_eq_false.1 hlive⟩
    cases hp.symm.trans (h.fits.opened.2 ⟨m, hm, hopen⟩)
  · exact Bool.or_eq_true_iff.1 (h.fits.down trivial hp hp' m hm)

/-- The acts in which a mux may fail by itself. -/
def Act.ofMux : Act → Bool
  | .openStream _ _ _ | .mux _ _ => true
  | _ => false

/-- The live connection fails for good: the mux has closed itself, for its protocol, for a
message that is too large, or for its pre-open buffer. -/
structure FailsForGood (x : Transport) (l : Label) (y : Transport) : Prop where
  act : l.act.ofMux = true
  live : ∃ m, x.mux = some m ∧ m.closed = false ∧ m.dead = false
  failed : ∃ m, y.mux = some m ∧ m.closed = true

theorem onOpen_mux (x : Transport) : (x.onOpen o).mux = x.mux := by
  unfold Transport.onOpen
  dsimp only
  split_ifs <;> rfl

theorem afterDrop_mux (x : Transport) (err : WsStatusError) (redial : Bool) (random : ℕ) :
    (x.afterDrop o err redial random).mux = x.mux := by
  unfold Transport.afterDrop
  dsimp only
  split_ifs <;> rfl

theorem afterDrop_permanent (x : Transport) (err : WsStatusError) (random : ℕ) :
    (x.afterDrop o err false random).phase = .disconnected err := rfl

theorem Steady.disconnected_onMux (h : Steady strict True x) {i : ℕ} {a : Ledger.Act}
    {random : ℕ} (ha : ∀ err, a ≠ .close err) (hstep : x.onMux size o i a random = some y)
    {m m' : Mux} (hm : x.mux = some m) (hlive : m.defunct = false) (hm' : y.mux = some m')
    (hfail : m'.closed = true) : ∃ err, y.phase = .disconnected err := by
  have hdead : m'.defunct ≠ false := by
    rw [Mux.defunct, hfail]
    exact Bool.noConfusion
  obtain ⟨c, n, hc, ⟨l, rfl, -, -, hsame⟩ | ⟨hcur, -, hn, -, rfl⟩ |
    ⟨hcur, -, -, err, redial, -, hclosed, rfl⟩⟩ := onMux_cases h.hooked ha hstep
  · by_cases hcur : x.current = some i
    · rw [setConn_mux hcur hc] at hm'
      rw [mux_eq_some hcur hc] at hm
      cases hm
      cases hm'
      exact absurd ((hsame hcur).2.trans hlive) hdead
    · -- the event was one of another mux, and the current one is as it was
      rw [setConn_mux_of_ne hcur, hm] at hm'
      cases hm'
      exact absurd hlive hdead
  · rw [onOpen_mux, setConn_mux hcur hc] at hm'
    cases hm'
    exact absurd (by simpa using (Bool.and_eq_true_iff.1 hn).2) hdead
  · rw [afterDrop_mux, setConn_mux hcur hc] at hm'
    cases hm'
    rw [mux_eq_some hcur hc] at hm
    cases hm
    have hredial := hclosed hlive
    rw [hfail] at hredial
    cases redial with
    | true => cases hredial
    | false => exact ⟨err, afterDrop_permanent _ err random⟩

/-- A permanent failure ends in `disconnected`. -/
theorem Steady.disconnected_of_fails (h : Steady strict True x) (hstep : x.step size o l = some y)
    (hfail : FailsForGood x l y) : ∃ err, y.phase = .disconnected err := by
  obtain ⟨hact, ⟨m, hm, hlive⟩, m', hm', hclosed⟩ := hfail
  obtain ⟨hl, rfl⟩ | ⟨hl, rfl⟩ | ⟨hl, rfl⟩ | ⟨hl, rfl⟩ | ⟨id, hl, -⟩ | rfl |
    ⟨i, a, hclose, -, hmux⟩ := step_cases hstep
  case inr.inr.inr.inr.inr.inl =>
    rw [hm] at hm'
    cases hm'
    rw [hlive.1] at hclosed
    cases hclosed
  case inr.inr.inr.inr.inr.inr =>
    exact h.disconnected_onMux hclose hmux hm (defunct_eq_false.2 hlive) hm' hclosed
  -- no call of the owner and no timer is an act of the mux
  all_goals
    rw [hl] at hact
    cases hact

/-- A socket that `createSocket` returns already open speaks the protocol. -/
def Speaks (_ : Transport) (l : Label) : Prop := l.socket.Sound

instance (x : Transport) (l : Label) : Decidable (Speaks x l) :=
  inferInstanceAs (Decidable l.socket.Sound)

/-- **The reported phase is true**, of a transport that dials or wraps a socket, if every
socket that is handed over already open speaks the protocol.  A permanent failure ends in
`disconnected`, and from there only `retryNow` makes a socket. -/
theorem phase_truthful (size : Frame → ℕ) (o : Options) (paused : Bool) (ws : Socket)
    (hws : ws.Sound) (x : Transport) (hrun : Reach (step size o) Speaks (start o paused ws) x) :
    Truthful x ∧
      (∀ l y, Speaks x l → step size o x l = some y → FailsForGood x l y →
        ∃ err, y.phase = .disconnected err) ∧
      ((∃ err, x.phase = .disconnected err) →
        ∀ y, Reach (step size o) (fun s l => Speaks s l ∧ l.act ≠ .retryNow) x y →
          y.conns.length = x.conns.length ∧ (y.phase = x.phase ∨ y.phase = .closed)) := by
  have hinv : Steady False True x := by
    refine hrun.invariant (Steady.start fun _ => hws) ?_
    intro s l t hs hok hstep
    exact hs.step (fun _ => hok) False.elim hstep
  refine ⟨hinv.truthful, fun l y _ hstep hfail => hinv.disconnected_of_fails hstep hfail,
    fun hp y hy => ?_⟩
  exact (hinv.rests_run (.inl hp) (fun s l hok => hok.1) (fun s l _ => False.elim)
    (fun s l hok hact => absurd hact hok.2) hy).2

/-- A socket that is handed over open, and then sends a message that is too large. -/
theorem phase_truthful_oversize :
    ∃ x, x.phase = .disconnected frameTooBig ∧ Truthful x ∧
      ∀ y, Reach (step (fun _ => 0) { reconnect := true, maxFrameBytes := 4 })
        (fun s l => Speaks s l ∧ l.act ≠ .retryNow) x y →
          y.conns.length = 1 ∧ (y.phase = x.phase ∨ y.phase = .closed) := by
  obtain ⟨x, hrun, hx⟩ := exists_reach_of_exec
    (step (fun _ => 0) { reconnect := true, maxFrameBytes := 4 }) Speaks
    (start { reconnect := true, maxFrameBytes := 4 } false { ready := true })
    (fun x : Transport => decide (x.phase = .disconnected frameTooBig ∧ x.conns.length = 1))
    [{ act := .mux 0 (.message 5 none) }] (by decide)
  obtain ⟨hphase, hlen⟩ := of_decide_eq_true hx
  obtain ⟨htrue, -, hrest⟩ := phase_truthful _ _ false { ready := true } (fun _ => rfl) x hrun
  refine ⟨x, hphase, htrue, fun y hy => ?_⟩
  obtain ⟨hn, hp⟩ := hrest ⟨_, hphase⟩ y hy
  exact ⟨hn.trans hlen, hp⟩

/-- Two sockets that are handed over open and speak no protocol.  One is wrapped: the
transport says it is connecting, over a mux that has closed itself.  The other was dialed:
the dial timeout takes the failure for a slow handshake, and the transport dials again. -/
theorem mismatch_unreported :
    ((start { dials := false } false { ready := true, got := some .empty }).phase = .connecting ∧
      (start { dials := false } false { ready := true, got := some .empty }).mux.map
        Mux.closed = some true) ∧
    ∃ x, Reach (step (fun _ => 0) { reconnect := true, dialTimeoutMs := 9 }) Always
        (start { reconnect := true, dialTimeoutMs := 9 } false
          { ready := true, got := some .empty }) x ∧
      x.phase = .connecting ∧ x.conns.length = 2 := by
  refine ⟨⟨by decide, by decide⟩, ?_⟩
  obtain ⟨x, hrun, hx⟩ := exists_reach_of_exec
    (step (fun _ => 0) { reconnect := true, dialTimeoutMs := 9 }) Always
    (start { reconnect := true, dialTimeoutMs := 9 } false { ready := true, got := some .empty })
    (fun x : Transport => decide (x.phase = .connecting ∧ x.conns.length = 2))
    [{ act := .fire 0 }, { act := .fire 1 }] (by decide)
  exact ⟨x, hrun, of_decide_eq_true hx⟩

end WsProto.Ts.Transport
