import WsProto.Ts.Transport.Steady

/-!
# Does `resume` connect?

"`resume()` with no live socket dials at once", and an open socket that drops while the
transport is paused "parks in `paused`".  Both go through the phase: `resume` dials in the
phase `paused` only, and `afterDrop` looks at the `reconnect` option before it looks at
`paused`.

* `resume_connects_iff` — in every state of every run, both promises hold exactly if the
  transport is not `disconnected`, and reconnects or has no live socket to lose;
* `resume_stays_down` — without `reconnect` a socket that drops during the pause leaves the
  transport `disconnected`, and `resume` does nothing about it.
-/

namespace WsProto.Ts.Transport

open Machine

variable {strict sound : Prop} {size : Frame → ℕ} {o : Options} {x y : Transport}

/-! ## What the README promises -/

/-- After `resume` the current mux is open, or a fresh dial has been started. -/
def ResumeConnects (o : Options) (x : Transport) : Prop :=
  ∀ ws : Socket, ((x.resume o ws).phase = .connected ∧ (x.resume o ws).Live) ∨
    ((x.resume o ws).phase = .connecting ∧ (x.resume o ws).conns.length = x.conns.length + 1)

/-- If the live socket drops, the transport is `paused`. -/
def DropParks (size : Frame → ℕ) (o : Options) (x : Transport) : Prop :=
  ∀ (i : ℕ) (c : Conn) (random : ℕ) (y : Transport), x.current = some i →
    x.conns[i]? = some c → c.mux.isOpen = true →
    x.step size o { act := .mux i .drop, random } = some y → y.phase = .paused

/-! ## `resume` -/

/-- A fresh dial leaves a transport with one more connection, connected or connecting. -/
theorem dial_phase (x : Transport) (ws : Socket) :
    ((x.dial o ws).phase = .connected ∨ (x.dial o ws).phase = .connecting) ∧
      (x.dial o ws).conns.length = x.conns.length + 1 := by
  have hattach : ∀ z : Transport, ((z.attach o ws).phase = .connected ∨
      (z.attach o ws).phase = .connecting) ∧ (z.attach o ws).conns.length = z.conns.length + 1 := by
    intro z
    unfold Transport.attach
    dsimp only
    split_ifs
    · refine ⟨.inl rfl, ?_⟩
      unfold Transport.onOpen
      dsimp only
      split_ifs <;> simp [setState, setTimeout, clearTimer]
    · exact ⟨.inr rfl, by simp [setState]⟩
  unfold Transport.dial
  dsimp only
  split_ifs
  · exact hattach (x.clearTimer .retryTimer)
  · exact hattach (x.clearTimer .retryTimer)

theorem Steady.resumeConnects_iff (h : Steady strict False x) (hclosed : x.closed = false)
    (hpaused : x.paused = true) : ResumeConnects o x ↔ ∀ e, x.phase ≠ .disconnected e := by
  have hresume : ∀ ws, x.phase ≠ .paused →
      x.resume o ws = { x with paused := false, attempt := 0 } := by
    intro ws hp
    simp [Transport.resume, hclosed, hpaused, hp]
  constructor
  · intro hc e he
    have hr := hresume {} (by rw [he]; nofun)
    rcases hc {} with ⟨hp, -⟩ | ⟨hp, -⟩
    · rw [hr] at hp
      cases he.symm.trans hp
    · rw [hr] at hp
      cases he.symm.trans hp
  · intro hne ws
    cases hp : x.phase with
    | paused =>
        have hr : x.resume o ws = ({ x with paused := false, attempt := 0 } : Transport).dial o ws := by
          simp [Transport.resume, hclosed, hpaused, hp]
        have hs : Steady strict False (x.resume o ws) := h.resume False.elim
        obtain ⟨hphase, hlen⟩ := dial_phase (o := o) { x with paused := false, attempt := 0 } ws
        rw [← hr] at hphase hlen
        exact hphase.imp (fun hc => ⟨hc, hs.fits.opened.1 hc⟩) fun hc => ⟨hc, hlen⟩
    | connected =>
        left
        rw [hresume ws (by rw [hp]; nofun)]
        exact ⟨hp, h.fits.opened.1 hp⟩
    | waiting => exact absurd hp (h.paused hpaused).1
    | connecting => exact absurd hp (h.paused hpaused).2
    | disconnected e => exact absurd hp (hne e)
    | closed => exact absurd ((h.closed hp).symm.trans hclosed) (by decide)

/-! ## A drop during a pause -/

/-- What the drop of a live socket does. -/
theorem Base.drop_step (h : Base strict sound x) {i : ℕ} {c : Conn} {random : ℕ}
    (hcur : x.current = some i) (hc : x.conns[i]? = some c) (hopen : c.mux.isOpen = true)
    (hstep : x.step size o { act := .mux i .drop, random } = some y) :
    ∃ n err, y = (x.setConn i { mux := n, lifecycle := false }).afterDrop o err true random := by
  have hlive : c.mux.defunct = false := by
    simpa [Mux.isOpen] using (Bool.and_eq_true_iff.1 hopen).2
  have hmux : x.onMux size o i .drop random = some y := by
    simpa [Transport.step, outside] using hstep
  obtain ⟨d, z, hd, hz, rfl⟩ := onMux_eq hmux
  obtain rfl : c = d := Option.some.inj (hc.symm.trans hd)
  have hself : (x.setConn i { c with mux := z.1 }).conns[i]? = some { c with mux := z.1 } :=
    setConn_get_self hc
  have hnotice : notice c.mux .drop z.1 = some (.drop connectionLost true) := by
    simp [notice, hlive]
  refine ⟨z.1, connectionLost, ?_⟩
  rw [hnotice, Option.map_some, Option.getD_some, notify_drop_eq hself,
    if_pos (h.hooked c (List.mem_of_getElem? hc) hlive), setConn_setConn]
  exact if_pos hcur

theorem Steady.dropParks_iff (h : Steady strict sound x) (hdials : o.dials = true)
    (hpaused : x.paused = true) :
    DropParks size o x ↔ (x.phase = .connected → o.reconnect = true) := by
  have hdrop : ∀ {z : Transport} {err : WsStatusError} {random : ℕ}, z.paused = true →
      ((z.afterDrop o err true random).phase = .paused ↔ o.reconnect = true) := by
    intro z err random hz
    have hz' : ((z.clearTimer .dialTimer).clearTimer .stableTimer).paused = true := hz
    cases hr : o.reconnect <;>
      simp [Transport.afterDrop, Options.reconnectEnabled, hdials, hr, hz', setState]
  constructor
  · intro hparks hp
    obtain ⟨m, hm, hopen⟩ := h.fits.opened.1 hp
    obtain ⟨i, c, hcur, hc, rfl⟩ := exists_conn hm
    obtain ⟨y, hy⟩ : ∃ y, x.step size o { act := .mux i .drop } = some y := by
      simp [Transport.step, outside, Transport.onMux, hc, Ledger.call]
    have hphase := hparks i c 0 y hcur hc hopen hy
    obtain ⟨n, err, rfl⟩ := h.toBase.drop_step hcur hc hopen hy
    exact (hdrop (z := x.setConn i { mux := n, lifecycle := false }) hpaused).1 hphase
  · intro hr i c random y hcur hc hopen hstep
    have hp : x.phase = .connected := h.fits.opened.2 ⟨c.mux, mux_eq_some hcur hc, hopen⟩
    obtain ⟨n, err, rfl⟩ := h.toBase.drop_step hcur hc hopen hstep
    exact (hdrop (z := x.setConn i { mux := n, lifecycle := false }) hpaused).2 (hr hp)

/-! ## Every run -/

/-- **When `resume` connects.**  Of every paused transport that dials and is not closed,
whatever its options and whatever happened before: `resume` leads to a connection and a
drop of the live socket parks it, if and only if it is not `disconnected`, and `reconnect`
is on or there is no live socket. -/
theorem resume_connects_iff (size : Frame → ℕ) (o : Options) (paused : Bool) (ws : Socket)
    (x : Transport) (hrun : Reach (step size o) Always (start o paused ws) x)
    (hdials : o.dials = true) (hclosed : x.closed = false) (hpaused : x.paused = true) :
    (ResumeConnects o x ∧ DropParks size o x) ↔
      (∀ e, x.phase ≠ .disconnected e) ∧ (x.phase = .connected → o.reconnect = true) := by
  have h : Steady False False x := hrun.invariant (Steady.start False.elim)
    fun _ _ _ hs _ hstep => hs.step False.elim False.elim hstep
  rw [h.resumeConnects_iff hclosed hpaused, h.dropParks_iff hdials hpaused]

/-- With `reconnect`, a socket that drops during the pause parks the transport, and
`resume` dials. -/
theorem resume_connects_iff_parked :
    ∃ x : Transport, x.phase = .paused ∧ x.paused = true ∧
      ResumeConnects { reconnect := true } x ∧
      DropParks (fun _ => 0) { reconnect := true } x := by
  obtain ⟨x, hrun, hx⟩ := exists_reach_of_exec (step (fun _ => 0) { reconnect := true }) Always
    (start { reconnect := true } false {})
    (fun x : Transport => decide (x.phase = .paused ∧ x.paused = true ∧ x.closed = false))
    [{ act := .mux 0 (.onopen none) }, { act := .pause }, { act := .mux 0 .drop }] (by decide)
  obtain ⟨hphase, hpaused, hclosed⟩ := of_decide_eq_true hx
  have hboth := (resume_connects_iff _ _ false {} x hrun rfl hclosed hpaused).2
    ⟨by rw [hphase]; nofun, by rw [hphase]; nofun⟩
  exact ⟨x, hphase, hpaused, hboth⟩

/-- **`resume` does nothing.**  Without `reconnect`, an open socket that drops during the
pause leaves the transport `disconnected` rather than `paused`; with it, a message that is
too large does.  After `resume` no socket is open and none is being dialled. -/
theorem resume_stays_down :
    (∃ x : Transport, Reach (step (fun _ => 0) {}) Always (start {} false {}) x ∧
      x.paused = true ∧ x.phase = .disconnected connectionLost ∧
      x.resume {} {} = { x with paused := false, attempt := 0 }) ∧
    (∃ x : Transport, Reach (step (fun _ => 0) { reconnect := true, maxFrameBytes := 1 }) Always
        (start { reconnect := true, maxFrameBytes := 1 } false {}) x ∧
      x.paused = true ∧ x.phase = .disconnected frameTooBig ∧
      x.resume { reconnect := true, maxFrameBytes := 1 } {} =
        { x with paused := false, attempt := 0 }) := by
  constructor
  · obtain ⟨x, hrun, hx⟩ := exists_reach_of_exec (step (fun _ => 0) {}) Always (start {} false {})
      (fun x : Transport => decide (x.phase = .disconnected connectionLost ∧ x.paused = true ∧
        x.closed = false))
      [{ act := .mux 0 (.onopen none) }, { act := .pause }, { act := .mux 0 .drop }] (by decide)
    obtain ⟨hphase, hpaused, hclosed⟩ := of_decide_eq_true hx
    exact ⟨x, hrun, hpaused, hphase, by simp [Transport.resume, hclosed, hpaused, hphase]⟩
  · obtain ⟨x, hrun, hx⟩ := exists_reach_of_exec
      (step (fun _ => 0) { reconnect := true, maxFrameBytes := 1 }) Always
      (start { reconnect := true, maxFrameBytes := 1 } false {})
      (fun x : Transport => decide (x.phase = .disconnected frameTooBig ∧ x.paused = true ∧
        x.closed = false))
      [{ act := .mux 0 (.onopen none) }, { act := .pause }, { act := .mux 0 (.message 2 none) }]
      (by decide)
    obtain ⟨hphase, hpaused, hclosed⟩ := of_decide_eq_true hx
    exact ⟨x, hrun, hpaused, hphase, by simp [Transport.resume, hclosed, hpaused, hphase]⟩

end WsProto.Ts.Transport
