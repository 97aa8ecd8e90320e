import WsProto.Ts.Transport.Events

/-!
# What a transport keeps

The invariant of a transport, kept by every call, timer and socket event, whatever the
sockets do: which timers are armed, which muxes have their hooks, and what the phase says of
the current mux.

Some of it depends on the sockets.  As in `Timers`, what is said of the stable timer is under
a proposition `strict`, which stands for "no socket fires `open` twice".  Another proposition,
`sound`, stands for "a socket that is handed over already open speaks the protocol".  Without
that a mux may be dead from the start and still have its hooks, and a late frame of such a mux
can give up a redial that is scheduled, or a transport that is closed.

The functions of the transport call each other in the middle of an event: `Base` is what such
a call may rely on.
-/

namespace WsProto.Ts.Transport

variable {strict sound : Prop} {size : Frame → ℕ} {o : Options} {x y : Transport} {k : TimerField}
  {p : Phase}

/-! ## The phase -/

/-- The current mux is open. -/
def Live (x : Transport) : Prop := ∃ m, x.mux = some m ∧ m.isOpen = true

/-- The current mux is gone, or there is none. -/
def Dead (x : Transport) : Prop := ∀ m, x.mux = some m → m.defunct = true

theorem Dead.not_live (h : x.Dead) : ¬ x.Live := by
  rintro ⟨m, hm, hopen⟩
  simp [Mux.isOpen, h m hm] at hopen

/-- The phase is true of the current mux `m`. -/
structure Fits (sound : Prop) (p : Phase) (m : Option Mux) : Prop where
  opened : p = .connected ↔ ∃ n, m = some n ∧ n.isOpen = true
  connecting : sound → p = .connecting → ∃ n, m = some n ∧ n.defunct = false
  down : sound → p ≠ .connected → p ≠ .connecting → ∀ n, m = some n → n.defunct = true

theorem Fits.of_live (h : x.Live) : Fits sound .connected x.mux :=
  ⟨iff_of_true rfl h, nofun, fun _ hp => absurd rfl hp⟩

theorem Fits.of_dead (hp : p ≠ .connected) (hp' : p ≠ .connecting) (h : x.Dead) :
    Fits sound p x.mux :=
  ⟨iff_of_false hp h.not_live, fun _ he => absurd he hp', fun _ _ _ => h⟩

/-- Only two phases go with a live mux. -/
theorem Fits.live {m : Mux} (h : Fits sound p (some m)) (hs : sound) (hlive : m.defunct = false) :
    p = .connected ∨ p = .connecting := by
  by_contra hp
  rw [not_or] at hp
  rw [h.down hs hp.1 hp.2 m rfl] at hlive
  cases hlive

/-! ## The invariant -/

/-- What holds also in the middle of an event. -/
structure Base (strict sound : Prop) (x : Transport) : Prop where
  ids : ∀ t ∈ x.timers, t.id < x.nextTimer
  nodup : (x.timers.map Timer.id).Nodup
  owned : ∀ k, Kept strict k → Owned x k
  here : ∀ i : ℕ, x.current = some i → i < x.conns.length
  /-- A mux has its hooks as long as it lives, and only the current one lives. -/
  hooked : ∀ c ∈ x.conns, c.mux.defunct = false → c.lifecycle = true
  unhooked : sound → ∀ c ∈ x.conns, c.mux.defunct = true → c.lifecycle = false
  stale : sound → ∀ (i : ℕ) (c : Conn), x.conns[i]? = some c → x.current ≠ some i →
    c.mux.defunct = true

/-- What holds between two events. -/
structure Steady (strict sound : Prop) (x : Transport) : Prop extends Base strict sound x where
  fits : Fits sound x.phase x.mux
  retry : ¬ Free x .retryTimer → x.paused = false ∧ x.Dead ∧
    (x.phase = .waiting ∨ ¬ sound ∧ ∃ e, x.phase = .disconnected e)
  waiting : x.phase = .waiting → ¬ Free x .retryTimer
  dial : ¬ Free x .dialTimer → x.phase = .connecting
  dialing : ∀ t ∈ x.timers, ∀ i, t.callback = .dial i → x.current = some i
  stable : strict → ¬ Free x .stableTimer → x.phase = .connected
  paused : x.paused = true → x.phase ≠ .waiting ∧ x.phase ≠ .connecting
  closed : x.phase = .closed → x.closed = true
  shut : sound → x.closed = true → x.phase = .closed

theorem Base.congr (h : Base strict sound x) (ht : y.timers.Sublist x.timers)
    (hn : y.nextTimer = x.nextTimer) (hf : ∀ k, y.timerOf k = x.timerOf k)
    (hc : y.conns = x.conns) (hcur : y.current = x.current) : Base strict sound y where
  ids t hmem := hn ▸ h.ids t (ht.subset hmem)
  nodup := h.nodup.sublist (ht.map _)
  owned k hk := (h.owned k hk).mono ht.subset (hf k)
  here := by rw [hc, hcur]; exact h.here
  hooked := hc ▸ h.hooked
  unhooked := hc ▸ h.unhooked
  stale := by rw [hc, hcur]; exact h.stale

theorem Base.clearTimer (h : Base strict sound x) (k : TimerField) :
    Base strict sound (x.clearTimer k) := by
  have hn : (x.clearTimer k).nextTimer = x.nextTimer := by cases k <;> rfl
  have hc : (x.clearTimer k).conns = x.conns := by cases k <;> rfl
  have hcur : (x.clearTimer k).current = x.current := by cases k <;> rfl
  refine ⟨fun t ht => ?_, h.nodup.sublist ((clearTimer_sublist x k).map _),
    fun j hj => (h.owned j hj).clearTimer k, ?_, hc ▸ h.hooked, hc ▸ h.unhooked, ?_⟩
  · rw [hn]
    exact h.ids t (clearTimer_subset x k ht)
  · rw [hc, hcur]
    exact h.here
  · rw [hc, hcur]
    exact h.stale

/-- The invariant from its parts, in a phase that is known and in which every timer that is
armed is at home. -/
theorem Base.steady (h : Base strict sound x) (p : Phase) (hp : x.phase = p) (hfits : Fits sound p x.mux)
    (hfree : ∀ k, Kept strict k → p ≠ home k → Free x k)
    (hwait : p = .waiting → ¬ Free x .retryTimer ∧ x.Dead)
    (hdial : ∀ t ∈ x.timers, ∀ i, t.callback = .dial i → x.current = some i)
    (hpaused : x.paused = true → p ≠ .waiting ∧ p ≠ .connecting)
    (hclosed : p = .closed → x.closed = true) (hshut : sound → x.closed = true → p = .closed) :
    Steady strict sound x := by
  subst hp
  have hhome : ∀ k, Kept strict k → ¬ Free x k → x.phase = home k := fun k hk hf => by
    by_contra hne
    exact hf (hfree k hk hne)
  refine ⟨h, hfits, fun hr => ?_, fun hw => (hwait hw).1, hhome _ kept_dial, hdial,
    fun hs => hhome .stableTimer fun _ => hs, hpaused, hclosed, hshut⟩
  have hphase : x.phase = .waiting := hhome _ kept_retry hr
  refine ⟨Bool.eq_false_iff.2 fun hp => (hpaused hp).1 hphase, (hwait hphase).2, .inl hphase⟩

/-- The invariant where no timer is armed. -/
theorem Base.steady_free (h : Base strict sound x) (p : Phase) (hp : x.phase = p)
    (hfits : Fits sound p x.mux) (hfree : ∀ k, Kept strict k → Free x k) (hwait : p ≠ .waiting)
    (hpaused : x.paused = true → p ≠ .waiting ∧ p ≠ .connecting)
    (hclosed : p = .closed → x.closed = true) (hshut : sound → x.closed = true → p = .closed) :
    Steady strict sound x :=
  h.steady p hp hfits (fun k hk _ => hfree k hk) (fun hw => absurd hw hwait)
    (fun _ ht _ hi => ((hfree _ kept_dial).not_dial ht hi).elim) hpaused hclosed hshut

/-- The invariant where a timer has been armed, on the way into its phase, and no other is. -/
theorem Base.armed (h : Base strict sound x) {d : ℕ} {c : Callback}
    (hfree : ∀ k, Kept strict k → Free x k)
    (ht : y.timers = x.timers ++ [{ id := x.nextTimer, delay := d, callback := c }])
    (hn : y.nextTimer = x.nextTimer + 1) (hf : y.timerOf c.field = some x.nextTimer)
    (hc : y.conns = x.conns) (hcur : y.current = x.current) (hp : y.phase = home c.field)
    (hfits : Fits sound (home c.field) y.mux) (hd : ∀ i, c = .dial i → y.current = some i)
    (hwait : home c.field = .waiting → y.Dead)
    (hpaused : y.paused = true → home c.field = .connected)
    (hshut : sound → y.closed = false) : Steady strict sound y := by
  have hmem : ∀ t ∈ y.timers, t ∈ x.timers ∨ t = { id := x.nextTimer, delay := d, callback := c } := by
    intro t hm
    rw [ht, List.mem_append, List.mem_singleton] at hm
    exact hm
  have hbase : Base strict sound y := by
    refine ⟨fun t hm => ?_, ?_, fun k hk t hm hfield => ?_, ?_, hc ▸ h.hooked, hc ▸ h.unhooked, ?_⟩
    · rw [hn]
      rcases hmem t hm with hold | rfl
      · exact Nat.lt_succ_of_lt (h.ids t hold)
      · exact Nat.lt_succ_self _
    · rw [ht, List.map_append, List.nodup_append]
      refine ⟨h.nodup, List.nodup_singleton _, fun n hold m hnew => ?_⟩
      obtain ⟨t, hmt, rfl⟩ := List.mem_map.1 hold
      rw [List.mem_singleton.1 hnew]
      exact (h.ids t hmt).ne
    · rcases hmem t hm with hold | rfl
      · exact absurd hfield (hfree k hk t hold)
      · rw [← hfield]
        exact hf
    · rw [hc, hcur]
      exact h.here
    · rw [hc, hcur]
      exact h.stale
  refine hbase.steady _ hp hfits (fun k hk hne t hm he => ?_) (fun hw => ⟨fun hno => ?_, hwait hw⟩)
    (fun t hm i hi => ?_) (fun hpz => ?_) (fun hz => ?_) (fun hs hz => ?_)
  · rcases hmem t hm with hold | rfl
    · exact hfree k hk t hold he
    · exact hne (congrArg home he)
  · refine hno { id := x.nextTimer, delay := d, callback := c } ?_ (home_injective hw)
    rw [ht]
    exact List.mem_append_right _ (List.mem_singleton.2 rfl)
  · rcases hmem t hm with hold | rfl
    · exact ((hfree _ kept_dial).not_dial hold hi).elim
    · exact hd i hi
  · rw [hpaused hpz]
    decide
  · cases hk : c.field <;> rw [hk] at hz <;> cases hz
  · rw [hshut hs] at hz
    cases hz

/-! ## What a hook does -/

/-- `onOpen`, when the mux is open. -/
theorem Base.onOpen (h : Base strict sound x) (hlive : x.Live) (hretry : Free x .retryTimer)
    (hstable : strict → Free x .stableTimer) (hshut : sound → x.closed = false) :
    Steady strict sound (x.onOpen o) := by
  have hb := h.clearTimer .dialTimer
  have hfree : ∀ k, Kept strict k → Free (x.clearTimer .dialTimer) k := by
    intro k hk
    cases k with
    | retryTimer => exact hretry.clearTimer _
    | dialTimer => exact (h.owned _ hk).free_clearTimer
    | stableTimer => exact (hstable (hk rfl)).clearTimer _
  unfold Transport.onOpen
  by_cases hms : o.stableMs = 0
  · simp only [if_pos hms]
    refine Base.steady_free (hb.congr (.refl _) rfl (fun k => by cases k <;> rfl) rfl rfl)
      .connected rfl (.of_live hlive) hfree (by decide) (fun _ => by decide) nofun fun hs hc => ?_
    exact absurd ((hshut hs).symm.trans hc) (by decide)
  · simp only [if_neg hms]
    exact hb.armed (c := .stable) hfree rfl rfl rfl rfl rfl rfl (.of_live hlive) nofun nofun
      (fun _ => rfl) hshut

/-- `afterDrop`, when the mux is gone. -/
theorem Base.afterDrop (h : Base strict sound x) (hdead : x.Dead) {redial : Bool}
    (hretry : redial = true ∨ sound → Free x .retryTimer)
    (hpaused : ¬ Free x .retryTimer → x.paused = false) (hshut : sound → x.closed = false)
    (err : WsStatusError) (random : ℕ) : Steady strict sound (x.afterDrop o err redial random) := by
  have hb := (h.clearTimer .dialTimer).clearTimer .stableTimer
  have hdial : Free ((x.clearTimer .dialTimer).clearTimer .stableTimer) .dialTimer :=
    (h.owned _ kept_dial).free_clearTimer.clearTimer _
  have hstable : strict → Free ((x.clearTimer .dialTimer).clearTimer .stableTimer) .stableTimer :=
    fun hs => ((h.owned .stableTimer fun _ => hs).clearTimer _).free_clearTimer
  have hopen : ∀ {z : Transport}, z.closed = x.closed → sound → z.closed = true → False :=
    fun hz hs hc => by cases (hshut hs).symm.trans (hz.symm.trans hc)
  have hfree : redial = true → ∀ k, Kept strict k →
      Free ((x.clearTimer .dialTimer).clearTimer .stableTimer) k := by
    intro hredial k hk
    cases k with
    | retryTimer => exact ((hretry (.inl hredial)).clearTimer _).clearTimer _
    | dialTimer => exact hdial
    | stableTimer => exact hstable (hk rfl)
  unfold Transport.afterDrop
  dsimp only
  split_ifs with hgive hpause
  · -- a redial that is scheduled may stay
    refine ⟨hb.congr (.refl _) rfl (fun k => by cases k <;> rfl) rfl rfl,
      .of_dead Phase.noConfusion Phase.noConfusion hdead, fun hr => ?_, nofun,
      fun hd => absurd hdial hd, fun t ht i hi => (hdial.not_dial ht hi).elim,
      fun hs hst => absurd (hstable hs) hst, fun _ => ⟨Phase.noConfusion, Phase.noConfusion⟩,
      Phase.noConfusion, fun hs hc => (hopen (z := x) rfl hs hc).elim⟩
    have hr' : ¬ Free x .retryTimer := fun hf => hr ((hf.clearTimer _).clearTimer _)
    exact ⟨hpaused hr', hdead, .inr ⟨fun hs => hr' (hretry (.inr hs)), err, rfl⟩⟩
  all_goals
    have hredial : redial = true := by
      cases redial with
      | true => rfl
      | false => exact absurd rfl hgive
  · refine Base.steady_free (hb.congr (.refl _) rfl (fun k => by cases k <;> rfl) rfl rfl) .paused
      rfl (.of_dead (by decide) (by decide) hdead) (hfree hredial) (by decide) (fun _ => by decide)
      nofun fun hs hc => (hopen (z := x) rfl hs hc).elim
  · exact hb.armed (c := .retry) (hfree hredial) rfl rfl rfl rfl rfl rfl
      (.of_dead (by decide) (by decide) hdead) nofun (fun _ => hdead)
      (fun hp => absurd hp hpause) hshut

/-! ## Dialing -/

/-- A new connection has its hooks, and is the only live one. -/
theorem Base.join (h : Base strict sound x) {m : Mux} (hlive : sound → m.defunct = false)
    (hgone : sound → ∀ c ∈ x.conns, c.mux.defunct = true) : Base strict sound (x.join m) where
  ids := h.ids
  nodup := h.nodup
  owned k hk := by cases k <;> exact h.owned _ hk
  here i hi := by
    cases hi
    simp [Transport.join]
  hooked c hc hl := by
    rcases List.mem_append.1 hc with hold | hnew
    · exact h.hooked c hold hl
    · rw [List.mem_singleton.1 hnew]
  unhooked hs c hc hd := by
    rcases List.mem_append.1 hc with hold | hnew
    · exact h.unhooked hs c hold hd
    · rw [List.mem_singleton.1 hnew, hlive hs] at hd
      cases hd
  stale hs i c hc hcur := by
    have hlt : i < x.conns.length := by
      have hlen : i < x.conns.length + 1 := by
        simpa [Transport.join] using (List.getElem?_eq_some_iff.1 hc).1
      exact Nat.lt_of_le_of_ne (Nat.le_of_lt_succ hlen) fun he => hcur (congrArg some he.symm)
    refine hgone hs c (List.mem_of_getElem? (?_ : x.conns[i]? = some c))
    rw [← hc]
    exact (List.getElem?_append_left hlt).symm

/-- `attach`, when no timer is armed. -/
theorem Base.attach (h : Base strict sound x) (hfree : ∀ k, Kept strict k → Free x k)
    (hpaused : x.paused = false) {ws : Socket} (hws : sound → ws.Sound)
    (hgone : sound → ∀ c ∈ x.conns, c.mux.defunct = true) (hshut : sound → x.closed = false) :
    Steady strict sound (x.attach o ws) := by
  have hlive : sound →
      (Mux.new o.initialWindow o.maxSendBuffer o.maxFrameBytes ws.ready ws.got).defunct = false :=
    fun hs => (new_flags (hws hs) _ _ _).2
  have hm := join_mux x (Mux.new o.initialWindow o.maxSendBuffer o.maxFrameBytes ws.ready ws.got)
  have hb := h.join hlive hgone
  unfold Transport.attach
  dsimp only
  split_ifs with hopen
  · exact Base.onOpen hb ⟨_, hm, hopen⟩ (hfree _ kept_retry)
      (fun hs => hfree .stableTimer fun _ => hs) hshut
  · refine Base.steady_free (hb.congr (.refl _) rfl (fun k => by cases k <;> rfl) rfl rfl)
      .connecting rfl ⟨iff_of_false (by decide) ?_, fun hs _ => ⟨_, hm, hlive hs⟩,
        fun _ _ hp => absurd rfl hp⟩ hfree (by decide) (fun hp => ?_) nofun fun hs hc => ?_
    · rintro ⟨n, hn, ho⟩
      obtain rfl : Mux.new o.initialWindow o.maxSendBuffer o.maxFrameBytes ws.ready ws.got = n :=
        Option.some.inj (hm.symm.trans hn)
      exact hopen ho
    · exact absurd (hpaused.symm.trans hp) (by decide)
    · exact absurd ((hshut hs).symm.trans hc) (by decide)

/-- `dial`, when at most a redial is scheduled. -/
theorem Base.dial (h : Base strict sound x)
    (hfree : ∀ k, Kept strict k → k ≠ .retryTimer → Free x k) (hpaused : x.paused = false)
    {ws : Socket} (hws : sound → ws.Sound) (hgone : sound → ∀ c ∈ x.conns, c.mux.defunct = true)
    (hshut : sound → x.closed = false) : Steady strict sound (x.dial o ws) := by
  have hfree' : ∀ k, Kept strict k → Free (x.clearTimer .retryTimer) k := by
    intro k hk
    by_cases hr : k = .retryTimer
    · subst hr
      exact (h.owned _ hk).free_clearTimer
    · exact (hfree k hk hr).clearTimer _
  have hs : Steady strict sound ((x.clearTimer .retryTimer).attach o ws) :=
    (h.clearTimer .retryTimer).attach hfree' hpaused hws hgone hshut
  unfold Transport.dial
  dsimp only
  split_ifs with harm
  · obtain ⟨m, hm⟩ := attach_connecting harm.1
    have hfits := hs.fits
    have hbase := hs.toBase
    rw [hm] at hfits hbase ⊢
    exact hbase.armed (c := .dial x.conns.length) hfree' rfl rfl rfl rfl rfl rfl hfits
      (fun i hi => by cases hi; rfl) nofun (fun hp => absurd (hpaused.symm.trans hp) (by decide))
      hshut
  · exact hs

/-! ## Closing a mux -/

theorem Base.setConn (h : Base strict sound x) (i : ℕ) {c : Conn}
    (hhook : c.mux.defunct = false → c.lifecycle = true)
    (hunhook : sound → c.mux.defunct = true → c.lifecycle = false)
    (hstale : sound → x.current ≠ some i → c.mux.defunct = true) :
    Base strict sound (x.setConn i c) where
  ids := h.ids
  nodup := h.nodup
  owned k hk := by cases k <;> exact h.owned _ hk
  here j hj := by
    have hlen : (x.setConn i c).conns.length = x.conns.length := List.length_set
    rw [hlen]
    exact h.here j hj
  hooked d hd hlive := by
    rcases List.mem_or_eq_of_mem_set hd with hold | rfl
    · exact h.hooked d hold hlive
    · exact hhook hlive
  unhooked hs d hd hdead := by
    rcases List.mem_or_eq_of_mem_set hd with hold | rfl
    · exact h.unhooked hs d hold hdead
    · exact hunhook hs hdead
  stale hs j d hd hcur := by
    by_cases hij : i = j
    · subst hij
      have hlt : i < x.conns.length := by
        simpa [Transport.setConn] using (List.getElem?_eq_some_iff.1 hd).1
      rw [setConn_get_self (List.getElem?_eq_getElem hlt)] at hd
      cases hd
      exact hstale hs hcur
    · rw [setConn_get_of_ne hij] at hd
      exact h.stale hs j d hd hcur

theorem Base.closeMux (h : Base strict sound x) (i : ℕ) (err : WsStatusError) :
    Base strict sound (x.closeMux i err) := by
  unfold Transport.closeMux
  split
  · exact h
  · rename_i c hc
    refine h.setConn i (fun hlive => ?_) (fun hs _ => ?_) fun _ _ => defunct_close _ err
    · rw [defunct_close] at hlive
      cases hlive
    · cases hclosed : c.mux.closed with
      | false => exact Bool.and_false _
      | true =>
          have hdead : c.mux.defunct = true := by rw [Mux.defunct, hclosed]; rfl
          rw [Bool.and_true]
          exact h.unhooked hs c (List.mem_of_getElem? hc) hdead

/-- `this.mux?.close(err)`. -/
theorem Base.closeCurrent (h : Base strict sound x) (err : WsStatusError) :
    ∃ conns : List Conn, (x.current.map (x.closeMux · err)).getD x = { x with conns } ∧
      Base strict sound { x with conns } ∧ Dead { x with conns } := by
  obtain ⟨conns, -, heq, hdead⟩ := closeCurrent_rest x err
  refine ⟨conns, heq, ?_, hdead h.here⟩
  rw [← heq]
  obtain hcur | ⟨i, hcur⟩ := Option.eq_none_or_eq_some x.current
  · rw [hcur]
    exact h
  · rw [hcur]
    exact h.closeMux i err

/-! ## Public calls -/

/-- No timer but the redial is armed away from home. -/
theorem Steady.free_of_phase (h : Steady strict sound x) (hp : x.phase = p)
    (hk : Kept strict k) (hne : k ≠ .retryTimer) (hhome : p ≠ home k) : Free x k := by
  by_contra hf
  cases k with
  | retryTimer => exact hne rfl
  | dialTimer => exact hhome (hp.symm.trans (h.dial hf))
  | stableTimer => exact hhome (hp.symm.trans (h.stable (hk rfl) hf))

/-- With sound sockets a redial is scheduled in `waiting` only. -/
theorem Steady.home_of_retry (h : Steady strict sound x) (hs : sound)
    (hf : ¬ Free x .retryTimer) : x.phase = .waiting :=
  (h.retry hf).2.2.resolve_right fun hno => hno.1 hs

/-- Every connection is gone unless the phase says otherwise. -/
theorem Steady.gone (h : Steady strict sound x) (hs : sound) (hp : x.phase ≠ .connected)
    (hp' : x.phase ≠ .connecting) : ∀ c ∈ x.conns, c.mux.defunct = true := by
  intro c hc
  obtain ⟨i, hi⟩ := List.mem_iff_getElem?.1 hc
  by_cases hcur : x.current = some i
  · exact h.fits.down hs hp hp' _ (mux_eq_some hcur hi)
  · exact h.stale hs i c hi hcur

/-- A transport in `waiting`, `disconnected` or `paused` may dial. -/
theorem Steady.dialed (h : Steady strict sound x) (hc : x.phase ≠ .connecting)
    (hc' : x.phase ≠ .connected) (ht : y.timers.Sublist x.timers) (hn : y.nextTimer = x.nextTimer)
    (hf : ∀ k, y.timerOf k = x.timerOf k) (hconns : y.conns = x.conns)
    (hcur : y.current = x.current) (hp : y.paused = false) {ws : Socket} (hws : sound → ws.Sound)
    (hshut : sound → y.closed = false) : Steady strict sound (y.dial o ws) := by
  refine (h.toBase.congr ht hn hf hconns hcur).dial (fun k hk hr => ?_) hp hws
    (fun hs => hconns ▸ h.gone hs hc' hc) hshut
  refine (h.free_of_phase rfl hk hr ?_).mono ht.subset
  cases k with
  | retryTimer => exact absurd rfl hr
  | dialTimer => exact hc
  | stableTimer => exact hc'

theorem Steady.resume (h : Steady strict sound x) {ws : Socket} (hws : sound → ws.Sound) :
    Steady strict sound (x.resume o ws) := by
  unfold Transport.resume
  split_ifs with hskip
  · exact h
  · simp only [Bool.or_eq_true, not_or, Bool.not_eq_true] at hskip
    dsimp only
    split_ifs with hphase
    · have hp : x.phase = .paused := hphase
      exact h.dialed (y := { x with paused := false, attempt := 0 }) (by rw [hp]; decide)
        (by rw [hp]; decide) (.refl _) rfl (fun k => by cases k <;> rfl) rfl rfl rfl hws
        fun _ => hskip.1
    · exact ⟨h.toBase.congr (.refl _) rfl (fun k => by cases k <;> rfl) rfl rfl, h.fits,
        fun hf => ⟨rfl, (h.retry hf).2⟩, h.waiting, h.dial, h.dialing, h.stable, nofun, h.closed,
        h.shut⟩

theorem Steady.retryNow (h : Steady strict sound x) {ws : Socket} (hws : sound → ws.Sound) :
    Steady strict sound (x.retryNow o ws) := by
  unfold Transport.retryNow
  split_ifs with hskip
  · exact h
  · simp only [Bool.or_eq_true, not_or, Bool.not_eq_true] at hskip
    obtain ⟨⟨hclosed, hpaused⟩, -⟩ := hskip
    split
    · rename_i hp
      exact h.dialed (by rw [hp]; decide) (by rw [hp]; decide) (.refl _) rfl
        (fun _ => rfl) rfl rfl hpaused hws fun _ => hclosed
    · rename_i hp
      exact h.dialed (by rw [hp]; nofun) (by rw [hp]; nofun) (.refl _) rfl
        (fun _ => rfl) rfl rfl hpaused hws fun _ => hclosed
    · exact h

theorem Steady.pause (h : Steady strict sound x) : Steady strict sound (x.pause o) := by
  unfold Transport.pause
  split_ifs with hskip
  · exact h
  · simp only [Bool.or_eq_true, not_or, Bool.not_eq_true] at hskip
    obtain ⟨⟨hclosed, -⟩, -⟩ := hskip
    have hb : Base strict sound ({ x with paused := true }.clearTimer .retryTimer) :=
      Base.clearTimer (x := { x with paused := true })
        (h.toBase.congr (.refl _) rfl (fun k => by cases k <;> rfl) rfl rfl) _
    have hretry : Free ({ x with paused := true }.clearTimer .retryTimer) .retryTimer :=
      Owned.free_clearTimer (x := { x with paused := true }) (h.owned _ kept_retry)
    have hfree : ∀ j, Kept strict j → x.phase ≠ home j ∨ j = .retryTimer →
        Free ({ x with paused := true }.clearTimer .retryTimer) j := by
      intro j hj hne
      by_cases hr : j = .retryTimer
      · subst hr; exact hretry
      · exact Free.clearTimer (x := { x with paused := true })
          (h.free_of_phase rfl hj hr (hne.resolve_right hr)) _
    have hopen : x.closed = true → False := fun hc => by cases hclosed.symm.trans hc
    dsimp only
    split
    · -- a scheduled redial is cancelled
      rename_i hp
      have hp' : x.phase = .waiting := hp
      refine Base.steady_free (hb.congr (.refl _) rfl (fun k => by cases k <;> rfl) rfl rfl) .paused
        rfl (.of_dead (by decide) (by decide) (h.retry (h.waiting hp')).2.1) (fun k hk => ?_)
        (by decide) (fun _ => by decide) nofun fun _ hc => (hopen hc).elim
      refine hfree k hk ?_
      rw [hp']
      cases k with
      | retryTimer => exact .inr rfl
      | dialTimer | stableTimer => exact .inl (by decide)
    · -- a dial in its handshake is aborted
      rename_i hp
      have hp' : x.phase = .connecting := hp
      obtain ⟨conns, heq, hbase, hdead⟩ := (hb.clearTimer .dialTimer).closeCurrent dialPaused
      rw [heq]
      refine Base.steady_free (hbase.congr (.refl _) rfl (fun k => by cases k <;> rfl) rfl rfl)
        .paused rfl (.of_dead (by decide) (by decide) hdead) (fun k hk => ?_) (by decide)
        (fun _ => by decide) nofun fun _ hc => (hopen hc).elim
      by_cases hd : k = .dialTimer
      · subst hd
        exact (hb.owned _ kept_dial).free_clearTimer
      · refine (hfree k hk (.inl ?_)).clearTimer _
        rw [hp']
        exact fun he => hd (home_injective (show home k = home .dialTimer from he.symm))
    · rename_i hw hc
      have hmono : ∀ {j : TimerField},
          ¬ Free ({ x with paused := true }.clearTimer .retryTimer) j → ¬ Free x j :=
        fun hf hfree => hf (Free.clearTimer (x := { x with paused := true }) hfree _)
      exact ⟨hb, h.fits, fun hf => absurd hretry hf, fun hp => absurd hp hw,
        fun hf => h.dial (hmono hf),
        fun t ht => h.dialing t (clearTimer_subset { x with paused := true } _ ht),
        fun hs hf => h.stable hs (hmono hf), fun _ => ⟨hw, hc⟩, h.closed, h.shut⟩

theorem Steady.close (h : Steady strict sound x) : Steady strict sound x.close := by
  unfold Transport.close
  split_ifs with hskip
  · exact h
  · dsimp only
    have h₀ : Base strict sound { x with closed := true } :=
      h.toBase.congr (.refl _) rfl (fun k => by cases k <;> rfl) rfl rfl
    have hb := ((h₀.clearTimer .retryTimer).clearTimer .dialTimer).clearTimer .stableTimer
    obtain ⟨conns, heq, hbase, hdead⟩ := hb.closeCurrent transportClosed
    rw [heq]
    refine Base.steady_free (hbase.congr (.refl _) rfl (fun k => by cases k <;> rfl) rfl rfl)
      .closed rfl (.of_dead (by decide) (by decide) hdead) (fun k hk => ?_) (by decide)
      (fun _ => by decide) (fun _ => rfl) fun _ _ => rfl
    cases k with
    | retryTimer =>
        exact (((h₀.owned _ hk).free_clearTimer).clearTimer .dialTimer).clearTimer .stableTimer
    | dialTimer =>
        exact (((h₀.owned _ hk).clearTimer .retryTimer).free_clearTimer).clearTimer .stableTimer
    | stableTimer =>
        exact (((h₀.owned _ hk).clearTimer .retryTimer).clearTimer .dialTimer).free_clearTimer

/-! ## Events of a mux -/

section Events

variable {i : ℕ} {a : Ledger.Act} {random : ℕ} {c c' : Conn}

/-- A mux changes without its owner noticing. -/
theorem Steady.setConn (h : Steady strict sound x) (hc : x.conns[i]? = some c)
    (hhook : c'.lifecycle = c.lifecycle ∨ c'.lifecycle = false ∧ c'.mux.defunct = true)
    (hdead : c.mux.defunct = true → c'.mux.defunct = true)
    (hsame : x.current = some i → c'.mux.isOpen = c.mux.isOpen ∧
      c'.mux.defunct = c.mux.defunct) : Steady strict sound (x.setConn i c') := by
  have hmem := List.mem_of_getElem? hc
  have hbase : Base strict sound (x.setConn i c') := by
    refine h.toBase.setConn i (fun hl => ?_) (fun hs hd => ?_)
      fun hs hcur => hdead (h.stale hs i c hc hcur)
    · rcases hhook with he | ⟨-, hd⟩
      · rw [he]
        refine h.hooked c hmem (Bool.eq_false_iff.2 fun hd => ?_)
        rw [hdead hd] at hl
        cases hl
      · rw [hd] at hl
        cases hl
    · rcases hhook with he | ⟨hf, -⟩
      · rw [he]
        refine h.unhooked hs c hmem ?_
        by_cases hcur : x.current = some i
        · rw [← (hsame hcur).2, hd]
        · exact h.stale hs i c hc hcur
      · exact hf
  by_cases hcur : x.current = some i
  · have hm := mux_eq_some hcur hc
    have hm' := setConn_mux hcur hc c'
    obtain ⟨hopen, hdef⟩ := hsame hcur
    have hgone : x.Dead → (x.setConn i c').Dead := fun hx n hn => by
      obtain rfl : c'.mux = n := Option.some.inj (hm'.symm.trans hn)
      exact hdead (hx _ hm)
    refine ⟨hbase, ⟨?_, fun hs hp => ⟨_, hm', ?_⟩, fun hs hp hp' => hgone (h.fits.down hs hp hp')⟩,
      fun hf => ?_, h.waiting, h.dial, h.dialing, h.stable, h.paused, h.closed, h.shut⟩
    · refine h.fits.opened.trans ?_
      rw [hm', hm]
      simp [hopen]
    · obtain ⟨n, hn, hl⟩ := h.fits.connecting hs hp
      obtain rfl : c.mux = n := Option.some.inj (hm.symm.trans hn)
      exact hdef.trans hl
    · obtain ⟨hp, hx, hphase⟩ := h.retry hf
      exact ⟨hp, hgone hx, hphase⟩
  · have hm' : (x.setConn i c').mux = x.mux := setConn_mux_of_ne hcur
    refine ⟨hbase, ?_, ?_, h.waiting, h.dial, h.dialing, h.stable, h.paused, h.closed, h.shut⟩
    · rw [hm']
      exact h.fits
    · unfold Dead
      rw [hm']
      exact h.retry

theorem Steady.onMux (h : Steady strict sound x) (ha : ∀ err, a ≠ .close err)
    (hopen : strict → ∀ got c, a = .onopen got → x.conns[i]? = some c → c.mux.opened = false)
    (hstep : x.onMux size o i a random = some y) : Steady strict sound y := by
  obtain ⟨c, n, hc, ⟨l, rfl, hhook, hdead, hsame⟩ | ⟨hcur, hlive, hn, ⟨got, rfl⟩, rfl⟩ |
    ⟨hcur, hl, hn, err, redial, hredial, -, rfl⟩⟩ := onMux_cases h.hooked ha hstep
  · exact h.setConn hc hhook hdead hsame
  all_goals
    have hm := mux_eq_some hcur hc
    have hretry : c.mux.defunct = false → Free x .retryTimer := fun hlive => by
      by_contra hf
      rw [(h.retry hf).2.1 _ hm] at hlive
      cases hlive
    have hshut : sound → c.mux.defunct = false → x.closed = false := fun hs hlive => by
      refine Bool.eq_false_iff.2 fun hclosed => ?_
      rcases (hm ▸ h.fits).live hs hlive with hp | hp <;> cases hp.symm.trans (h.shut hs hclosed)
  · have hndef : n.defunct = false := by
      simpa [Mux.isOpen] using (Bool.and_eq_true_iff.1 hn).2
    refine (h.toBase.setConn i (fun _ => rfl) (fun _ hd => ?_) fun _ hne => absurd hcur hne).onOpen
      ⟨n, setConn_mux hcur hc _, hn⟩ (hretry hlive) (fun hs => ?_) fun hs => hshut hs hlive
    · rw [hndef] at hd
      cases hd
    -- a socket that opens for the first time does so on a mux that is not open
    by_contra hf
    obtain ⟨m, hm', hmo⟩ := h.fits.opened.1 (h.stable hs hf)
    rw [hm] at hm'
    cases hm'
    simp [Mux.isOpen, hopen hs got c rfl hc] at hmo
  · -- with hooks, and sound sockets, the mux was live
    have hwas : sound → c.mux.defunct = false := fun hs => by
      refine Bool.eq_false_iff.2 fun hd => ?_
      rw [h.unhooked hs c (List.mem_of_getElem? hc) hd] at hl
      cases hl
    refine (h.toBase.setConn i (fun hf => ?_) (fun _ _ => rfl) fun _ _ => hn).afterDrop
      (fun m hm' => ?_) (fun hr => hretry (hr.elim hredial hwas)) (fun hf => (h.retry hf).1)
      (fun hs => hshut hs (hwas hs)) err random
    · rw [hn] at hf
      cases hf
    · rw [setConn_mux hcur hc] at hm'
      cases hm'
      exact hn

/-! ## Timers that fire -/

theorem Steady.onTimer (h : Steady strict sound x) {id : ℕ} {ws : Socket} (hws : sound → ws.Sound)
    (hstep : x.onTimer o id ws random = some y) : Steady strict sound y := by
  obtain ⟨t, hfind, rfl⟩ := Option.map_eq_some_iff.1 hstep
  obtain ⟨ht, rfl⟩ := timer_of_find? hfind
  have hsub : (x.timers.filter fun u => u.id ≠ t.id).Sublist x.timers := List.filter_sublist
  have hopen : ∀ {p}, x.phase = p → p ≠ .closed → sound → x.closed = false := fun hp hne hs =>
    Bool.eq_false_iff.2 fun hc => hne (hp.symm.trans (h.shut hs hc))
  have howned : ∀ {z : Transport}, z.timers = (x.timers.filter fun u => u.id ≠ t.id) →
      (∀ k, k ≠ t.callback.field → z.timerOf k = x.timerOf k) →
      ∀ k, Kept strict k → Owned z k := by
    intro z hz hf k hk
    by_cases hkt : k = t.callback.field
    · exact ((h.owned k hk).free_fired ht hkt.symm (hz ▸ List.Subset.refl _)).owned
    · exact (h.owned k hk).mono (hz ▸ hsub.subset) (hf k hkt)
  dsimp only
  split
  · rename_i hcb
    have harmed : ¬ Free x .retryTimer := fun hf => hf t ht (by rw [hcb]; rfl)
    obtain ⟨hp, -, hphase⟩ := h.retry harmed
    have hne : x.phase ≠ .connecting ∧ x.phase ≠ .connected ∧ x.phase ≠ .closed := by
      rcases hphase with hw | ⟨-, e, he⟩
      · rw [hw]; decide
      · rw [he]; exact ⟨nofun, nofun, nofun⟩
    exact h.dialed (y := { x with timers := x.timers.filter fun u => u.id ≠ t.id }) hne.1 hne.2.1
      hsub rfl (fun k => by cases k <;> rfl) rfl rfl hp hws (hopen rfl hne.2.2)
  · rename_i i hcb
    have hfield : t.callback.field = .dialTimer := by rw [hcb]; rfl
    have hphase : x.phase = .connecting := h.dial fun hf => hf t ht hfield
    have hcur : x.current = some i := h.dialing t ht i hcb
    have hretry : Free x .retryTimer := by
      by_contra hf
      rcases (h.retry hf).2.2 with hw | ⟨-, e, he⟩
      · cases hphase.symm.trans hw
      · cases hphase.symm.trans he
    have hbase : Base strict sound
        { x with timers := x.timers.filter fun u => u.id ≠ t.id, dialTimer := none } := by
      refine ⟨fun u hu => h.ids u (hsub.subset hu), h.nodup.sublist (hsub.map _), ?_, h.here,
        h.hooked, h.unhooked, h.stale⟩
      refine howned rfl fun k hk => ?_
      rw [hfield] at hk
      cases k <;> first | rfl | exact absurd rfl hk
    obtain ⟨conns, heq, hb, hdead⟩ := hbase.closeCurrent dialTimeout
    have hclose : Transport.closeMux
        { x with timers := x.timers.filter fun u => u.id ≠ t.id, dialTimer := none } i dialTimeout =
        { x with timers := x.timers.filter fun u => u.id ≠ t.id, dialTimer := none, conns } := by
      rw [← heq]
      simp [hcur]
    rw [hclose]
    exact hb.afterDrop hdead (fun _ => hretry.mono hsub.subset)
      (fun hf => absurd (hretry.mono hsub.subset) hf) (hopen hphase (by decide)) _ _
  · rename_i hcb
    have hfield : t.callback.field = .stableTimer := by rw [hcb]; rfl
    have hmono : ∀ {z : Transport} {k : TimerField},
        z.timers = (x.timers.filter fun u => u.id ≠ t.id) → ¬ Free z k → ¬ Free x k :=
      fun hz hf hfree => hf (hfree.mono (hz ▸ hsub.subset))
    refine ⟨⟨fun u hu => h.ids u (hsub.subset hu), h.nodup.sublist (hsub.map _), ?_, h.here,
        h.hooked, h.unhooked, h.stale⟩, h.fits, fun hf => h.retry (hmono rfl hf), fun hw hno => ?_,
      fun hf => h.dial (hmono rfl hf), fun u hu => h.dialing u (hsub.subset hu),
      fun hs hf => h.stable hs (hmono rfl hf), h.paused, h.closed, h.shut⟩
    · refine howned rfl fun k hk => ?_
      rw [hfield] at hk
      cases k <;> first | rfl | exact absurd rfl hk
    · -- the redial has another id
      refine h.waiting hw fun u hu hk => hno u (List.mem_filter.2 ⟨hu, ?_⟩) hk
      refine decide_eq_true fun hid => ?_
      obtain rfl := List.inj_on_of_nodup_map h.nodup hu ht hid
      cases hk.symm.trans hfield

end Events

/-! ## Steps -/

variable {l : Label}

/-- **Every step keeps the invariant.** -/
theorem Steady.step (h : Steady strict sound x) (hws : sound → l.socket.Sound)
    (hfresh : strict → fresh x l = true) (hstep : x.step size o l = some y) :
    Steady strict sound y := by
  obtain ⟨-, rfl⟩ | ⟨-, rfl⟩ | ⟨-, rfl⟩ | ⟨-, rfl⟩ | ⟨id, -, htimer⟩ | rfl |
    ⟨i, a, hclose, hact, hmux⟩ := step_cases hstep
  · exact h.pause
  · exact h.resume hws
  · exact h.retryNow hws
  · exact h.close
  · exact h.onTimer hws htimer
  · exact h
  · exact h.onMux hclose (fun hs got c ha hc => opened_of_fresh (hfresh hs) (hact got ha) hc) hmux

/-- A transport without timers and connections. -/
theorem base_of_empty (ht : x.timers = []) (hc : x.current = none) (hconns : x.conns = []) :
    Base strict sound x where
  ids := by simp [ht]
  nodup := by simp [ht]
  owned k _ := by simp [Owned, ht]
  here := by simp [hc]
  hooked := by simp [hconns]
  unhooked := by simp [hconns]
  stale := by simp [hconns]

theorem free_of_empty (ht : x.timers = []) (k : TimerField) : Free x k := by
  simp [Free, ht]

/-- A fresh transport. -/
theorem Steady.start {paused : Bool} {ws : Socket} (hws : sound → ws.Sound) :
    Steady strict sound (start o paused ws) := by
  have hbase : Base strict sound ({} : Transport) := base_of_empty rfl rfl rfl
  have hfree : ∀ k, Kept strict k → Free {} k := fun k _ => free_of_empty rfl k
  have hgone : sound → ∀ c ∈ ({} : Transport).conns, c.mux.defunct = true := fun _ _ hc => by cases hc
  unfold Transport.start
  split_ifs
  · unfold new
    split_ifs
    · exact (base_of_empty rfl rfl rfl).steady_free .paused rfl
        (.of_dead (by decide) (by decide) fun _ hm => by cases hm) (fun k _ => free_of_empty rfl k)
        (by decide) (fun _ => by decide) nofun nofun
    · exact hbase.dial (fun k hk _ => hfree k hk) rfl hws hgone fun _ => rfl
  · exact hbase.attach hfree rfl hws hgone fun _ => rfl

end WsProto.Ts.Transport
