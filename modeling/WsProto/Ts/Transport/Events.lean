import WsProto.Ts.Transport.Notice
import WsProto.Ts.Transport.Timers

/-!
# What can happen to a transport

The connections of a transport, the hooks of its mux, and what a step is: a call, a timer
that fires, or an event of a mux (`step_cases`).
-/

namespace WsProto.Ts

/-- A socket that is handed over already open speaks the protocol. -/
def Socket.Sound (ws : Socket) : Prop := ws.ready = true → ws.got = none

instance (ws : Socket) : Decidable ws.Sound :=
  inferInstanceAs (Decidable (ws.ready = true → ws.got = none))

namespace Transport

variable {o : Options} {x y : Transport} {m : Mux} {i : ℕ} {c c' : Conn}

/-! ## Connections -/

theorem mux_eq_some (hcur : x.current = some i) (hc : x.conns[i]? = some c) :
    x.mux = some c.mux := by
  rw [mux, hcur, Option.bind_some, hc, Option.map_some]

/-- The current mux, and its place. -/
theorem exists_conn (hm : x.mux = some m) :
    ∃ (i : ℕ) (c : Conn), x.current = some i ∧ x.conns[i]? = some c ∧ c.mux = m := by
  obtain ⟨c, hc, rfl⟩ := Option.map_eq_some_iff.1 hm
  obtain ⟨i, hi, hci⟩ := Option.bind_eq_some_iff.1 hc
  exact ⟨i, c, hi, hci, rfl⟩

theorem setConn_get_self (hc : x.conns[i]? = some c) : (x.setConn i c').conns[i]? = some c' := by
  obtain ⟨hlt, -⟩ := List.getElem?_eq_some_iff.1 hc
  exact List.getElem?_set_self hlt

theorem setConn_get_of_ne {n : ℕ} (hn : i ≠ n) : (x.setConn i c').conns[n]? = x.conns[n]? :=
  List.getElem?_set_ne hn

theorem setConn_setConn (x : Transport) (i : ℕ) (c c' : Conn) :
    (x.setConn i c).setConn i c' = x.setConn i c' := by
  simp only [setConn, List.set_set]

/-- What the transport sees of its own mux. -/
theorem setConn_mux (hcur : x.current = some i) (hc : x.conns[i]? = some c) (c' : Conn) :
    (x.setConn i c').mux = some c'.mux :=
  mux_eq_some (x := x.setConn i c') hcur (setConn_get_self hc)

/-- What the transport sees of a mux that is not its own. -/
theorem setConn_mux_of_ne (hcur : x.current ≠ some i) : (x.setConn i c').mux = x.mux := by
  cases hn : x.current with
  | none => rw [mux, mux, show (x.setConn i c').current = none from hn, hn]; rfl
  | some n =>
      rw [mux, mux, show (x.setConn i c').current = some n from hn, hn, Option.bind_some,
        Option.bind_some, setConn_get_of_ne]
      rintro rfl
      exact hcur hn

/-! ## Dialing -/

/-- The mux of a sound socket lives, and is open if the socket is. -/
theorem new_flags {ws : Socket} (hws : ws.Sound) (w b f : ℤ) :
    (Mux.new w b f ws.ready ws.got).opened = ws.ready ∧
      (Mux.new w b f ws.ready ws.got).defunct = false := by
  unfold Mux.new
  cases hr : ws.ready with
  | false => exact ⟨rfl, rfl⟩
  | true =>
      rw [hws hr]
      exact ⟨rfl, rfl⟩

/-- A new connection, before its phase is set. -/
def join (x : Transport) (m : Mux) : Transport :=
  { x with conns := x.conns ++ [({ mux := m } : Conn)], current := some x.conns.length }

theorem join_mux (x : Transport) (m : Mux) : (x.join m).mux = some m :=
  mux_eq_some (c := { mux := m }) rfl List.getElem?_concat_length

/-- An `attach` that leaves the transport connecting arms nothing. -/
theorem attach_connecting {ws : Socket} (hp : (x.attach o ws).phase = .connecting) :
    ∃ m, x.attach o ws = (x.join m).setState .connecting := by
  unfold Transport.attach at hp ⊢
  dsimp only at hp ⊢
  split_ifs at hp ⊢
  · cases hp
  · exact ⟨_, rfl⟩

/-! ## Closing a mux -/

theorem defunct_close (m : Mux) (err : WsStatusError) : (m.close err).defunct = true := by
  unfold Mux.close
  split_ifs with hclosed
  · rw [Mux.defunct, hclosed, Bool.true_or]
  · rfl

theorem closeMux_rest (x : Transport) (i : ℕ) (err : WsStatusError) :
    ∃ conns : List Conn, conns.length = x.conns.length ∧ x.closeMux i err = { x with conns } := by
  unfold closeMux
  split
  · exact ⟨x.conns, rfl, rfl⟩
  · exact ⟨_, List.length_set, rfl⟩

/-- `this.mux?.close(err)` leaves no live mux. -/
theorem closeCurrent_rest (x : Transport) (err : WsStatusError) :
    ∃ conns : List Conn, conns.length = x.conns.length ∧
      (x.current.map (x.closeMux · err)).getD x = { x with conns } ∧
      ((∀ i, x.current = some i → i < x.conns.length) →
        ∀ m, mux { x with conns } = some m → m.defunct = true) := by
  obtain hcur | ⟨i, hcur⟩ := Option.eq_none_or_eq_some x.current
  · have hclose : (x.current.map (x.closeMux · err)).getD x = x := by rw [hcur]; rfl
    refine ⟨x.conns, rfl, hclose, fun _ m hm => ?_⟩
    obtain ⟨i, c, hi, -⟩ := exists_conn hm
    cases hi.symm.trans hcur
  · have hclose : (x.current.map (x.closeMux · err)).getD x = x.closeMux i err := by
      rw [hcur]; rfl
    obtain ⟨conns, hlen, heq⟩ := closeMux_rest x i err
    refine ⟨conns, hlen, hclose.trans heq, fun here m hm => ?_⟩
    have hc := List.getElem?_eq_getElem (here i hcur)
    rw [← heq, closeMux, hc, setConn_mux hcur hc] at hm
    cases hm
    exact defunct_close _ err

/-! ## Events of a mux -/

section Events

variable {size : Frame → ℕ} {a : Ledger.Act} {random : ℕ}

/-- What an event of a mux comes down to. -/
theorem onMux_eq (h : x.onMux size o i a random = some y) :
    ∃ c z, x.conns[i]? = some c ∧ Ledger.call size c.mux a = some z ∧
      y = ((notice c.mux a z.1).map
        ((x.setConn i { c with mux := z.1 }).notify o i · random)).getD
          (x.setConn i { c with mux := z.1 }) := by
  obtain ⟨c, hc, h⟩ := Option.bind_eq_some_iff.1 h
  obtain ⟨z, hz, rfl⟩ := Option.map_eq_some_iff.1 h
  exact ⟨c, z, hc, hz, rfl⟩

theorem notify_opened_eq (hc : x.conns[i]? = some c) :
    x.notify o i .opened random =
      if c.lifecycle = true ∧ x.current = some i then x.onOpen o else x := by
  rw [notify, hc]
  by_cases hl : c.lifecycle = true <;> by_cases hcur : x.current = some i <;> simp [hl, hcur]

theorem notify_drop_eq (hc : x.conns[i]? = some c) (err : WsStatusError) (redial : Bool) :
    x.notify o i (.drop err redial) random =
      if c.lifecycle = true then
        if x.current = some i then
          (x.setConn i { c with lifecycle := false }).afterDrop o err redial random
        else x.setConn i { c with lifecycle := false }
      else x := by
  rw [notify, hc]
  rfl

theorem notice_opened {n : Mux} (h : notice m a n = some .opened) : ∃ got, a = .onopen got := by
  cases a with
  | onopen got => exact ⟨got, rfl⟩
  | drop =>
      simp only [notice] at h
      split_ifs at h
      cases h
  | message len f =>
      simp only [notice] at h
      split_ifs at h <;> cases h
  | _ =>
      simp only [notice] at h
      split_ifs at h
      cases h

/-- A mux that is gone reports at most a permanent failure. -/
theorem notice_of_defunct {m m' : Mux} (hd : m.defunct = true) :
    notice m a m' = none ∨ ∃ err, notice m a m' = some (.drop err false) := by
  cases a with
  | onopen got => left; simp [notice, hd]
  | drop => left; simp [notice, hd]
  | message len f =>
      simp only [notice]
      split_ifs
      · exact .inr ⟨_, rfl⟩
      · exact .inr ⟨_, rfl⟩
      · exact .inl rfl
  | _ =>
      simp only [notice]
      split_ifs
      · exact .inr ⟨_, rfl⟩
      · exact .inl rfl

/-- **What an event of a mux does to its transport**: nothing that the transport notices, or
one call of a hook of the current mux. -/
theorem onMux_cases (hooked : ∀ c ∈ x.conns, c.mux.defunct = false → c.lifecycle = true)
    (ha : ∀ err, a ≠ .close err) (hstep : x.onMux size o i a random = some y) :
    ∃ c n, x.conns[i]? = some c ∧
      ((∃ l, y = x.setConn i { mux := n, lifecycle := l } ∧
          (l = c.lifecycle ∨ l = false ∧ n.defunct = true) ∧
          (c.mux.defunct = true → n.defunct = true) ∧
          (x.current = some i → n.isOpen = c.mux.isOpen ∧ n.defunct = c.mux.defunct)) ∨
        (x.current = some i ∧ c.mux.defunct = false ∧ n.isOpen = true ∧ (∃ got, a = .onopen got) ∧
          y = (x.setConn i { mux := n, lifecycle := true }).onOpen o) ∨
        (x.current = some i ∧ c.lifecycle = true ∧ n.defunct = true ∧ ∃ err redial,
          (redial = true → c.mux.defunct = false) ∧
          (c.mux.defunct = false → n.closed = !redial) ∧
          y = (x.setConn i { mux := n, lifecycle := false }).afterDrop o err redial random)) := by
  obtain ⟨c, z, hc, hz, rfl⟩ := onMux_eq hstep
  obtain ⟨hdead, hreport⟩ := call_reports hz ha
  have hself : (x.setConn i { c with mux := z.1 }).conns[i]? = some { c with mux := z.1 } :=
    setConn_get_self hc
  refine ⟨c, z.1, hc, ?_⟩
  by_cases hd : c.mux.defunct = true
  · -- only a late permanent failure of a mux that was dead from the start is heard
    have hn := hdead hd
    have hsame : x.current = some i → z.1.isOpen = c.mux.isOpen ∧ z.1.defunct = c.mux.defunct :=
      fun _ => by simp [Mux.isOpen, hn, hd]
    have hnotice : notice c.mux a z.1 = none ∨ ∃ err, notice c.mux a z.1 = some (.drop err false) :=
      notice_of_defunct hd
    rcases hnotice with hno | ⟨err, hdrop⟩
    · rw [hno]
      exact .inl ⟨c.lifecycle, rfl, .inl rfl, fun _ => hn, hsame⟩
    · rw [hdrop, Option.map_some, Option.getD_some, notify_drop_eq hself, setConn_setConn]
      split_ifs with hl hcur
      · exact .inr (.inr ⟨hcur, hl, hn, err, false, Bool.noConfusion, fun hf => by simp [hd] at hf,
          rfl⟩)
      · exact .inl ⟨false, rfl, .inr ⟨rfl, hn⟩, fun _ => hn, hsame⟩
      · exact .inl ⟨c.lifecycle, rfl, .inl rfl, fun _ => hn, hsame⟩
  · have hd' : c.mux.defunct = false := Bool.eq_false_iff.2 hd
    have hl : c.lifecycle = true := hooked c (List.mem_of_getElem? hc) hd'
    have hrep := hreport hd'
    cases hn : notice c.mux a z.1 with
    | none =>
        rw [hn] at hrep
        refine .inl ⟨c.lifecycle, rfl, .inl rfl, fun hf => absurd hf hd, fun _ => ?_⟩
        rw [Mux.isOpen, Mux.isOpen, hrep.1, defunct_eq_false.2 hrep.2, hd']
        exact ⟨rfl, rfl⟩
    | some n =>
        rw [hn] at hrep
        rw [Option.map_some, Option.getD_some]
        cases n with
        | opened =>
            rw [notify_opened_eq hself]
            split_ifs with hboth
            · refine .inr (.inl ⟨hboth.2, hd', ?_, notice_opened hn, by rw [hl]⟩)
              rw [Mux.isOpen, hrep.1, defunct_eq_false.2 hrep.2]
              rfl
            · exact .inl ⟨c.lifecycle, rfl, .inl rfl, fun hf => absurd hf hd,
                fun hcur => absurd ⟨hl, hcur⟩ hboth⟩
        | drop err redial =>
            rw [notify_drop_eq hself, setConn_setConn, if_pos hl]
            split_ifs with hcur
            · exact .inr (.inr ⟨hcur, hl, hrep.1, err, redial, fun _ => hd', fun _ => hrep.2, rfl⟩)
            · exact .inl ⟨false, rfl, .inr ⟨rfl, hrep.1⟩, fun hf => absurd hf hd,
                fun he => absurd he hcur⟩

end Events

/-! ## Steps -/

section Steps

variable {size : Frame → ℕ} {l : Label}

/-- No mux is closed from the outside. -/
theorem outside_ne_close {a : Ledger.Act} (ha : outside a = true) (err : WsStatusError) :
    a ≠ .close err := by
  rintro rfl
  cases ha

/-- A socket fires `open` only while its mux is not open. -/
def fresh (x : Transport) (l : Label) : Bool :=
  match l.act with
  | .mux i (.onopen _) => (x.conns[i]?).all fun c => !c.mux.opened
  | _ => true

/-- **What a step is**: a call, an armed timer that fires, or an event of a mux that is
none of its own `close`. -/
theorem step_cases (h : x.step size o l = some y) :
    (l.act = .pause ∧ y = x.pause o) ∨
    (l.act = .resume ∧ y = x.resume o l.socket) ∨
    (l.act = .retryNow ∧ y = x.retryNow o l.socket) ∨
    (l.act = .close ∧ y = x.close) ∨
    (∃ id, l.act = .fire id ∧ x.onTimer o id l.socket l.random = some y) ∨
    y = x ∨
    ∃ i a, (∀ err, a ≠ .close err) ∧ (∀ got, a = .onopen got → l.act = .mux i (.onopen got)) ∧
      x.onMux size o i a l.random = some y := by
  unfold Transport.step at h
  cases hact : l.act with
  | pause =>
      rw [hact] at h
      exact .inl ⟨rfl, (Option.some.inj h).symm⟩
  | resume =>
      rw [hact] at h
      exact .inr (.inl ⟨rfl, (Option.some.inj h).symm⟩)
  | retryNow =>
      rw [hact] at h
      exact .inr (.inr (.inl ⟨rfl, (Option.some.inj h).symm⟩))
  | close =>
      rw [hact] at h
      exact .inr (.inr (.inr (.inl ⟨rfl, (Option.some.inj h).symm⟩)))
  | fire id =>
      rw [hact] at h
      exact .inr (.inr (.inr (.inr (.inl ⟨id, rfl, h⟩))))
  | openStream method headers aborted =>
      rw [hact] at h
      dsimp only at h
      refine .inr (.inr (.inr (.inr (.inr ?_))))
      split at h
      · exact .inl (Option.some.inj h).symm
      · rename_i i _
        exact .inr ⟨i, _, fun _ => Ledger.Act.noConfusion, fun got ha => (by cases ha), h⟩
  | mux i a =>
      rw [hact] at h
      dsimp only at h
      split_ifs at h with ha
      refine .inr (.inr (.inr (.inr (.inr (.inr ⟨i, a, outside_ne_close ha, ?_, h⟩)))))
      rintro got rfl
      rfl

/-- A step that opens a mux opens one that was not open. -/
theorem opened_of_fresh (hfresh : fresh x l = true) {i : ℕ} {got : Option Text} {c : Conn}
    (hact : l.act = .mux i (.onopen got)) (hc : x.conns[i]? = some c) : c.mux.opened = false := by
  rw [fresh, hact] at hfresh
  simpa [hc] using hfresh

end Steps

end Transport

end WsProto.Ts
