import WsProto.Lib.Simulation
import WsProto.Agree.MixedLink.Model

/-!
# A TypeScript client on a Go server: the simulation

A TypeScript end is a Go end whose critical sections come in certain groups.

* `exists_speak`, `exists_hear` — the groups: a send with its write, and a receive with its
  accounting and the write of the credit that falls due;
* `exists_pumpTurns`, `exists_send`, `exists_deliver_msg`, `exists_deliver_update`,
  `mirrors_recv`, `exists_resume` — every event of the client is a run of such groups;
* `exists_serverStep` — a critical section of the server is itself;
* `simulate_step` — so every step of the mixed link is a run of the Go link.
-/

namespace WsProto.Agree.MixedLink

open Machine Go.Flow

variable {W : ℤ} {size : Frame → ℕ}

/-! ## What the Go client does meanwhile -/

/-- From `l` to `l'` the client has come to `e`, written `out`, taken frames from its wire so
that `inb` is left, and said and heard something.  The server has done nothing. -/
structure Moves (l l' : Logged) (e : End) (out inb : List Frame) (said heard : List Payload) :
    Prop where
  here : l'.link.ends .client = e
  there : l'.link.ends .server = l.link.ends .server
  out : l'.link.wire .client = l.link.wire .client ++ out
  inb : l'.link.wire .server = inb
  sent : l'.sent .client = l.sent .client ++ said
  got : l'.got .client = l.got .client ++ heard
  sentServer : l'.sent .server = l.sent .server
  gotServer : l'.got .server = l.got .server

theorem Moves.refl (l : Logged) :
    Moves l l (l.link.ends .client) [] (l.link.wire .server) [] [] :=
  ⟨rfl, rfl, by simp, rfl, by simp, by simp, rfl, rfl⟩

theorem Moves.trans {l l' l'' : Logged} {e e' : End} {out out' inb inb' : List Frame}
    {said said' heard heard' : List Payload} (h : Moves l l' e out inb said heard)
    (h' : Moves l' l'' e' out' inb' said' heard') :
    Moves l l'' e' (out ++ out') inb' (said ++ said') (heard ++ heard') where
  here := h'.here
  there := h'.there.trans h.there
  out := by rw [h'.out, h.out, List.append_assoc]
  inb := h'.inb
  sent := by rw [h'.sent, h.sent, List.append_assoc]
  got := by rw [h'.got, h.got, List.append_assoc]
  sentServer := h'.sentServer.trans h.sentServer
  gotServer := h'.gotServer.trans h.gotServer

/-- One critical section of the client. -/
theorem exists_moves {l : Logged} {a : Act} {e : End} {o i : List Frame}
    (h : (l.link.port .client).act false a = some ⟨e, i, l.link.wire .client ++ o⟩) :
    ∃ l', Logged.step l (.client, a) = some l' ∧
      Moves l l' e o i a.said ((l.link.ends .client).heard a) := by
  have hstep : ∃ l', Logged.step l (.client, a) = some l' := by
    simp only [Logged.step, Link.step, show ((Side.client == Side.server) = false) from rfl, h,
      Option.map_some]
    exact ⟨_, rfl⟩
  obtain ⟨l', hl'⟩ := hstep
  obtain ⟨hl, hsent, hsent', hgot, hgot'⟩ := Logged.step_eq_some hl'
  obtain ⟨y, hy, hhere, hother, hout, hin⟩ := Link.step_eq_some hl
  obtain rfl : (⟨e, i, l.link.wire .client ++ o⟩ : Port) = y :=
    Option.some.inj (h.symm.trans hy)
  exact ⟨l', hl', hhere, hother, hout, hin, hsent, hgot, hsent', hgot'⟩

/-- A turn of `pump` is a send and its write. -/
theorem exists_speak {l : Logged} (hc : (l.link.ends .client).charged = [])
    (hid : (l.link.ends .client).stream.id = 1)
    (hw : 0 < (l.link.ends .client).stream.sendWindow) {p : Payload} (hp : Small p.length) :
    ∃ l', Reach Logged.step Calm l l' ∧
      Moves l l' { l.link.ends .client with
        stream := (l.link.ends .client).stream.chargeSend p.length } [Flow.msg p]
        (l.link.wire .server) [p] [] := by
  set e := l.link.ends .client with he
  -- the window is charged
  obtain ⟨l₁, hs₁, hm₁⟩ := exists_moves (l := l) (a := .sendRaw p)
    (e := { e with stream := e.stream.chargeSend p.length, charged := [p] }) (o := [])
    (i := l.link.wire .server) (by
      simp [Port.act, Link.port, ← he, Go.Stream.sendRaw, hw, hc, Side.other])
  -- and the frame is written
  obtain ⟨l₂, hs₂, hm₂⟩ := exists_moves (l := l₁) (a := .writeMsg 0)
    (e := { e with stream := e.stream.chargeSend p.length }) (o := [Flow.msg p])
    (i := l.link.wire .server) (by
      simp [Port.act, Link.port, hm₁.here, hm₁.inb, Side.other, hc, Go.Stream.msgFrame,
        Go.Stream.chargeSend, hid, Flow.msg])
  have hok₁ : Calm l (.client, .sendRaw p) := by
    refine ⟨fun i hi => ?_, ?_⟩
    · cases hi
    · rintro b ⟨⟩; exact hp
  have hok₂ : Calm l₁ (.client, .writeMsg 0) := by
    refine ⟨?_, fun b hb => ?_⟩
    · rintro i ⟨⟩; rfl
    · cases hb
  exact ⟨l₂, (Reach.refl.tail hok₁ hs₁).tail hok₂ hs₂, hm₁.trans hm₂⟩

/-- A step that neither sends nor writes a message. -/
def quiet : Act → Bool
  | .sendRaw _ | .writeMsg _ => false
  | _ => true

theorem calm_of_quiet (l : Logged) {p : Side} {a : Act} (h : quiet a = true) : Calm l (p, a) := by
  constructor
  · rintro i rfl
    cases h
  · rintro b rfl
    cases h

/-- A Go stream after the receive of its oldest message `f`, and the credit that falls due. -/
def taken (s : Go.Stream) (f : Frame) (rest : List Frame) : Go.Stream × UInt32 :=
  ({ s with recvItems := rest, recvBytes := s.recvBytes - f.payload.length } :
    Go.Stream).returnCredit f.payload.length

/-- The continuation of a `recv` is a receive, its accounting and the write of the credit
that falls due. -/
theorem exists_hear {l : Logged} {e : End} {f : Frame} {rest : List Frame}
    (he : l.link.ends .client = e) (hitems : e.stream.recvItems = f :: rest)
    (hpop : e.popped = []) (hdue : e.due = []) :
    ∃ l', Reach Logged.step Calm l l' ∧
      Moves l l' { e with stream := (taken e.stream f rest).1 }
        (if (taken e.stream f rest).2 = 0 then []
          else [e.stream.windowUpdate (taken e.stream f rest).2])
        (l.link.wire .server) [] [f.payload] := by
  obtain ⟨l₁, hs₁, hm₁⟩ := exists_moves (l := l) (a := .popRecv)
    (e := { e with
      stream := { e.stream with
        recvItems := rest, recvBytes := e.stream.recvBytes - f.payload.length }
      popped := [f] }) (o := []) (i := l.link.wire .server) (by
      simp [Port.act, Link.port, he, Go.Stream.popRecv, hitems, hpop, Side.other])
  obtain ⟨l₂, hs₂, hm₂⟩ := exists_moves (l := l₁) (a := .returnCredit 0)
    (e := { e with
      stream := (taken e.stream f rest).1
      due := if (taken e.stream f rest).2 = 0 then [] else [(taken e.stream f rest).2] })
    (o := []) (i := l.link.wire .server) (by
      simp only [Port.act, Link.port, hm₁.here, hm₁.inb, Side.other, hdue, hpop, taken,
        List.getElem?_cons_zero, Option.map_some, List.eraseIdx_cons_zero, List.nil_append,
        List.append_nil]
      rfl)
  have hheard : (l.link.ends .client).heard .popRecv = [f.payload] := by
    simp [End.heard, he, hitems]
  have hreach := (Reach.refl.tail (calm_of_quiet l rfl) hs₁).tail (calm_of_quiet l₁ rfl) hs₂
  have hmoves := hm₁.trans hm₂
  rw [hheard] at hmoves
  by_cases hd : (taken e.stream f rest).2 = 0
  · refine ⟨l₂, hreach, ?_⟩
    simpa [hd, Act.said, End.heard, hdue] using hmoves
  · -- the credit that falls due is written
    have hid : (taken e.stream f rest).1.id = e.stream.id := by
      obtain ⟨c, hc⟩ := Go.Stream.returnCredit_fst { e.stream with
        recvItems := rest, recvBytes := e.stream.recvBytes - f.payload.length } f.payload.length
      rw [taken, hc]
    obtain ⟨l₃, hs₃, hm₃⟩ := exists_moves (l := l₂) (a := .writeUpdate 0)
      (e := { e with stream := (taken e.stream f rest).1 })
      (o := [e.stream.windowUpdate (taken e.stream f rest).2])
      (i := l.link.wire .server) (by
        simp [Port.act, Link.port, hm₂.here, hm₂.inb, Side.other, hd, hdue,
          Go.Stream.windowUpdate, hid])
    refine ⟨l₃, hreach.tail (calm_of_quiet l₂ rfl) hs₃, ?_⟩
    simpa [hd, Act.said, End.heard] using hmoves.trans hm₃

/-! ## The events of the client -/

/-- The stream object and the frames written are all that changes. -/
theorem Holds.set {m : Ts.Mux} {s : Ts.StreamImpl} (hm : Holds W m s) (s' : Ts.StreamImpl)
    (sent : List Frame) : Holds W { m.setObj 0 s' with sent } s' := by
  have hlt : 0 < m.objs.length := (List.getElem?_eq_some_iff.1 hm.stream).1
  exact ⟨hm.opened, hm.live, hm.registered, hm.limit, by simp [Ts.Mux.setObj, hlt]⟩

/-- The relation after an event of the client that a Go client has matched. -/
theorem Mirrors.moves {x y : Mixed} {l l' : Logged} {e : End} {out : List Frame}
    {said heard : List Payload} (hx : Mirrors W x l) (hv : Moves l l' e out y.toClient said heard)
    (hserver : y.server = x.server) (hrouted : y.routed = x.routed)
    (hin : ∀ f ∈ y.toClient, f ∈ x.toClient) (hout : y.client.sent = x.client.sent ++ out)
    (hsent : y.sent .server = x.sent .server) (hgot : y.got .server = x.got .server)
    (hheard : y.got .client = x.got .client ++ heard)
    (hclient : ∃ s h, Holds W y.client s ∧ Shadows W s h e ∧
      y.got .client = h.accepted.take s.resumed ∧
      y.sent .client = l.sent .client ++ said ++ s.outbound) : Mirrors W y l' where
  server := by rw [hv.there, hx.server, hserver]
  serverId := by rw [hserver]; exact hx.serverId
  toClient := hv.inb
  toServer := by
    rw [hv.out, hx.toServer, Mixed.toServer, Mixed.toServer, hout, hrouted,
      List.drop_append_of_le_length hx.routed]
  routed := by
    rw [hout, hrouted, List.length_append]
    exact Nat.le_add_right_of_le hx.routed
  frames := fun f hf => hx.frames f (hin f hf)
  client := by
    obtain ⟨s, h, hold, hsh, hg, hs⟩ := hclient
    exact ⟨s, h, hold, hv.here ▸ hsh, hg, by rw [hv.sent, hs]⟩
  gotServer := by rw [hv.gotServer, hx.gotServer, hgot]
  gotClient := by rw [hv.got, hx.gotClient, hheard]
  sentServer := by rw [hv.sentServer, hx.sentServer, hsent]

/-- Nothing waits in the client while its window is open. -/
def Pumped (m : Ts.Mux) : Prop := ∀ s ∈ m.objs[0]?, 0 < s.sendWindow → s.outbound = []

/-- A stream whose oldest payload `p` has been taken by `pump`. -/
def spent (s : Ts.StreamImpl) (p : Payload) (rest : List Payload) : Ts.StreamImpl :=
  { s with
    outbound := rest
    outboundBytes := s.outboundBytes - p.length
    sendWindow := s.sendWindow - p.length }

/-- One turn of `pump`: there is nothing it could send, or it sends the oldest payload. -/
theorem pumpTurns_succ (size : Frame → ℕ) {m : Ts.Mux} {s : Ts.StreamImpl} (hold : Holds W m s)
    (hlive : s.finished = false) (n : ℕ) :
    (m.pumpTurns size (n + 1) 0 = (m, none) ∧ (0 < s.sendWindow → s.outbound = [])) ∨
      ∃ p rest, s.outbound = p :: rest ∧ 0 < s.sendWindow ∧
        m.pumpTurns size (n + 1) 0 = ({ m.setObj 0 (spent s p rest) with
          sent := m.sent ++ [s.msgFrame p] } : Ts.Mux).pumpTurns size n 0 := by
  have hstop : s.shift = none → m.pumpTurns size (n + 1) 0 = (m, none) := by
    intro hshift
    simp only [Ts.Mux.pumpTurns, hold.stream, hshift]
  cases hout : s.outbound with
  | nil => exact .inl ⟨hstop (by rw [Ts.StreamImpl.shift, hout]), fun _ => rfl⟩
  | cons p rest =>
      by_cases hw : 0 < s.sendWindow
      · refine .inr ⟨p, rest, rfl, hw, ?_⟩
        simp only [Ts.Mux.pumpTurns, hold.stream, Flow.TsSender.shift_of_open hout hw hlive]
        rw [Ts.Mux.writeFrame_opened (by exact hold.opened) (by exact hold.live)]
        rfl
      · refine .inl ⟨hstop ?_, fun h => absurd h hw⟩
        simp only [Ts.StreamImpl.shift, hout, hw, false_and, if_false]

/-- **The loop of `pump`**: each turn is a send of the Go client. -/
theorem exists_pumpTurns (n : ℕ) : ∀ {x : Mixed} {l : Logged}, Mirrors W x l →
    (∀ s ∈ x.client.objs[0]?, s.outbound.length ≤ n) →
    ∃ l', Reach Logged.step Calm l l' ∧
      Mirrors W { x with client := (x.client.pumpTurns size n 0).1 } l' ∧
      Pumped (x.client.pumpTurns size n 0).1 := by
  induction n with
  | zero =>
      intro x l hx hlen
      refine ⟨l, .refl, hx, fun s hs _ => ?_⟩
      exact List.length_eq_zero_iff.1 (Nat.le_zero.1 (hlen s hs))
  | succ n ih =>
      intro x l hx hlen
      obtain ⟨s, h, hold, hsh, hgot, hsent⟩ := hx.client
      obtain ⟨hstop, hdone⟩ | ⟨p, rest, hout, hw, hturn⟩ :=
        pumpTurns_succ size hold hsh.unfinished n
      · rw [hstop]
        refine ⟨l, .refl, hx, fun t ht => ?_⟩
        obtain rfl : s = t := Option.some.inj (hold.stream.symm.trans ht)
        exact hdone
      · have hmsg : s.msgFrame p = Flow.msg p := by
          rw [Ts.StreamImpl.msgFrame, hsh.id, Flow.msg]
        have hp : Small p.length := hsh.small p (by rw [hout]; exact List.mem_cons_self)
        obtain ⟨l₁, hl₁, hv⟩ := exists_speak hsh.charged hsh.endId (hsh.credit ▸ hw) hp
        rw [hmsg] at hturn
        have hold₁ := hold.set (spent s p rest) (x.client.sent ++ [Flow.msg p])
        set m₁ : Ts.Mux := { x.client.setObj 0 (spent s p rest) with
          sent := x.client.sent ++ [Flow.msg p] } with hm₁
        have hsh₁ : Shadows W (spent s p rest) h { l.link.ends .client with
            stream := (l.link.ends .client).stream.chargeSend p.length } := by
          refine { hsh with credit := ?_, small := ?_, .. }
          · show _ - _ = s.sendWindow - p.length
            rw [hsh.credit]
          · intro q hq
            exact hsh.small q (by rw [hout]; exact List.mem_cons_of_mem _ hq)
        have hx₁ : Mirrors W { x with client := m₁ } l₁ := by
          refine hx.moves (y := { x with client := m₁ }) (hx.toClient ▸ hv) rfl rfl
            (fun f hf => hf) rfl rfl rfl (by simp) ⟨_, h, hold₁, hsh₁, hgot, ?_⟩
          show x.sent .client = _ ++ rest
          rw [hsent, hout, List.append_assoc, List.singleton_append]
        obtain ⟨l₂, hl₂, hx₂, hpumped⟩ := ih hx₁ (by
          intro t ht
          obtain rfl : spent s p rest = t := Option.some.inj (hold₁.stream.symm.trans ht)
          have hle := hlen s hold.stream
          rw [hout, List.length_cons] at hle
          exact Nat.le_of_succ_le_succ hle)
        rw [hturn]
        exact ⟨l₂, hl₁.trans hl₂, hx₂, hpumped⟩

/-- `pump` leaves nothing that could be sent. -/
theorem exists_pump (size : Frame → ℕ) {x : Mixed} {l : Logged} (hx : Mirrors W x l) :
    ∃ l', Reach Logged.step Calm l l' ∧
      Mirrors W { x with client := (x.client.pump size 0).1 } l' ∧
      Pumped (x.client.pump size 0).1 := by
  obtain ⟨s, h, hold, -⟩ := hx.client
  have hp : x.client.pump size 0 = x.client.pumpTurns size s.outbound.length 0 := by
    simp only [Ts.Mux.pump, hold.stream]
  rw [hp]
  refine exists_pumpTurns _ hx fun t ht => ?_
  obtain rfl : s = t := Option.some.inj (hold.stream.symm.trans ht)
  exact le_refl _

/-- **`send`**, while the backlog is within its bound. -/
theorem exists_send {x : Mixed} {l : Logged} (hx : Mirrors W x l) {p : Payload}
    (hp : Small p.length) (hwithin : Flow.TsSender.Within x.client) :
    ∃ l', Reach Logged.step Calm l l' ∧
      Mirrors W { x with
        client := (x.client.send size 0 p).1
        sent := Function.update x.sent .client (x.sent .client ++ [p]) } l' ∧
      Pumped (x.client.send size 0 p).1 := by
  obtain ⟨s, h, hold, hsh, hgot, hsent⟩ := hx.client
  have hopen : ¬ ((s.sendClosed || s.finished) = true) := by
    simp [hsh.sendable, hsh.unfinished]
  have hfull : ¬ s.maxSendBuffer < s.outboundBytes := not_lt.2 (hwithin s hold.stream)
  have hs : x.client.send size 0 p = (x.client.setObj 0 (s.enqueue p)).pump size 0 := by
    simp only [Ts.Mux.send, hold.stream, if_neg hopen, if_neg hfull]
  have hsh₁ : Shadows W (s.enqueue p) h (l.link.ends .client) := by
    refine { hsh with small := ?_, .. }
    intro q hq
    rcases List.mem_append.1 hq with hq | hq
    · exact hsh.small q hq
    · rw [List.mem_singleton.1 hq]; exact hp
  have hx₁ : Mirrors W { x with
      client := x.client.setObj 0 (s.enqueue p)
      sent := Function.update x.sent .client (x.sent .client ++ [p]) } l := by
    refine hx.moves (y := { x with
      client := x.client.setObj 0 (s.enqueue p)
      sent := Function.update x.sent .client (x.sent .client ++ [p]) }) (hx.toClient ▸ Moves.refl l)
      rfl rfl (fun f hf => hf) (by simp [Ts.Mux.setObj]) (by simp) rfl (by simp)
      ⟨_, h, hold.set _ x.client.sent, hsh₁, hgot, ?_⟩
    simp [hsent, Ts.StreamImpl.enqueue]
  rw [hs]
  exact exists_pump size hx₁

/-- A message on the wire is taken in: the backlog in front of it is below the window. -/
theorem route_msg {m : Ts.Mux} {s : Ts.StreamImpl} {h : Mailbox Payload Inbox.Cause} {l : Logged}
    {p : Payload} {rest : List Frame} (hold : Holds W m s)
    (hsh : Shadows W s h (l.link.ends .client)) (hl : Good W l)
    (hw : l.link.wire .server = Flow.msg p :: rest) :
    m.route size (Flow.msg p) = (m.setObj 0 (s.pushMsg p), none) := by
  have hlt := hl.recvBytes_lt (p := .server) hw rfl
  rw [show Side.server.other = Side.client from rfl, ← hsh.buffered] at hlt
  have hfind : m.find (Flow.msg p).streamId = some (0, s) := by
    simp [Ts.Mux.find, Flow.msg, hold.registered, hold.stream]
  simp only [Ts.Mux.route, show (Flow.msg p).kind = .kindMsg from rfl, hfind]
  rw [if_neg (by rw [hold.limit]; omega)]
  rfl

/-- **A message arrives** and is buffered. -/
theorem exists_deliver_msg (size : Frame → ℕ) {x : Mixed} {l : Logged} (hx : Mirrors W x l)
    (hl : Good W l) {p : Payload} {rest : List Frame} (hin : x.toClient = Flow.msg p :: rest) :
    ∃ l', Reach Logged.step Calm l l' ∧
      Mirrors W { x with
        client := (x.client.route size (Flow.msg p)).1, toClient := rest } l' ∧
      (Pumped x.client → Pumped (x.client.route size (Flow.msg p)).1) := by
  obtain ⟨s, h, hold, hsh, hgot, hsent⟩ := hx.client
  have hw : l.link.wire .server = Flow.msg p :: rest := hx.toClient.trans hin
  have hlt := hl.recvBytes_lt (p := .server) hw rfl
  rw [show Side.server.other = Side.client from rfl] at hlt
  have hroute : x.client.route size (Flow.msg p) = (x.client.setObj 0 (s.pushMsg p), none) :=
    route_msg hold hsh hl hw
  -- the read loop of a Go client buffers it too
  have hok := hl.ok .client
  set e := l.link.ends .client with he
  obtain ⟨l', hs, hv⟩ := exists_moves (l := l) (a := .deliver)
    (e := { e with stream := { e.stream with
      recvItems := e.stream.recvItems ++ [Flow.msg p]
      recvBytes := e.stream.recvBytes + p.length
      recvSignal := true } }) (o := []) (i := rest) (by
      have hover : ¬ (e.stream.recvItems ≠ [] ∧ e.stream.maxRecvBytes < e.stream.recvBytes) := by
        rw [hok.ceiling]
        omega
      simp [Port.act, Link.port, ← he, Side.other, hw, End.route, hok.registered,
        Go.Stream.onFrame, Go.Stream.tryDeliver, Go.Stream.deliver, hok.live, hover,
        Go.Stream.signalRecv, Flow.msg])
  rw [hroute]
  refine ⟨l', Reach.refl.tail (calm_of_quiet l rfl) hs, ?_, ?_⟩
  · have hacc : (h.push p).accepted = h.accepted ++ [p] := by
      rw [Mailbox.push_of_none p hsh.live]
    have hle := hsh.resumed_le
    have hsh' : Shadows W (s.pushMsg p) (h.push p) { e with stream := { e.stream with
        recvItems := e.stream.recvItems ++ [Flow.msg p]
        recvBytes := e.stream.recvBytes + p.length
        recvSignal := true } } := by
      have hinb : (s.pushMsg p).inbound = Ts.queueOf Ts.causeError (h.push p) := by
        show s.inbound.push p = _
        rw [hsh.inbound]
        exact Ts.push_queueOf p
      refine { hsh with
        inbound := hinb, live := ?_, resumed := ?_, backlog := ?_, buffered := ?_, .. }
      · rw [Mailbox.push_outcome]; exact hsh.live
      · rw [hinb]
        exact (Ts.StreamImpl.settled_grow hsh.inbound hsh.resumed
          (Mailbox.results_prefix_push p)).1
      · show e.stream.recvItems ++ [Flow.msg p] = ((h.push p).accepted.drop s.resumed).map Flow.msg
        rw [hacc, List.drop_append_of_le_length hle, List.map_append, hsh.backlog]
        rfl
      · show s.bufferedBytes + p.length = e.stream.recvBytes + p.length
        rw [hsh.buffered]
    refine hx.moves (y := { x with client := x.client.setObj 0 (s.pushMsg p), toClient := rest }) hv
      rfl rfl ?_ (by simp [Ts.Mux.setObj]) rfl rfl (by simp [End.heard])
      ⟨_, h.push p, hold.set _ x.client.sent, hsh', ?_, ?_⟩
    · intro f hf
      rw [hin]
      exact List.mem_cons_of_mem _ hf
    · show x.got .client = (h.push p).accepted.take s.resumed
      rw [hacc, List.take_append_of_le_length hle, hgot]
    · simpa [Act.said, Ts.StreamImpl.pushMsg, Ts.StreamImpl.resolveLeading] using hsent
  · intro hpumped t ht hwin
    obtain rfl : s.pushMsg p = t := Option.some.inj ((hold.set _ []).stream.symm.trans ht)
    exact hpumped s hold.stream hwin

theorem route_update {m : Ts.Mux} {s : Ts.StreamImpl} (hold : Holds W m s) (d : UInt32) :
    m.route size (Flow.update d) = if (d.toNat : ℤ) ≤ 0 then (m, none)
      else (m.setObj 0 { s with sendWindow := s.sendWindow + d.toNat }).pump size 0 := by
  have hfind : m.find (Flow.update d).streamId = some (0, s) := by
    simp [Ts.Mux.find, Flow.update, hold.registered, hold.stream]
  simp only [Ts.Mux.route, show (Flow.update d).kind = .kindWindowUpdate from rfl, hfind,
    Ts.Mux.creditSend, hold.stream]
  rfl

/-- **A WINDOW_UPDATE arrives**: the window grows and `pump` runs. -/
theorem exists_deliver_update {x : Mixed} {l : Logged} (hx : Mirrors W x l) (hl : Good W l)
    {d : UInt32} {rest : List Frame} (hin : x.toClient = Flow.update d :: rest)
    (hpumped : Pumped x.client) :
    ∃ l', Reach Logged.step Calm l l' ∧
      Mirrors W { x with
        client := (x.client.route size (Flow.update d)).1, toClient := rest } l' ∧
      Pumped (x.client.route size (Flow.update d)).1 := by
  obtain ⟨s, h, hold, hsh, hgot, hsent⟩ := hx.client
  have hw : l.link.wire .server = Flow.update d :: rest := hx.toClient.trans hin
  have hok := hl.ok .client
  obtain ⟨l₁, hs, hv⟩ := exists_moves (l := l) (a := .deliver)
    (e := { l.link.ends .client with
      stream := (l.link.ends .client).stream.creditSend d.toNat }) (o := []) (i := rest) (by
      simp [Port.act, Link.port, Side.other, hw, End.route, hok.registered, Go.Stream.onFrame,
        Flow.update])
  have hreach : Reach Logged.step Calm l l₁ := Reach.refl.tail (calm_of_quiet l rfl) hs
  have hsub : ∀ f ∈ rest, f ∈ x.toClient := by
    intro f hf
    rw [hin]
    exact List.mem_cons_of_mem _ hf
  rw [route_update hold]
  by_cases hd : (d.toNat : ℤ) ≤ 0
  · -- an update of nothing
    rw [Go.Stream.creditSend, if_pos hd] at hv
    rw [if_pos hd]
    refine ⟨l₁, hreach, ?_, hpumped⟩
    exact hx.moves (y := { x with toClient := rest }) hv rfl rfl hsub (by simp) rfl rfl
      (by simp [End.heard]) ⟨s, h, hold, hsh, hgot, by simpa [Act.said] using hsent⟩
  · rw [Go.Stream.creditSend, if_neg hd] at hv
    have hsh₁ : Shadows W { s with sendWindow := s.sendWindow + d.toNat } h
        { l.link.ends .client with stream := { (l.link.ends .client).stream with
          sendWindow := (l.link.ends .client).stream.sendWindow + d.toNat } } := by
      refine { hsh with credit := ?_, .. }
      show _ + _ = s.sendWindow + d.toNat
      rw [hsh.credit]
    have hx₁ : Mirrors W { x with
        client := x.client.setObj 0 { s with sendWindow := s.sendWindow + d.toNat }
        toClient := rest } l₁ :=
      hx.moves (y := { x with
        client := x.client.setObj 0 { s with sendWindow := s.sendWindow + d.toNat }
        toClient := rest }) hv rfl rfl hsub (by simp [Ts.Mux.setObj]) rfl rfl
        (by simp [End.heard])
        ⟨_, h, hold.set _ x.client.sent, hsh₁, hgot, by simpa [Act.said] using hsent⟩
    obtain ⟨l₂, hl₂, hx₂, hp₂⟩ := exists_pump size hx₁
    rw [if_neg hd]
    exact ⟨l₂, hreach.trans hl₂, hx₂, hp₂⟩

theorem recv_eq {m : Ts.Mux} {s : Ts.StreamImpl} (hold : Holds W m s) :
    m.recv 0 = m.setObj 0 s.recv := by
  simp only [Ts.Mux.recv, Ts.Mux.setObj, List.modify_eq_set_getElem?, hold.stream]
  rfl

/-- **`recv`**: a pull, of which the Go link knows nothing yet. -/
theorem mirrors_recv {x : Mixed} {l : Logged} (hx : Mirrors W x l) :
    Mirrors W { x with client := x.client.recv 0 } l ∧
      (Pumped x.client → Pumped (x.client.recv 0)) := by
  obtain ⟨s, h, hold, hsh, hgot, hsent⟩ := hx.client
  have hsh' : Shadows W s.recv h.pull (l.link.ends .client) := by
    have hinb : s.recv.inbound = Ts.queueOf Ts.causeError h.pull := by
      show s.inbound.pull = _
      rw [hsh.inbound]
      exact Ts.pull_queueOf
    refine { hsh with inbound := hinb, resumed := ?_, .. }
    rw [hinb]
    exact (Ts.StreamImpl.settled_grow hsh.inbound hsh.resumed Mailbox.results_prefix_pull).1
  rw [recv_eq hold]
  constructor
  · refine hx.moves (y := { x with client := x.client.setObj 0 s.recv })
      (hx.toClient ▸ Moves.refl l) rfl rfl (fun f hf => hf) (by simp [Ts.Mux.setObj]) rfl rfl
      (by simp) ⟨_, h.pull, hold.set _ x.client.sent, hsh', hgot, ?_⟩
    simpa [Ts.StreamImpl.recv] using hsent
  · intro hpumped t ht hwin
    obtain rfl : s.recv = t := Option.some.inj ((hold.set _ []).stream.symm.trans ht)
    exact hpumped s hold.stream hwin

/-- The two runtimes hold back and return the same, as long as it fits into a `uint32`. -/
theorem returnCredit_agrees {s : Ts.StreamImpl} {g : Go.Stream} {n : ℕ} (hid : g.id = s.id)
    (hfin : s.finished = false) (hwin : g.initialWindow = s.initialWindow)
    (hpend : g.pendingCredit = s.pendingCredit) (hlt : g.pendingCredit + n < 2 ^ 32)
    (h₀ : 0 ≤ g.pendingCredit) :
    (g.returnCredit n).1.pendingCredit = (s.returnCredit n).1.pendingCredit ∧
      (if (g.returnCredit n).2 = 0 then [] else [g.windowUpdate (g.returnCredit n).2]) =
        (s.returnCredit n).2.toList.map s.windowUpdateFrame := by
  have hthr : g.creditThreshold = max 1 (s.initialWindow / 2) := by
    rw [Go.Stream.creditThreshold, hwin]
    split_ifs <;> omega
  have hpos := g.creditThreshold_pos
  by_cases hn : (n : ℤ) ≤ 0
  · rw [Go.Stream.returnCredit, if_pos hn, Ts.StreamImpl.returnCredit, if_pos (Or.inl hn)]
    exact ⟨hpend, rfl⟩
  · have hgo : ¬ ((n : ℤ) ≤ 0 ∨ s.finished = true) := by
      rintro (h | h)
      · exact hn h
      · rw [hfin] at h; cases h
    by_cases hdue : g.pendingCredit + n < g.creditThreshold
    · rw [Go.Stream.returnCredit, if_neg hn, if_pos hdue, Ts.StreamImpl.returnCredit, if_neg hgo,
        if_neg (by omega), hpend]
      exact ⟨rfl, rfl⟩
    · have hconv : Go.Stream.toUint32 (g.pendingCredit + n) =
          UInt32.ofNat (s.pendingCredit + n).toNat := by
        rw [Go.Stream.toUint32, Int.emod_eq_of_lt (by omega) hlt, hpend]
      have hne : Go.Stream.toUint32 (g.pendingCredit + n) ≠ 0 := by
        have hval := Go.Stream.toNat_toUint32 (g.pendingCredit + n)
        intro h
        rw [h, Int.emod_eq_of_lt (by omega) hlt, UInt32.toNat_zero] at hval
        omega
      rw [Go.Stream.returnCredit, if_neg hn, if_neg hdue, Ts.StreamImpl.returnCredit, if_neg hgo,
        if_pos (by omega)]
      refine ⟨rfl, ?_⟩
      rw [if_neg hne, hconv, Go.Stream.windowUpdate, hid]
      rfl

/-- A TypeScript stream after the continuation of a `recv` of `v`, and the credit that falls
due. -/
def consumed (s : Ts.StreamImpl) (v : Payload) : Ts.StreamImpl × Option ℤ :=
  ({ s with
    resumed := s.resumed + 1
    bufferedBytes := s.bufferedBytes - v.length } : Ts.StreamImpl).returnCredit v.length

/-- The credit the continuation writes: none that is beyond 32 bits. -/
def written (s : Ts.StreamImpl) (v : Payload) : List Frame :=
  ((consumed s v).2.filter (· < 2 ^ 32)).toList.map s.windowUpdateFrame

/-- What the continuation does to the mux. -/
theorem resume_eq {m : Ts.Mux} {s : Ts.StreamImpl} {v : Payload} (hold : Holds W m s)
    (hr : s.inbound.settled[s.resumed]? = some (.value v)) :
    m.resume size 0 = some ({ m.setObj 0 (consumed s v).1 with
      sent := m.sent ++ written s v }, none) := by
  have hstep : s.resume = some (consumed s v) := by
    rw [Ts.StreamImpl.resume, hr]
    rfl
  simp only [Ts.Mux.resume, hold.stream, Option.bind_some, hstep, Option.map_some, written]
  cases (consumed s v).2 with
  | none => simp [Ts.Mux.setObj]
  | some d =>
      by_cases hd : d < 2 ^ 32
      · rw [Option.filter_some_pos (by simpa using hd)]
        simp only [if_pos hd]
        rw [Ts.Mux.writeFrame_opened (by exact hold.opened) (by exact hold.live)]
        rfl
      · rw [Option.filter_some_neg (by simpa using hd)]
        simp only [if_neg hd]
        simp [Ts.Mux.setObj]

/-- A `recv` that has settled has settled with the oldest message not yet returned. -/
theorem Shadows.settled_value {s : Ts.StreamImpl} {h : Mailbox Payload Inbox.Cause} {e : End}
    (hsh : Shadows W s h e) {r : Ts.PullResult Payload}
    (hr : s.inbound.settled[s.resumed]? = some r) :
    ∃ v, r = .value v ∧ h.accepted[s.resumed]? = some v := by
  rw [hsh.settled, List.getElem?_map, Option.map_eq_some_iff] at hr
  obtain ⟨v, hv, rfl⟩ := hr
  refine ⟨v, rfl, ?_⟩
  rw [List.getElem?_take] at hv
  split at hv
  · exact hv
  · cases hv

/-- The Go end consumes beside the TypeScript stream: it holds back the same and returns
the same. -/
theorem Shadows.consume {s : Ts.StreamImpl} {h : Mailbox Payload Inbox.Cause} {e : End}
    {v : Payload} (hsh : Shadows W s h e) (hok : e.Ok W) (hW : W < 2 ^ 32)
    (hr : s.inbound.settled[s.resumed]? = some (.value v)) (hv : Small v.length) :
    let y := taken e.stream (Flow.msg v) ((h.accepted.drop (s.resumed + 1)).map Flow.msg)
    Shadows W (consumed s v).1 h { e with stream := y.1 } ∧
      (if y.2 = 0 then [] else [e.stream.windowUpdate y.2]) =
        (consumed s v).2.toList.map s.windowUpdateFrame := by
  intro y
  set s₁ : Ts.StreamImpl := { s with
    resumed := s.resumed + 1, bufferedBytes := s.bufferedBytes - v.length } with hs₁
  set g : Go.Stream := { e.stream with
    recvItems := (h.accepted.drop (s.resumed + 1)).map Flow.msg
    recvBytes := e.stream.recvBytes - v.length } with hg
  obtain ⟨hpend, hframes⟩ := returnCredit_agrees (s := s₁) (g := g) (n := v.length)
    (hsh.endId.trans hsh.id.symm) hsh.unfinished (hok.window.trans hsh.window.symm) hsh.pending
    (pending_add_lt (f := Flow.msg v) hok hW hv) hok.pending_nonneg
  refine ⟨?_, hframes⟩
  obtain ⟨c, hc⟩ := s₁.returnCredit_fst v.length
  obtain ⟨c', hc'⟩ := g.returnCredit_fst v.length
  have hy : y.1 = { g with pendingCredit := c' } := hc'
  have hs : (consumed s v).1 = { s₁ with pendingCredit := c } := hc
  rw [hc, hc'] at hpend
  rw [hy, hs]
  refine { hsh with resumed := ?_, pending := hpend, backlog := rfl, buffered := ?_, .. }
  · exact (List.getElem?_eq_some_iff.1 hr).1
  · show s.bufferedBytes - v.length = e.stream.recvBytes - v.length
    rw [hsh.buffered]

/-- With such a window and such messages, every credit that falls due is written. -/
theorem Shadows.written_eq {s : Ts.StreamImpl} {h : Mailbox Payload Inbox.Cause} {e : End}
    {v : Payload} (hsh : Shadows W s h e) (hok : e.Ok W) (hW : W < 2 ^ 32)
    (hv : Small v.length) :
    written s v = (consumed s v).2.toList.map s.windowUpdateFrame := by
  have hlt : e.stream.pendingCredit + v.length < 2 ^ 32 :=
    pending_add_lt (f := Flow.msg v) hok hW hv
  rw [hsh.pending] at hlt
  unfold written consumed Ts.StreamImpl.returnCredit
  split_ifs
  · rfl
  · rw [Option.filter_some_pos (by simpa using hlt)]
  · rfl

/-- What the continuation leaves alone. -/
theorem consumed_frame (s : Ts.StreamImpl) (v : Payload) :
    (consumed s v).1.resumed = s.resumed + 1 ∧ (consumed s v).1.outbound = s.outbound ∧
      (consumed s v).1.sendWindow = s.sendWindow ∧ (consumed s v).1.inbound = s.inbound := by
  obtain ⟨c, hc⟩ := Ts.StreamImpl.returnCredit_fst { s with
    resumed := s.resumed + 1, bufferedBytes := s.bufferedBytes - v.length } v.length
  rw [consumed, hc]
  exact ⟨rfl, rfl, rfl, rfl⟩

/-- A continuation that runs has a message for its caller. -/
theorem Shadows.exists_settled {m : Ts.Mux} {s : Ts.StreamImpl}
    {h : Mailbox Payload Inbox.Cause} {e : End} {y : Ts.Mux × Option Ts.WsStatusError}
    (hsh : Shadows W s h e) (hold : Holds W m s) (hy : m.resume size 0 = some y) :
    ∃ v, s.inbound.settled[s.resumed]? = some (.value v) ∧ h.accepted[s.resumed]? = some v := by
  cases hr : s.inbound.settled[s.resumed]? with
  | none => simp [Ts.Mux.resume, hold.stream, Ts.StreamImpl.resume, hr] at hy
  | some r =>
      obtain ⟨v, rfl, hv⟩ := hsh.settled_value hr
      exact ⟨v, rfl, hv⟩

/-- **The continuation of `recv`**: the caller gets the message, and credit that falls due is
written. -/
theorem exists_resume {x : Mixed} {l : Logged} {y : Ts.Mux × Option Ts.WsStatusError}
    (hW : W < 2 ^ 32) (hx : Mirrors W x l) (hl : Good W l) (hy : x.client.resume size 0 = some y) :
    ∃ l', Reach Logged.step Calm l l' ∧
      Mirrors W { x with
        client := y.1
        got := Function.update x.got .client (x.got .client ++ Mixed.heard x.client) } l' ∧
      (Pumped x.client → Pumped y.1) := by
  obtain ⟨s, h, hold, hsh, hgot, hsent⟩ := hx.client
  obtain ⟨v, hr, hv⟩ := hsh.exists_settled hold hy
  have hheard : Mixed.heard x.client = [v] := by
    simp [Mixed.heard, hold.stream, hr]
  have hitems : (l.link.ends .client).stream.recvItems =
      Flow.msg v :: (h.accepted.drop (s.resumed + 1)).map Flow.msg := by
    obtain ⟨hlt, rfl⟩ := List.getElem?_eq_some_iff.1 hv
    rw [hsh.backlog, List.drop_eq_getElem_cons hlt, List.map_cons]
  have hsmall : Small v.length :=
    hl.small_backlog .client (Flow.msg v) (by rw [hitems]; exact List.mem_cons_self)
  obtain ⟨l', hl', hmoves⟩ := exists_hear rfl hitems hsh.popped hsh.due
  obtain ⟨hsh', hout⟩ := hsh.consume (hl.ok .client) hW hr hsmall
  rw [hout, ← hsh.written_eq (hl.ok .client) hW hsmall, hx.toClient] at hmoves
  obtain ⟨hresumed, houtb, hwindow, -⟩ := consumed_frame s v
  obtain rfl := Option.some.inj ((resume_eq hold hr).symm.trans hy)
  refine ⟨l', hl', ?_, ?_⟩
  · refine hx.moves (y := { x with
      client := { x.client.setObj 0 (consumed s v).1 with
        sent := x.client.sent ++ written s v }
      got := Function.update x.got .client (x.got .client ++ Mixed.heard x.client) }) hmoves rfl rfl
      (fun f hf => hf) rfl rfl (by simp) (by simp [hheard, Flow.msg])
      ⟨_, h, hold.set _ _, hsh', ?_, ?_⟩
    · rw [hresumed, List.take_add_one, hv]
      simp [hheard, hgot]
    · rw [houtb]
      simpa using hsent
  · intro hpumped t ht hwin
    obtain rfl : (consumed s v).1 = t := Option.some.inj ((hold.set _ _).stream.symm.trans ht)
    rw [houtb]
    exact hpumped s hold.stream (hwindow ▸ hwin)

/-! ## The server -/

/-- What a critical section of the server does to the wire to it, and that its stream keeps
its id. -/
theorem act_inbound {y y' : Port} {a : Act} (hok : y.here.Ok W) (hin : ∀ f ∈ y.inb, FlowKind f)
    (h : y.act true a = some y') (hreg : y'.here.registered = true) :
    y'.inb = (if a = .deliver then y.inb.tail else y.inb) ∧ (a = .deliver → y.inb ≠ []) ∧
      y'.here.stream.id = y.here.stream.id := by
  cases a with
  | deliver =>
      obtain ⟨f, rest, hf, ⟨-, rfl⟩ | ⟨-, rfl⟩⟩ := act_deliver hok hin h hreg
      · exact ⟨by simp [hf], by simp [hf], rfl⟩
      · refine ⟨by simp [hf], by simp [hf], ?_⟩
        simp only [Go.Stream.creditSend]
        split <;> rfl
  | sendRaw b =>
      obtain ⟨-, rfl⟩ := act_sendRaw h
      exact ⟨rfl, by simp, rfl⟩
  | popRecv =>
      obtain ⟨f, rest, -, rfl⟩ := act_popRecv h
      exact ⟨rfl, by simp, rfl⟩
  | returnCredit i =>
      simp only [Port.act, Option.map_eq_some_iff] at h
      obtain ⟨f, -, rfl⟩ := h
      obtain ⟨c, hc⟩ := y.here.stream.returnCredit_fst f.payload.length
      exact ⟨rfl, by simp, by simp [hc]⟩
  | writeMsg i | writeUpdate i =>
      simp only [Port.act, Option.map_eq_some_iff] at h
      obtain ⟨b, -, rfl⟩ := h
      exact ⟨rfl, by simp, rfl⟩

theorem Mirrors.server_ok {x : Mixed} {l : Logged} (hx : Mirrors W x l) (hl : Good W l) :
    x.port.here.Ok W ∧ ∀ f ∈ x.port.inb, FlowKind f := by
  have hok := hl.ok .server
  have hkinds := hl.delivers.ordered.kinds .client
  rw [hx.server] at hok
  rw [hx.toServer] at hkinds
  exact ⟨hok, hkinds⟩

/-- What is on the wire to the server after that, as the mixed link counts it. -/
theorem drop_routed {x : Mixed} {y : Port} {a : Act}
    (hinb : y.inb = if a = .deliver then x.port.inb.tail else x.port.inb) :
    x.client.sent.drop (if a = .deliver then x.routed + 1 else x.routed) = y.inb := by
  rw [hinb]
  split
  · rw [← List.tail_drop]; rfl
  · rfl

/-- **A critical section of the server** is the same step of the Go link. -/
theorem exists_serverStep {x x' : Mixed} {l : Logged} {a : Act} (hW : W < 2 ^ 32)
    (hx : Mirrors W x l) (hl : Good W l) (hcalm : x.Calm (.server a))
    (h : x.serverStep a = some x') :
    ∃ l', Reach Logged.step Calm l l' ∧ Mirrors W x' l' ∧ x'.client = x.client := by
  have hport : l.link.port .server = x.port := by
    rw [Link.port, Mixed.port, hx.server, show Side.server.other = Side.client from rfl,
      hx.toServer, hx.toClient]
  simp only [Mixed.serverStep, Option.map_eq_some_iff] at h
  obtain ⟨y, hy, rfl⟩ := h
  have hstep : ∃ l', Logged.step l (.server, a) = some l' := by
    simp only [Logged.step, Link.step, show ((Side.server == Side.server) = true) from rfl, hport,
      hy, Option.map_some]
    exact ⟨_, rfl⟩
  obtain ⟨l', hs⟩ := hstep
  have hcalm' : Calm l (.server, a) := by
    constructor
    · rintro i rfl
      exact hcalm
    · rintro b rfl
      exact hcalm
  have hreach : Reach Logged.step Calm l l' := Reach.refl.tail hcalm' hs
  obtain ⟨hlink, hsent, hsent', hgot, hgot'⟩ := Logged.step_eq_some hs
  obtain ⟨z, hz, hhere, hother, hout, hin⟩ := Link.step_eq_some hlink
  rw [show ((Side.server == Side.server) = true) from rfl, hport] at hz
  obtain rfl : y = z := Option.some.inj (hy.symm.trans hz)
  have hreg := (good_reach hW hl hreach).registered .server
  rw [hhere] at hreg
  obtain ⟨hok, hkinds⟩ := hx.server_ok hl
  obtain ⟨hinb, hne, hid⟩ := act_inbound hok hkinds hy hreg
  refine ⟨l', hreach, ?_, rfl⟩
  refine ⟨hhere, hid.trans hx.serverId, hout, ?_, ?_, ?_, ?_, ?_, ?_, ?_⟩
  · -- the wire to the server
    exact Eq.trans hin (drop_routed hinb).symm
  · show (if a = .deliver then x.routed + 1 else x.routed) ≤ x.client.sent.length
    split
    · rename_i ha
      have hlt : ¬ x.client.sent.length ≤ x.routed := by
        intro hle
        exact hne ha (List.drop_eq_nil_of_le hle)
      omega
    · exact hx.routed
  · intro f hf
    have hone : x.port.here.stream.id = 1 := hx.serverId
    rcases act_outb hy hf with hf | ⟨b, -, rfl⟩ | ⟨d, rfl⟩
    · exact hx.frames f hf
    · exact .inl ⟨b, by rw [Go.Stream.msgFrame, hone, Flow.msg]⟩
    · exact .inr ⟨d, by rw [Go.Stream.windowUpdate, hone, Flow.update]⟩
  · obtain ⟨s, h, hold, hsh, hg, hse⟩ := hx.client
    have hc : l'.link.ends .client = l.link.ends .client := hother
    have hse' : l'.sent .client = l.sent .client := hsent'
    refine ⟨s, h, hold, hc ▸ hsh, ?_, ?_⟩
    · simpa using hg
    · rw [hse']
      simpa using hse
  · rw [hgot, hx.gotServer, hx.server]
    simp
  · have hg : l'.got .client = l.got .client := hgot'
    rw [hg, hx.gotClient]
    simp
  · rw [hsent, hx.sentServer]
    simp

/-! ## Runs -/

/-- The invariant of the simulation. -/
structure Simulates (W : ℤ) (x : Mixed) (l : Logged) : Prop where
  mirrors : Mirrors W x l
  good : Good W l
  pumped : Pumped x.client

theorem simulates_start (size : Frame → ℕ) (method : Text) (headers : Headers) (hW : 1 ≤ W)
    (maxSendBuffer : ℤ) :
    Simulates W (Mixed.start size method headers W maxSendBuffer) (fresh method headers W) := by
  have hgo : Go.windowOr W = W := by rw [Go.windowOr, if_neg (by omega)]
  have hts : Ts.positiveOr W Ts.defaultInitialWindow = W := by
    rw [Ts.positiveOr, if_pos (by omega)]
  have hclient : ∃ s, Holds W (Mixed.start size method headers W maxSendBuffer).client s ∧
      Shadows W s {} ((fresh method headers W).link.ends .client) ∧ s.outbound = [] ∧
      s.resumed = 0 := by
    simp only [Mixed.start, Ts.Mux.startOne, Ts.Mux.new, hts, if_true]
    refine ⟨Ts.newStreamImpl 1 W _, ⟨rfl, rfl, ?_, rfl, rfl⟩, ?_, rfl, rfl⟩
    · exact AList.lookup_insert _
    · refine ⟨rfl, rfl, rfl, hts, rfl, rfl, le_refl _, ?_, rfl, rfl, rfl, ?_, rfl, rfl, rfl, rfl⟩
      · exact hgo.trans hts.symm
      · intro p hp
        cases hp
  obtain ⟨s, hold, hsh, hout, hres⟩ := hclient
  refine ⟨⟨rfl, rfl, rfl, ?_, ?_, ?_, ?_, rfl, rfl, rfl⟩, good_fresh method headers hW, ?_⟩
  · simp only [Mixed.toServer, Mixed.start, Ts.Mux.startOne, Ts.Mux.new, hts, if_true]
    rfl
  · simp only [Mixed.start, Ts.Mux.startOne, Ts.Mux.new, hts, if_true]
    exact le_refl _
  · intro f hf
    cases hf
  · refine ⟨s, {}, hold, hsh, ?_, ?_⟩
    · simp [Mixed.start]
    · rw [hout]
      rfl
  · intro t ht _
    obtain rfl : s = t := Option.some.inj (hold.stream.symm.trans ht)
    exact hout

/-- **Every step of the mixed link** is a run of the Go link. -/
theorem simulate_step (hW : W < 2 ^ 32) (x : Mixed) (a : Label) (x' : Mixed) (l : Logged)
    (hi : Simulates W x l) (hcalm : x.Calm a) (h : x.step size a = some x') :
    ∃ l', Reach Logged.step Calm l l' ∧ Simulates W x' l' := by
  obtain ⟨hx, hl, hp⟩ := hi
  have hdone : ∀ {x'}, (∃ l', Reach Logged.step Calm l l' ∧ Mirrors W x' l' ∧ Pumped x'.client) →
      ∃ l', Reach Logged.step Calm l l' ∧ Simulates W x' l' := by
    rintro x' ⟨l', hl', hx', hp'⟩
    exact ⟨l', hl', hx', good_reach hW hl hl', hp'⟩
  cases a with
  | server a =>
      obtain ⟨l', hl', hx', hc⟩ := exists_serverStep hW hx hl hcalm h
      exact hdone ⟨l', hl', hx', hc ▸ hp⟩
  | client a =>
      cases a with
      | send p =>
          cases h
          exact hdone (exists_send hx hcalm.1 hcalm.2)
      | deliver =>
          simp only [Mixed.step, Mixed.clientStep] at h
          split at h
          · cases h
          · rename_i f rest hin
            cases h
            rcases hx.frames f (by rw [hin]; exact List.mem_cons_self) with ⟨p, rfl⟩ | ⟨d, rfl⟩
            · obtain ⟨l', hl', hx', hp'⟩ := exists_deliver_msg size hx hl hin
              exact hdone ⟨l', hl', hx', hp' hp⟩
            · exact hdone (exists_deliver_update hx hl hin hp)
      | recv =>
          cases h
          obtain ⟨hx', hp'⟩ := mirrors_recv hx
          exact hdone ⟨l, .refl, hx', hp' hp⟩
      | resume =>
          simp only [Mixed.step, Mixed.clientStep, Option.map_eq_some_iff] at h
          obtain ⟨y, hy, rfl⟩ := h
          obtain ⟨l', hl', hx', hp'⟩ := exists_resume hW hx hl hy
          exact hdone ⟨l', hl', hx', hp' hp⟩

theorem exists_simulates (size : Frame → ℕ) (method : Text) (headers : Headers) (hW : 1 ≤ W)
    (hW' : W < 2 ^ 32) {maxSendBuffer : ℤ} {x : Mixed}
    (h : Reach (Mixed.step size) Mixed.Calm (Mixed.start size method headers W maxSendBuffer) x) :
    ∃ l, Simulates W x l := by
  obtain ⟨l, -, hl⟩ := h.simulate (simulates_start size method headers hW maxSendBuffer)
    (simulate_step hW')
  exact ⟨l, hl⟩

end WsProto.Agree.MixedLink
