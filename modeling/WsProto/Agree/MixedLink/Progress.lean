import WsProto.Agree.MixedLink.Results

/-!
# A TypeScript client on a Go server: the link drains

Credit that is conserved is no promise that anything moves.  This file is about runs in which
nothing new is sent and both applications keep receiving, from any state of the link: sends that
wait for credit, messages and credit on both wires, receives between their two halves.

* `Mixed.Inner` — the steps of such a run.  A `recv` counts while something is buffered for it;
* `Mixed.work` — what is left to do, with a price for every place a message or a credit can be
  in.  Every inner step lowers it (`work_step`);
* `mixed_progress` — so such a run is over after `work` steps, in whatever order they are
  taken, and it cannot end before everything that was sent has been received and both windows
  are open again.
-/

namespace WsProto.Agree.MixedLink

open Machine Go.Flow

/-! ## The steps and their measure -/

/-- A `recv` would find a message. -/
def Mixed.Buffered (x : Mixed) : Prop := ∃ s ∈ x.client.objs[0]?, s.inbound.values ≠ []

instance (x : Mixed) : Decidable x.Buffered :=
  inferInstanceAs (Decidable (∃ s ∈ x.client.objs[0]?, s.inbound.values ≠ []))

/-- The steps that hand nothing new to the link. -/
def Mixed.Inner (x : Mixed) : Label → Prop
  | .client (.send _) => False
  | .client .recv => x.Buffered
  | .server (.sendRaw _) => False
  | .server (.writeMsg i) => i = 0
  | _ => True

instance (x : Mixed) (a : Label) : Decidable (x.Inner a) :=
  match a with
  | .client .recv => inferInstanceAs (Decidable x.Buffered)
  | .server (.writeMsg i) => inferInstanceAs (Decidable (i = 0))
  | .client (.send _) | .server (.sendRaw _) => isFalse id
  | .client .deliver | .client .resume => isTrue trivial
  | .server .deliver | .server .popRecv | .server (.returnCredit _) | .server (.writeUpdate _) =>
      isTrue trivial

theorem Mixed.Inner.calm {x : Mixed} {a : Label} (h : x.Inner a) : x.Calm a := by
  cases a with
  | client a =>
      cases a with
      | send p => exact h.elim
      | _ => trivial
  | server a =>
      cases a with
      | sendRaw b => exact h.elim
      | writeMsg i => exact h
      | _ => trivial

/-- The steps a frame on the wire is still good for: a message is routed, taken, accounted
for, its credit written and routed. -/
def cost (f : Frame) : ℕ := if f.kind = .kindMsg then 5 else 1

def wireWork (l : List Frame) : ℕ := (l.map cost).sum

def serverWork (e : End) : ℕ :=
  6 * e.charged.length + 4 * e.stream.recvItems.length + 3 * e.popped.length + 2 * e.due.length

/-- A payload that waits costs no more than one on the wire: `pump` is part of the event that
opens the window. -/
def streamWork (s : Ts.StreamImpl) : ℕ :=
  5 * s.outbound.length + 4 * s.inbound.values.length +
    3 * (s.inbound.settled.length - s.resumed)

/-- What is left to do in the link. -/
def Mixed.work (x : Mixed) : ℕ :=
  (x.client.objs[0]?).elim 0 streamWork + serverWork x.server + wireWork x.toServer +
    wireWork x.toClient

@[simp] theorem wireWork_nil : wireWork [] = 0 := rfl

@[simp] theorem wireWork_cons (f : Frame) (l : List Frame) :
    wireWork (f :: l) = cost f + wireWork l := by
  simp [wireWork]

@[simp] theorem wireWork_append (l l' : List Frame) :
    wireWork (l ++ l') = wireWork l + wireWork l' := by
  simp [wireWork]

theorem Mixed.work_eq {x : Mixed} {s : Ts.StreamImpl} (hs : x.client.objs[0]? = some s) :
    x.work = streamWork s + serverWork x.server + wireWork x.toServer + wireWork x.toClient := by
  rw [Mixed.work, hs]
  rfl

/-- An event of the client that leaves the server alone. -/
theorem Mixed.work_client {x y : Mixed} {s s' : Ts.StreamImpl} (out : List Frame)
    (hs : x.client.objs[0]? = some s) (hs' : y.client.objs[0]? = some s')
    (hserver : y.server = x.server) (hrouted : y.routed = x.routed)
    (hle : x.routed ≤ x.client.sent.length) (hout : y.client.sent = x.client.sent ++ out)
    (hlt : streamWork s' + wireWork out + wireWork y.toClient <
      streamWork s + wireWork x.toClient) : y.work < x.work := by
  have hts : y.toServer = x.toServer ++ out := by
    rw [Mixed.toServer, Mixed.toServer, hrouted, hout, List.drop_append_of_le_length hle]
  rw [work_eq hs, work_eq hs', hserver, hts, wireWork_append]
  omega

/-! ## The client's steps -/

variable {W : ℤ} {size : Frame → ℕ}

/-- `pump` moves payloads to the wire and touches nothing that is received. -/
theorem exists_pumpTurns_eq (size : Frame → ℕ) (n : ℕ) :
    ∀ {m : Ts.Mux} {s : Ts.StreamImpl}, Holds W m s → s.finished = false →
    ∃ s' out, (m.pumpTurns size n 0).1.objs[0]? = some s' ∧
      (m.pumpTurns size n 0).1.sent = m.sent ++ out ∧
      streamWork s' + wireWork out = streamWork s := by
  induction n with
  | zero =>
      intro m s hold _
      exact ⟨s, [], hold.stream, (List.append_nil _).symm, rfl⟩
  | succ n ih =>
      intro m s hold hfin
      obtain ⟨hstop, -⟩ | ⟨p, rest, hout, -, hturn⟩ := pumpTurns_succ size hold hfin n
      · rw [hstop]
        exact ⟨s, [], hold.stream, (List.append_nil _).symm, rfl⟩
      · obtain ⟨s₂, out, hobj, hsent, hwork⟩ :=
          ih (hold.set (spent s p rest) (m.sent ++ [s.msgFrame p])) hfin
        rw [hturn]
        refine ⟨s₂, s.msgFrame p :: out, hobj, ?_, ?_⟩
        · rw [hsent, List.append_assoc, List.singleton_append]
        · have hcost : cost (s.msgFrame p) = 5 := rfl
          rw [wireWork_cons, hcost]
          simp only [streamWork, spent, hout, List.length_cons] at hwork ⊢
          omega

/-- The value of a message that arrives waits in the queue, or goes to the oldest waiter. -/
theorem streamWork_pushMsg {s : Ts.StreamImpl} (hres : s.resumed ≤ s.inbound.settled.length)
    (p : Payload) : streamWork (s.pushMsg p) ≤ streamWork s + 4 := by
  have hkeep : (s.pushMsg p).outbound = s.outbound ∧ (s.pushMsg p).resumed = s.resumed ∧
      (s.pushMsg p).inbound = s.inbound.push p := by
    refine ⟨?_, ?_, rfl⟩ <;> simp [Ts.StreamImpl.pushMsg, Ts.StreamImpl.resolveLeading]
  obtain ⟨hout, hresumed, hinb⟩ := hkeep
  simp only [streamWork, hout, hresumed, hinb, Ts.AsyncQueue.push]
  split_ifs <;> simp <;> omega

/-- A message arrives. -/
theorem work_deliver_msg {x : Mixed} {l : Logged} {p : Payload} {rest : List Frame}
    (hx : Mirrors W x l) (hl : Good W l) (hin : x.toClient = Flow.msg p :: rest) :
    Mixed.work { x with
      client := (x.client.route size (Flow.msg p)).1, toClient := rest } < x.work := by
  obtain ⟨s, b, hold, hsh, -⟩ := hx.client
  have hroute : x.client.route size (Flow.msg p) = (x.client.setObj 0 (s.pushMsg p), none) :=
    route_msg hold hsh hl (hx.toClient.trans hin)
  have hpush := streamWork_pushMsg hsh.resumed p
  rw [hroute]
  refine Mixed.work_client [] hold.stream (hold.set (s.pushMsg p) x.client.sent).stream rfl rfl
    hx.routed (List.append_nil _).symm ?_
  have hcost : cost (Flow.msg p) = 5 := rfl
  rw [hin, wireWork_cons, wireWork_nil, hcost]
  show _ + 0 + wireWork rest < _
  omega

/-- A WINDOW_UPDATE arrives; what `pump` writes then has been paid for. -/
theorem work_deliver_update {x : Mixed} {l : Logged} {d : UInt32} {rest : List Frame}
    (hx : Mirrors W x l) (hin : x.toClient = Flow.update d :: rest) :
    Mixed.work { x with
      client := (x.client.route size (Flow.update d)).1, toClient := rest } < x.work := by
  obtain ⟨s, b, hold, hsh, -⟩ := hx.client
  have hcost : cost (Flow.update d) = 1 := rfl
  have hwire : wireWork x.toClient = 1 + wireWork rest := by rw [hin, wireWork_cons, hcost]
  rw [route_update hold]
  by_cases hd : (d.toNat : ℤ) ≤ 0
  · rw [if_pos hd]
    refine Mixed.work_client [] hold.stream hold.stream rfl rfl hx.routed
      (List.append_nil _).symm ?_
    rw [hwire, wireWork_nil]
    show _ + 0 + wireWork rest < _
    omega
  · set s₁ : Ts.StreamImpl := { s with sendWindow := s.sendWindow + d.toNat } with hs₁
    have hold₁ : Holds W (x.client.setObj 0 s₁) s₁ := hold.set s₁ x.client.sent
    have hpump : (x.client.setObj 0 s₁).pump size 0 =
        (x.client.setObj 0 s₁).pumpTurns size s₁.outbound.length 0 := by
      rw [Ts.Mux.pump, hold₁.stream]
    obtain ⟨s₂, out, hobj, hsent, hwork⟩ :=
      exists_pumpTurns_eq size s₁.outbound.length hold₁ hsh.unfinished
    rw [if_neg hd, hpump]
    refine Mixed.work_client out hold.stream hobj rfl rfl hx.routed hsent ?_
    have hsame : streamWork s₁ = streamWork s := rfl
    rw [hwire, hwork, hsame]
    show _ + wireWork rest < _
    omega

/-- A `recv` takes what is buffered for it. -/
theorem work_recv {x : Mixed} {l : Logged} (hx : Mirrors W x l) (hbuf : x.Buffered) :
    Mixed.work { x with client := x.client.recv 0 } < x.work := by
  obtain ⟨s, b, hold, hsh, -⟩ := hx.client
  obtain ⟨t, ht, hne⟩ := hbuf
  obtain rfl : s = t := Option.some.inj (hold.stream.symm.trans ht)
  obtain ⟨v, rest, hv⟩ := List.exists_cons_of_ne_nil hne
  have hres := hsh.resumed
  have hpull : s.recv.inbound = { s.inbound with
      values := rest, settled := s.inbound.settled ++ [.value v] } := by
    simp only [Ts.StreamImpl.recv, Ts.AsyncQueue.pull, hv]
  have hlt : streamWork s.recv < streamWork s := by
    have hkeep : s.recv.outbound = s.outbound ∧ s.recv.resumed = s.resumed := ⟨rfl, rfl⟩
    simp only [streamWork, hkeep.1, hkeep.2, hpull, hv, List.length_cons, List.length_append,
      List.length_nil]
    omega
  rw [recv_eq hold]
  refine Mixed.work_client [] hold.stream (hold.set s.recv x.client.sent).stream rfl rfl hx.routed
    (List.append_nil _).symm ?_
  rw [wireWork_nil]
  show _ + 0 + wireWork x.toClient < _
  omega

/-- A continuation returns a message, and writes at most one WINDOW_UPDATE. -/
theorem work_resume {x : Mixed} {l : Logged} {y : Ts.Mux × Option Ts.WsStatusError}
    {got : Side → List Payload} (hx : Mirrors W x l) (hy : x.client.resume size 0 = some y) :
    Mixed.work { x with client := y.1, got := got } < x.work := by
  obtain ⟨s, b, hold, hsh, -⟩ := hx.client
  obtain ⟨v, hr, -⟩ := hsh.exists_settled hold hy
  obtain ⟨hresumed, hout, -, hinb⟩ := consumed_frame s v
  have hlt := (List.getElem?_eq_some_iff.1 hr).1
  obtain rfl := Option.some.inj ((resume_eq hold hr).symm.trans hy)
  refine Mixed.work_client _ hold.stream (hold.set (consumed s v).1 _).stream rfl rfl
    hx.routed rfl ?_
  have hupdate : wireWork (written s v) ≤ 1 := by
    unfold written
    cases (consumed s v).2.filter (· < 2 ^ 32) with
    | none => exact Nat.zero_le _
    | some d => exact le_refl _
  simp only [streamWork, hresumed, hout, hinb]
  omega

/-! ## The server's steps -/

def portWork (y : Port) : ℕ := serverWork y.here + wireWork y.inb + wireWork y.outb

theorem length_eraseIdx_lt {α : Type} {l : List α} {i : ℕ} {v : α} (h : l[i]? = some v) :
    (l.eraseIdx i).length < l.length := by
  have hlt := (List.getElem?_eq_some_iff.1 h).1
  rw [List.length_eraseIdx_of_lt hlt]
  omega

theorem work_act {y y' : Port} {a : Act} (hok : y.here.Ok W) (hin : ∀ f ∈ y.inb, FlowKind f)
    (hsend : ∀ b, a ≠ .sendRaw b) (h : y.act true a = some y')
    (hreg : y'.here.registered = true) : portWork y' < portWork y := by
  cases a with
  | sendRaw b => exact absurd rfl (hsend b)
  | deliver =>
      obtain ⟨f, rest, hf, ⟨hk, rfl⟩ | ⟨hk, rfl⟩⟩ := act_deliver hok hin h hreg
      · have hcost : cost f = 5 := if_pos hk
        simp only [portWork, serverWork, hf, wireWork_cons, hcost, List.length_append,
          List.length_singleton]
        omega
      · have hcost : cost f = 1 := by rw [cost, if_neg (by rw [hk]; decide)]
        have hitems : (y.here.stream.creditSend f.window.toNat).recvItems =
            y.here.stream.recvItems := by
          simp only [Go.Stream.creditSend]
          split <;> rfl
        simp only [portWork, serverWork, hf, wireWork_cons, hcost, hitems]
        omega
  | popRecv =>
      obtain ⟨f, rest, hitems, rfl⟩ := act_popRecv h
      simp only [portWork, serverWork, hitems, List.length_cons, List.length_append,
        List.length_nil]
      omega
  | returnCredit i =>
      simp only [Port.act, Option.map_eq_some_iff] at h
      obtain ⟨f, hf, rfl⟩ := h
      have hlt := length_eraseIdx_lt hf
      obtain ⟨c, hc⟩ := y.here.stream.returnCredit_fst f.payload.length
      simp only [portWork, serverWork, hc]
      split_ifs
      · omega
      · rw [List.length_append, List.length_singleton]
        omega
  | writeMsg i =>
      simp only [Port.act, Option.map_eq_some_iff] at h
      obtain ⟨b, hb, rfl⟩ := h
      have hlt := length_eraseIdx_lt hb
      have hcost : cost (y.here.stream.msgFrame b) = 5 := rfl
      simp only [portWork, serverWork, wireWork_append, wireWork_cons, wireWork_nil, hcost]
      omega
  | writeUpdate i =>
      simp only [Port.act, Option.map_eq_some_iff] at h
      obtain ⟨d, hd, rfl⟩ := h
      have hlt := length_eraseIdx_lt hd
      have hcost : cost (y.here.stream.windowUpdate d) = 1 := rfl
      simp only [portWork, serverWork, wireWork_append, wireWork_cons, wireWork_nil, hcost]
      omega

/-- **A critical section of the server** lowers the work. -/
theorem work_serverStep {x x' : Mixed} {l : Logged} {a : Act} (hx : Mirrors W x l) (hl : Good W l)
    (ha : x.Inner (.server a)) (h : x.serverStep a = some x')
    (hreg : x'.server.registered = true) : x'.work < x.work := by
  simp only [Mixed.serverStep, Option.map_eq_some_iff] at h
  obtain ⟨y, hy, rfl⟩ := h
  obtain ⟨hok, hkinds⟩ := hx.server_ok hl
  have hsend : ∀ b, a ≠ .sendRaw b := by
    rintro b rfl
    exact ha
  have hwork := work_act hok hkinds hsend hy hreg
  obtain ⟨hinb, -, -⟩ := act_inbound hok hkinds hy hreg
  obtain ⟨s, b, hold, -⟩ := hx.client
  rw [Mixed.work_eq hold.stream, Mixed.work_eq (by exact hold.stream)]
  show _ + serverWork y.here + wireWork (x.client.sent.drop _) + wireWork y.outb < _
  rw [drop_routed hinb]
  simp only [portWork, Mixed.port] at hwork
  omega

/-- **Every inner step lowers the work.** -/
theorem work_step {x x' : Mixed} {l : Logged} {a : Label} (hW : W < 2 ^ 32)
    (hi : Simulates W x l) (ha : x.Inner a) (h : x.step size a = some x') :
    (∃ l', Simulates W x' l') ∧ x'.work < x.work := by
  obtain ⟨l', -, hi'⟩ := simulate_step hW x a x' l hi ha.calm h
  refine ⟨⟨l', hi'⟩, ?_⟩
  obtain ⟨hx, hl, -⟩ := hi
  cases a with
  | server a =>
      have hreg := hi'.good.registered .server
      rw [hi'.mirrors.server] at hreg
      exact work_serverStep hx hl ha h hreg
  | client a =>
      cases a with
      | send p => exact ha.elim
      | deliver =>
          simp only [Mixed.step, Mixed.clientStep] at h
          split at h
          · cases h
          · rename_i f rest hin
            cases h
            rcases hx.frames f (by rw [hin]; exact List.mem_cons_self) with ⟨p, rfl⟩ | ⟨d, rfl⟩
            · exact work_deliver_msg hx hl hin
            · exact work_deliver_update hx hin
      | recv =>
          cases h
          exact work_recv hx ha
      | resume =>
          simp only [Mixed.step, Mixed.clientStep, Option.map_eq_some_iff] at h
          obtain ⟨y, hy, rfl⟩ := h
          exact work_resume hx hy

/-! ## At rest -/

/-- Everything that was sent has been received, nothing is under way, and both ends may send
again. -/
structure Drained (x : Mixed) : Prop where
  toServer : x.toServer = []
  toClient : x.toClient = []
  received_server : x.got .server = x.sent .client
  received_client : x.got .client = x.sent .server
  open_server : 0 < x.server.stream.sendWindow
  open_client : ∃ s, x.client.objs[0]? = some s ∧ s.outbound = [] ∧ 0 < s.sendWindow

/-- Nothing is left in the places a step of the server empties. -/
structure Idle (e : End) : Prop where
  charged : e.charged = []
  backlog : e.stream.recvItems = []
  popped : e.popped = []
  due : e.due = []

/-- A server none of whose steps can run is idle. -/
theorem idle_of_rest {x : Mixed}
    (hrest : ∀ a, x.Inner (.server a) → x.serverStep a = none) :
    Idle x.server ∧ x.toServer = [] := by
  have hnone : ∀ a, x.Inner (.server a) → x.port.act true a = none := by
    intro a ha
    exact Option.map_eq_none_iff.1 (hrest a ha)
  refine ⟨⟨?_, ?_, ?_, ?_⟩, ?_⟩
  · cases hc : x.server.charged with
    | nil => rfl
    | cons b rest => simpa [Port.act, Mixed.port, hc] using hnone (.writeMsg 0) rfl
  · cases hr : x.server.stream.recvItems with
    | nil => rfl
    | cons f rest =>
        simpa [Port.act, Mixed.port, Go.Stream.popRecv, hr] using hnone .popRecv trivial
  · cases hp : x.server.popped with
    | nil => rfl
    | cons f rest => simpa [Port.act, Mixed.port, hp] using hnone (.returnCredit 0) trivial
  · cases hd : x.server.due with
    | nil => rfl
    | cons d rest => simpa [Port.act, Mixed.port, hd] using hnone (.writeUpdate 0) trivial
  · cases ht : x.toServer with
    | nil => rfl
    | cons f rest => simpa [Port.act, Mixed.port, ht] using hnone .deliver trivial

/-- A client none of whose steps can run has returned everything that has arrived. -/
theorem unread_of_rest {x : Mixed} {s : Ts.StreamImpl} {l : Logged} (hx : Mirrors W x l)
    (hs : x.client.objs[0]? = some s)
    (hrest : ∀ a, x.Inner (.client a) → x.clientStep size a = none) :
    x.toClient = [] ∧ unread s = [] := by
  obtain ⟨t, b, hold, hsh, -⟩ := hx.client
  obtain rfl : s = t := Option.some.inj (hs.symm.trans hold.stream)
  refine ⟨?_, ?_⟩
  · cases htc : x.toClient with
    | nil => rfl
    | cons f rest => simpa [Mixed.clientStep, htc] using hrest .deliver trivial
  · have hvalues : s.inbound.values = [] := by
      by_contra hne
      cases hrest .recv ⟨s, hs, hne⟩
    have hall : s.inbound.settled.length ≤ s.resumed := by
      by_contra hlt
      have hr : ∃ r, s.inbound.settled[s.resumed]? = some r :=
        ⟨_, List.getElem?_eq_getElem (not_le.1 hlt)⟩
      obtain ⟨r, hr⟩ := hr
      obtain ⟨v, rfl, -⟩ := hsh.settled_value hr
      have hstep := hrest .resume trivial
      rw [Mixed.clientStep, resume_eq hold hr] at hstep
      cases hstep
    rw [unread, hvalues, List.drop_eq_nil_of_le hall]
    rfl

/-- **At rest everything has been received.**  A payload that waits in the client would find
the window open. -/
theorem drained_of_rest {x : Mixed} {l : Logged} (hW : 1 ≤ W) (hi : Simulates W x l)
    (hrest : ∀ a, x.Inner a → x.step size a = none) : Drained x := by
  obtain ⟨s, b, hold, hsh, -⟩ := hi.mirrors.client
  obtain ⟨hidle, hts⟩ := idle_of_rest fun a => hrest (.server a)
  obtain ⟨htc, hunread⟩ := unread_of_rest hi.mirrors hold.stream fun a => hrest (.client a)
  have hwin := hi.client_open hold.stream hW hts htc hidle.backlog hidle.popped hidle.due
  have hout := hi.pumped s hold.stream hwin
  have hbuf : s.bufferedBytes = 0 := by
    have hbacklog := hsh.backlog
    rw [← hsh.unread_eq, hunread] at hbacklog
    rw [hsh.buffered, (hi.good.ok .client).bytes, hbacklog]
    rfl
  obtain ⟨hclient, hserver⟩ := hi.delivered hold.stream
  rw [hidle.backlog, hts, hout] at hclient
  rw [hunread, htc, hidle.charged] at hserver
  exact ⟨hts, htc, by simpa [payloads] using hclient.symm, by simpa [payloads] using hserver.symm,
    hi.server_open hold.stream hW hts htc hidle.charged hbuf, s, hold.stream, hout, hwin⟩

section Results

variable (size : Frame → ℕ) (method : Text) (headers : Headers) {maxSendBuffer : ℤ} {x : Mixed}

/-- **The link drains.**  From any state of any run: steps that hand nothing new to the link
are over after `work` of them, in whatever order they are taken; and where none can run, all
that was sent in either direction has been received, and both ends may send again. -/
theorem mixed_progress (hW : 1 ≤ W) (hW' : W < 2 ^ 32)
    (h : Reach (Mixed.step size) Mixed.Calm (Mixed.start size method headers W maxSendBuffer) x)
    (l : List Label) (y : Mixed) (hy : exec (Mixed.step size) Mixed.Inner x l = some y) :
    l.length ≤ x.work ∧ (Drained y ∨ ∃ a y', y.Inner a ∧ y.step size a = some y') := by
  have hx := exists_simulates size method headers hW hW' h
  have hlower : ∀ z a z', (∃ k, Simulates W z k) → z.Inner a → z.step size a = some z' →
      (∃ k, Simulates W z' k) ∧ z'.work < z.work := by
    rintro z a z' ⟨k, hk⟩ ha hs
    exact work_step hW' hk ha hs
  obtain ⟨⟨k, hk⟩, hle⟩ := length_exec_le Mixed.work hlower hx hy
  refine ⟨by omega, ?_⟩
  by_cases hmore : ∃ a y', y.Inner a ∧ y.step size a = some y'
  · exact .inr hmore
  · have hrest : ∀ a, y.Inner a → y.step size a = none := by
      intro a ha
      rw [Option.eq_none_iff_forall_ne_some]
      intro y' hs
      exact hmore ⟨a, y', ha, hs⟩
    exact .inl (drained_of_rest hW hk hrest)

/-- A send of the client that waits for credit, and a message of the server that is not yet
written: eleven steps, of at most sixteen. -/
theorem mixed_progress_waiting :
    ∃ x y l, Reach (Mixed.step fun _ => 1) Mixed.Calm
        (Mixed.start (fun _ => 1) .empty ∅ 2 0) x ∧
      exec (Mixed.step fun _ => 1) Mixed.Inner x l = some y ∧
      y.got .server = [[1, 2], [4]] ∧ y.got .client = [[9]] ∧
      l.length ≤ x.work ∧
      (Drained y ∨ ∃ a y', y.Inner a ∧ y.step (fun _ => 1) a = some y') := by
  obtain ⟨x, hx, hp⟩ := exists_reach_of_exec (Mixed.step fun _ => 1) Mixed.Calm
    (Mixed.start (fun _ => 1) .empty ∅ 2 0)
    (fun x => decide ((exec (Mixed.step fun _ => 1) Mixed.Inner x
      [.server .deliver, .server .popRecv, .server (.returnCredit 0), .server (.writeUpdate 0),
        .client .deliver, .server .deliver, .server .popRecv, .server (.writeMsg 0),
        .client .deliver, .client .recv, .client .resume]).map
          (fun y : Mixed => (y.got .server, y.got .client)) = some ([[1, 2], [4]], [[9]])))
    [.client (.send [1, 2]), .client (.send [4]), .server (.sendRaw [9])] (by decide)
  obtain ⟨y, hy, hgot⟩ := Option.map_eq_some_iff.1 (of_decide_eq_true hp)
  obtain ⟨hlen, hdone⟩ := mixed_progress _ _ _ (by decide) (by decide) hx _ y hy
  exact ⟨x, y, _, hx, hy, congrArg Prod.fst hgot, congrArg Prod.snd hgot, hlen, hdone⟩

end Results

end WsProto.Agree.MixedLink
