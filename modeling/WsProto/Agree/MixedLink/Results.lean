import WsProto.Agree.MixedLink.Simulation

/-!
# A TypeScript client on a Go server: what carries over

The results about two Go ends, for a TypeScript client on a Go server and every
interleaving of its events with the critical sections of the server.

* `mixed_unreset` — neither end ever resets the stream for an overflow;
* `mixed_conserved` — the credit of both directions is conserved, and nothing waits in the
  client once all it has sent is consumed;
* `mixed_delivered` — both directions deliver exactly once and in order.
-/

namespace WsProto.Agree.MixedLink

open Machine Go.Flow

section Results

variable {W : ℤ} (size : Frame → ℕ) (method : Text) (headers : Headers) {maxSendBuffer : ℤ}
  {x : Mixed}

/-- **No reset for an overflow.**  In every run both streams stay registered and live, and a
message that is next to arrive at either end finds a backlog below the window there, so that
it is taken in. -/
theorem mixed_unreset (hW : 1 ≤ W) (hW' : W < 2 ^ 32)
    (h : Reach (Mixed.step size) Mixed.Calm (Mixed.start size method headers W maxSendBuffer) x) :
    x.server.registered = true ∧ x.server.stream.ctxErr = none ∧
      x.client.defunct = false ∧ x.client.streams.lookup 1 = some 0 ∧
      (∀ f rest, x.toServer = f :: rest → f.kind = .kindMsg →
        ∃ st, x.server.stream.tryDeliver f = some st ∧
          st.recvItems = x.server.stream.recvItems ++ [f]) ∧
      ∃ s, x.client.objs[0]? = some s ∧ s.finished = false ∧
        ∀ f rest, x.toClient = f :: rest → f.kind = .kindMsg →
          x.client.route size f = (x.client.setObj 0 (s.pushMsg f.payload), none) := by
  obtain ⟨l, hx, hl, -⟩ := exists_simulates size method headers hW hW' h
  have hok := hl.ok .server
  rw [hx.server] at hok
  obtain ⟨s, b, hold, hsh, -⟩ := hx.client
  refine ⟨hok.registered, hok.live, hold.live, hold.registered, ?_, s, hold.stream,
    hsh.unfinished, ?_⟩
  · intro f rest hf hk
    have hlt := hl.recvBytes_lt (p := .client) (hx.toServer.trans hf) hk
    rw [show Side.client.other = Side.server from rfl, hx.server] at hlt
    have hover : ¬ (x.server.stream.recvItems ≠ [] ∧
        x.server.stream.maxRecvBytes < x.server.stream.recvBytes) := by
      rw [hok.ceiling]
      omega
    simp [Go.Stream.tryDeliver, Go.Stream.deliver, hok.live, hover, Go.Stream.signalRecv]
  · intro f rest hf hk
    obtain ⟨p, rfl⟩ | ⟨d, rfl⟩ := hx.frames f (by rw [hf]; exact List.mem_cons_self)
    · exact route_msg hold hsh hl (hx.toClient.trans hf)
    · cases hk

/-- Two messages that overdraw the window of two bytes, and one back. -/
theorem mixed_unreset_two :
    ∃ x, Reach (Mixed.step fun _ => 1) Mixed.Calm (Mixed.start (fun _ => 1) .empty ∅ 2 0) x ∧
      x.toServer.length = 2 ∧ x.toClient.length = 1 ∧ x.server.registered = true ∧
      x.client.streams.lookup 1 = some 0 := by
  obtain ⟨x, hx, hp⟩ := exists_reach_of_exec (Mixed.step fun _ => 1) Mixed.Calm
    (Mixed.start (fun _ => 1) .empty ∅ 2 0)
    (fun x => decide (x.toServer.length = 2 ∧ x.toClient.length = 1))
    [.client (.send [1]), .client (.send [2, 3]), .client (.send [4]), .server (.sendRaw [9]),
      .server (.writeMsg 0)] (by decide)
  obtain ⟨hs, hc⟩ := of_decide_eq_true hp
  obtain ⟨hreg, -, -, hlook, -⟩ := mixed_unreset _ _ _ (by decide) (by decide) hx
  exact ⟨x, hx, hs, hc, hreg, hlook⟩

/-- What the receivers hold back is below half of the window. -/
theorem Simulates.pending_lt {l : Logged} {s : Ts.StreamImpl} (hi : Simulates W x l)
    (hs : x.client.objs[0]? = some s) :
    s.pendingCredit < max 1 (W / 2) ∧ x.server.stream.pendingCredit < max 1 (W / 2) := by
  obtain ⟨hx, hl, -⟩ := hi
  obtain ⟨t, b, hold, hsh, -⟩ := hx.client
  obtain rfl : s = t := Option.some.inj (hs.symm.trans hold.stream)
  constructor
  · have hokc := hl.ok .client
    have hlt := hokc.pending_lt
    rw [hsh.pending, Go.Stream.creditThreshold, hokc.window] at hlt
    split_ifs at hlt <;> omega
  · have hoks := hl.ok .server
    rw [hx.server] at hoks
    have hlt := hoks.pending_lt
    rw [Go.Stream.creditThreshold, hoks.window] at hlt
    split_ifs at hlt <;> omega

/-- The credit of the two directions, read off the Go link. -/
theorem Simulates.conserved {l : Logged} {s : Ts.StreamImpl} (hi : Simulates W x l)
    (hs : x.client.objs[0]? = some s) :
    s.sendWindow + (sizes x.toServer).sum + x.server.stream.recvBytes +
        (x.server.popped.map Go.Flow.size).sum + x.server.stream.pendingCredit +
        (x.server.due.map UInt32.toNat).sum + credits x.toClient = W ∧
      x.server.stream.sendWindow + (x.server.charged.map List.length).sum +
        (sizes x.toClient).sum + s.bufferedBytes + s.pendingCredit + credits x.toServer = W := by
  obtain ⟨hx, hl, -⟩ := hi
  obtain ⟨t, b, hold, hsh, -⟩ := hx.client
  obtain rfl : s = t := Option.some.inj (hs.symm.trans hold.stream)
  have hoks := hl.ok .server
  have hokc := hl.ok .client
  have hsend := hl.accounts.conserved.total hl.registered .client
  have hrecv := hl.accounts.conserved.total hl.registered .server
  simp only [CreditWindow.total, Link.window, Go.Flow.window, List.sum_append, Nat.cast_add,
    show Side.client.other = Side.server from rfl, show Side.server.other = Side.client from rfl,
    hx.server, hx.toServer, hx.toClient, hsh.charged, hsh.popped, hsh.due, hsh.credit,
    List.map_nil, List.sum_nil, Nat.cast_zero] at hsend hrecv
  rw [← hokc.bytes, ← hsh.buffered, hsh.pending] at hrecv
  rw [hx.server] at hoks
  rw [← hoks.bytes] at hsend
  exact ⟨by omega, by omega⟩

theorem Simulates.recvBytes {l : Logged} (hi : Simulates W x l) :
    x.server.stream.recvBytes = ((x.server.stream.recvItems.map Go.Flow.size).sum : ℕ) := by
  have hok := hi.good.ok .server
  rw [hi.mirrors.server] at hok
  exact hok.bytes

/-- Once all the client has sent is consumed and accounted for, its window is open. -/
theorem Simulates.client_open {l : Logged} {s : Ts.StreamImpl} (hi : Simulates W x l)
    (hs : x.client.objs[0]? = some s) (hW : 1 ≤ W) (hts : x.toServer = []) (htc : x.toClient = [])
    (hr : x.server.stream.recvItems = []) (hpop : x.server.popped = []) (hd : x.server.due = []) :
    0 < s.sendWindow := by
  obtain ⟨hsend, -⟩ := hi.conserved hs
  obtain ⟨-, hlt⟩ := hi.pending_lt hs
  rw [hi.recvBytes, hts, htc, hr, hpop, hd] at hsend
  simp only [List.map_nil, List.sum_nil, sizes_nil, credits_nil, Nat.cast_zero] at hsend
  omega

/-- Once the client has consumed all the server has sent, the server's window is open. -/
theorem Simulates.server_open {l : Logged} {s : Ts.StreamImpl} (hi : Simulates W x l)
    (hs : x.client.objs[0]? = some s) (hW : 1 ≤ W) (hts : x.toServer = []) (htc : x.toClient = [])
    (hc : x.server.charged = []) (hbuf : s.bufferedBytes = 0) :
    0 < x.server.stream.sendWindow := by
  obtain ⟨-, hrecv⟩ := hi.conserved hs
  obtain ⟨hlt, -⟩ := hi.pending_lt hs
  rw [hts, htc, hc, hbuf] at hrecv
  simp only [List.map_nil, List.sum_nil, sizes_nil, credits_nil, Nat.cast_zero] at hrecv
  omega

/-- **Credit is conserved in both directions.**  What the sender may still send, what is in
flight, the receiver's backlog, what it holds back and the credit on its way add up to the
window.  So once all the client has sent is consumed and accounted for nothing waits in it,
and once the client has consumed everything the server's window is open. -/
theorem mixed_conserved (hW : 1 ≤ W) (hW' : W < 2 ^ 32)
    (h : Reach (Mixed.step size) Mixed.Calm (Mixed.start size method headers W maxSendBuffer) x) :
    ∃ s, x.client.objs[0]? = some s ∧
      s.sendWindow + (sizes x.toServer).sum + x.server.stream.recvBytes +
        (x.server.popped.map Go.Flow.size).sum + x.server.stream.pendingCredit +
        (x.server.due.map UInt32.toNat).sum + credits x.toClient = W ∧
      x.server.stream.sendWindow + (x.server.charged.map List.length).sum +
        (sizes x.toClient).sum + s.bufferedBytes + s.pendingCredit + credits x.toServer = W ∧
      (x.toServer = [] → x.toClient = [] → x.server.stream.recvItems = [] →
        x.server.popped = [] → x.server.due = [] → s.outbound = []) ∧
      (x.toServer = [] → x.toClient = [] → x.server.charged = [] → s.bufferedBytes = 0 →
        0 < x.server.stream.sendWindow) := by
  obtain ⟨l, hi⟩ := exists_simulates size method headers hW hW' h
  obtain ⟨s, b, hold, -⟩ := hi.mirrors.client
  obtain ⟨hsend, hrecv⟩ := hi.conserved hold.stream
  refine ⟨s, hold.stream, hsend, hrecv, ?_, hi.server_open hold.stream hW⟩
  intro hts htc hr hpop hd
  exact hi.pumped s hold.stream (hi.client_open hold.stream hW hts htc hr hpop hd)

/-- A send that waits for credit; the credit comes back, and it is on its way. -/
theorem mixed_conserved_released :
    ∃ x s, Reach (Mixed.step fun _ => 1) Mixed.Calm (Mixed.start (fun _ => 1) .empty ∅ 2 0) x ∧
      x.client.objs[0]? = some s ∧ s.outbound = [] ∧ (sizes x.toServer).sum = 1 ∧
      s.sendWindow + (sizes x.toServer).sum + x.server.stream.recvBytes +
        (x.server.popped.map Go.Flow.size).sum + x.server.stream.pendingCredit +
        (x.server.due.map UInt32.toNat).sum + credits x.toClient = 2 := by
  obtain ⟨x, hx, hp⟩ := exists_reach_of_exec (Mixed.step fun _ => 1) Mixed.Calm
    (Mixed.start (fun _ => 1) .empty ∅ 2 0)
    (fun x => decide ((sizes x.toServer).sum = 1 ∧
      x.client.objs[0]?.map Ts.StreamImpl.outbound = some []))
    [.client (.send [1, 2]), .client (.send [4]), .server .deliver, .server .popRecv,
      .server (.returnCredit 0), .server (.writeUpdate 0), .client .deliver] (by decide)
  obtain ⟨hs, hout⟩ := of_decide_eq_true hp
  obtain ⟨s, hobj, hsum, -⟩ := mixed_conserved _ _ _ (by decide) (by decide) hx
  rw [hobj] at hout
  exact ⟨x, s, hx, hobj, Option.some.inj hout, hs, hsum⟩

/-- The messages of a client stream that no continuation of `recv` has returned yet. -/
def unread (s : Ts.StreamImpl) : List Payload :=
  ((s.inbound.settled.drop s.resumed).filterMap fun
    | .value v => some v
    | _ => none) ++ s.inbound.values

theorem Shadows.unread_eq {s : Ts.StreamImpl} {b : Mailbox Payload Inbox.Cause} {e : End}
    (hsh : Shadows W s b e) : unread s = b.accepted.drop s.resumed := by
  have hle := hsh.resumed
  rw [hsh.settled, List.length_map] at hle
  rw [unread, hsh.settled, ← List.map_drop, List.filterMap_map]
  simp only [Function.comp_def, List.filterMap_some]
  rw [hsh.inbound, Ts.queueOf_of_none hsh.live, Mailbox.buffered,
    ← List.drop_append_of_le_length hle, List.take_append_drop]

/-- What the callers of the two ends have handed over and received, read off the Go link. -/
theorem Simulates.delivered {l : Logged} {s : Ts.StreamImpl} (hi : Simulates W x l)
    (hs : x.client.objs[0]? = some s) :
    x.sent .client = x.got .server ++ (x.server.stream.recvItems.map Frame.payload ++
        payloads x.toServer ++ s.outbound) ∧
      x.sent .server = x.got .client ++ (unread s ++ payloads x.toClient ++ x.server.charged) := by
  obtain ⟨hx, hl, -⟩ := hi
  obtain ⟨t, b, hold, hsh, hgot, hsent⟩ := hx.client
  obtain rfl : s = t := Option.some.inj (hs.symm.trans hold.stream)
  have hsend := hl.delivers.sent_eq .client
  have hrecv := hl.delivers.sent_eq .server
  rw [show Side.client.other = Side.server from rfl, hx.gotServer, Logged.transit,
    Go.Flow.transit, show Side.client.other = Side.server from rfl, hx.server, hx.toServer,
    hsh.charged, List.append_nil] at hsend
  rw [show Side.server.other = Side.client from rfl, hx.gotClient, hx.sentServer, Logged.transit,
    Go.Flow.transit, show Side.server.other = Side.client from rfl, hx.server, hx.toClient,
    hsh.backlog] at hrecv
  have hmsgs : ((b.accepted.drop s.resumed).map Flow.msg).map Frame.payload = unread s := by
    rw [List.map_map, hsh.unread_eq]
    exact List.map_id _
  rw [hmsgs] at hrecv
  refine ⟨?_, hrecv⟩
  rw [hsent, hsend]
  simp only [List.append_assoc]

/-- **Exactly once, in order, in both directions.**  What the client's callers have sent is
what the server's have received, then its backlog, what is on the wire and what waits in the
client; what the server has sent is what the client's callers have received, then what is
buffered there, on the wire, and charged and not yet written. -/
theorem mixed_delivered (hW : 1 ≤ W) (hW' : W < 2 ^ 32)
    (h : Reach (Mixed.step size) Mixed.Calm (Mixed.start size method headers W maxSendBuffer) x) :
    ∃ s, x.client.objs[0]? = some s ∧
      x.sent .client = x.got .server ++ (x.server.stream.recvItems.map Frame.payload ++
        payloads x.toServer ++ s.outbound) ∧
      x.sent .server = x.got .client ++ (unread s ++ payloads x.toClient ++ x.server.charged) := by
  obtain ⟨l, hi⟩ := exists_simulates size method headers hW hW' h
  obtain ⟨s, b, hold, -⟩ := hi.mirrors.client
  exact ⟨s, hold.stream, hi.delivered hold.stream⟩

/-- One message each way; the client's `recv` was called before it arrived. -/
theorem mixed_delivered_both :
    ∃ x s, Reach (Mixed.step fun _ => 1) Mixed.Calm (Mixed.start (fun _ => 1) .empty ∅ 2 0) x ∧
      x.got .client = [[9]] ∧ x.got .server = [[1]] ∧
      x.sent .client = x.got .server ++ (x.server.stream.recvItems.map Frame.payload ++
        payloads x.toServer ++ s.outbound) ∧
      x.sent .server = x.got .client ++ (unread s ++ payloads x.toClient ++ x.server.charged) := by
  obtain ⟨x, hx, hp⟩ := exists_reach_of_exec (Mixed.step fun _ => 1) Mixed.Calm
    (Mixed.start (fun _ => 1) .empty ∅ 2 0)
    (fun x => decide (x.got .client = [[9]] ∧ x.got .server = [[1]]))
    [.client (.send [1]), .client .recv, .client (.send [2, 3]), .server .deliver,
      .server .popRecv, .server (.sendRaw [9]), .server (.writeMsg 0), .client .deliver,
      .client .resume] (by decide)
  obtain ⟨hc, hs⟩ := of_decide_eq_true hp
  obtain ⟨s, -, hsend, hrecv⟩ := mixed_delivered _ _ _ (by decide) (by decide) hx
  exact ⟨x, s, hx, hc, hs, hsend, hrecv⟩

end Results

end WsProto.Agree.MixedLink
