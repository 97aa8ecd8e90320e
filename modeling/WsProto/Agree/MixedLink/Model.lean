import WsProto.Go.Flow.Delivery
import WsProto.Ts.Receive
import WsProto.Agree.Flow

/-!
# A TypeScript client on a Go server: the model of one stream

The deployment the two runtimes are for: a TypeScript client with a stream on an open
socket, the Go stream that serves it, and an in-order wire in each direction.

* a step of the server is a critical section of `WsProto.Go.Flow.Link`, with any number of
  receives between two of them, and with sends that do not overtake each other;
* a step of the client is an event of its mux, run to its end: a call of `send`, which
  pumps, a frame that arrives, which may pump too, a call of `recv`, or the continuation of
  a `recv` behind its `await`, which may return credit.

`Mirrors` relates it to the link of two Go ends, whose runs are known: a TypeScript stream
stands beside a Go end (`Shadows`) with the same credit, the same backlog and nothing between
two critical sections.
-/

namespace WsProto.Agree.MixedLink

open Machine Go.Flow

/-! ## The model -/

/-- The events of the client. -/
inductive ClientAct where
  | send (p : Payload)
  /-- The next frame arrives. -/
  | deliver
  | recv
  /-- The continuation of the oldest `recv` that is due. -/
  | resume
  deriving DecidableEq

inductive Label where
  | client (a : ClientAct)
  | server (a : Act)
  deriving DecidableEq

/-- The two ends and the wires.  `sent` and `got` list what the callers of an end have handed
to it and received from it. -/
structure Mixed where
  server : End
  client : Ts.Mux
  /-- How many of the frames of the client the server has routed. -/
  routed : ℕ
  toClient : List Frame := []
  sent : Side → List Payload := fun _ => []
  got : Side → List Payload := fun _ => []

namespace Mixed

/-- The frames on their way to the server. -/
def toServer (x : Mixed) : List Frame := x.client.sent.drop x.routed

/-- The port of the server. -/
def port (x : Mixed) : Port := ⟨x.server, x.toServer, x.toClient⟩

/-- What the next continuation of `recv` returns to its caller. -/
def heard (m : Ts.Mux) : List Payload :=
  match (m.objs[0]?).bind fun s : Ts.StreamImpl => s.inbound.settled[s.resumed]? with
  | some (.value v) => [v]
  | _ => []

section

variable (size : Frame → ℕ)

/-- An event of the client. -/
def clientStep (x : Mixed) : ClientAct → Option Mixed
  | .send p =>
      some { x with
        client := (x.client.send size 0 p).1
        sent := Function.update x.sent .client (x.sent .client ++ [p]) }
  | .deliver =>
      match x.toClient with
      | [] => none
      | f :: rest => some { x with client := (x.client.route size f).1, toClient := rest }
  | .recv => some { x with client := x.client.recv 0 }
  | .resume =>
      (x.client.resume size 0).map fun y =>
        { x with
          client := y.1
          got := Function.update x.got .client (x.got .client ++ heard x.client) }

/-- A critical section of the server. -/
def serverStep (x : Mixed) (a : Act) : Option Mixed :=
  (x.port.act true a).map fun y =>
    { x with
      server := y.here
      toClient := y.outb
      routed := if a = .deliver then x.routed + 1 else x.routed
      sent := Function.update x.sent .server (x.sent .server ++ a.said)
      got := Function.update x.got .server (x.got .server ++ x.server.heard a) }

def step (x : Mixed) : Label → Option Mixed
  | .client a => x.clientStep size a
  | .server a => x.serverStep a

/-- Client and server assume the same window; the OPEN of the stream has been routed. -/
def start (method : Text) (headers : Headers) (W maxSendBuffer : ℤ) : Mixed where
  server := { stream := { Go.newStream none 1 method W with header := some headers } }
  client := Ts.Mux.startOne size method headers W maxSendBuffer
  routed := 1

end

/-- The condition on a step: messages are below `2 ^ 31` bytes, the client sends while its
backlog is within `maxSendBuffer`, and the server writes its messages in the order of their
charges. -/
def Calm (x : Mixed) : Label → Prop
  | .client (.send p) => Small p.length ∧ Flow.TsSender.Within x.client
  | .client _ => True
  | .server (.sendRaw b) => Small b.length
  | .server (.writeMsg i) => i = 0
  | .server _ => True

instance (x : Mixed) (a : Label) : Decidable (x.Calm a) :=
  match a with
  | .client (.send p) => inferInstanceAs (Decidable (p.length < 2 ^ 31 ∧ _))
  | .client .deliver | .client .recv | .client .resume => isTrue trivial
  | .server (.sendRaw b) => inferInstanceAs (Decidable (b.length < 2 ^ 31))
  | .server (.writeMsg i) => inferInstanceAs (Decidable (i = 0))
  | .server .deliver | .server .popRecv | .server (.returnCredit _) | .server (.writeUpdate _) =>
      isTrue trivial

end Mixed

/-! ## The Go link -/

/-- The steps of the Go link that stand for calm ones. -/
def Calm (l : Logged) (a : Side × Act) : Prop := l.InOrder a ∧ l.SmallSends a

variable {W : ℤ}

/-- What holds of the Go link in such runs. -/
structure Good (W : ℤ) (l : Logged) : Prop where
  delivers : l.Delivers W
  accounts : l.Accounts W

/-- Two fresh Go ends; the server's has the method and the headers of its OPEN. -/
def fresh (method : Text) (headers : Headers) (W : ℤ) : Logged where
  link := { Link.start 1 W with
    ends := Function.update (Link.start 1 W).ends .server
      { stream := { Go.newStream none 1 method W with header := some headers } } }

/-- Nothing that is counted depends on the method or the headers. -/
theorem good_fresh (method : Text) (headers : Headers) (hW : 1 ≤ W) :
    Good W (fresh method headers W) := by
  have hok : ∀ p, ((fresh method headers W).link.ends p).Ok W := by
    intro p
    have h := Link.ok_start 1 hW p
    cases p with
    | client => exact h
    | server => exact ⟨h.registered, h.live, h.bytes, h.ceiling, h.window, h.pending_nonneg,
        h.pending_lt⟩
  have hwin : ∀ p, (fresh method headers W).link.window p = ⟨W, [], 0⟩ := by
    intro p
    have h := Link.window_start 1 hW p
    cases p <;> exact h
  have hsmall : ∀ p, ((fresh method headers W).link.ends p).Small := by
    intro p
    have h := ((Link.conserved_start 1 hW).small (fun _ => rfl) p).1
    cases p with
    | client => exact h
    | server => exact ⟨h.charged, h.backlog, h.popped⟩
  have hwire : ∀ p, (fresh method headers W).link.wire p = [] := fun _ => rfl
  refine ⟨⟨⟨hok, ?_, ?_⟩, ?_⟩, ⟨⟨?_, ?_, fun _ => hok, ?_, ?_⟩, ?_⟩⟩
  · intro p f hf
    rw [hwire] at hf
    cases hf
  · intro p
    rw [hwin]
    exact CreditWindow.disciplined_new W
  · intro p
    cases p <;> rfl
  · intro p hp
    rw [(hok p).registered] at hp
    cases hp
  · intro p f hf
    rw [hwire] at hf
    cases hf
  · intro _ p
    refine ⟨hsmall p, fun f hf => ?_⟩
    rw [hwire] at hf
    cases hf
  · intro _ p
    rw [hwin]
    simp [CreditWindow.total]
  · intro _ p
    cases p <;> exact List.Perm.refl _

theorem good_reach (hW : W < 2 ^ 32) {l l' : Logged} (hl : Good W l)
    (h : Reach Logged.step Calm l l') : Good W l' := by
  refine h.invariant hl ?_
  intro l a l' hl hcalm hs
  exact ⟨Logged.delivers_step hl.delivers hcalm.1 hs,
    Logged.accounts_step hW hl.accounts hcalm.2 hs⟩

namespace Good

variable {l : Logged} (hl : Good W l)

include hl

theorem ok (p : Side) : (l.link.ends p).Ok W := hl.delivers.ordered.ok p

theorem registered (p : Side) : (l.link.ends p).registered = true := (hl.ok p).registered

/-- A backlog in front of a message is below the window. -/
theorem recvBytes_lt {p : Side} {f : Frame} {rest : List Frame} (hw : l.link.wire p = f :: rest)
    (hk : f.kind = .kindMsg) : (l.link.ends p.other).stream.recvBytes < W := by
  have hd := hl.delivers.ordered.disciplined p
  rw [(hl.ok p.other).bytes]
  refine hd.front_lt _ (Go.Flow.size f)
    (sizes rest ++ (l.link.ends p).charged.map List.length) ?_
  simp [Link.window, Go.Flow.window, hw, sizes_cons_msg hk]

theorem small_backlog (p : Side) :
    ∀ f ∈ (l.link.ends p).stream.recvItems, Small (Go.Flow.size f) :=
  (hl.accounts.conserved.small hl.registered p).1.backlog

end Good

/-! ## The relation -/

/-- A TypeScript stream beside a Go end: `h` is the mailbox its queue stands for, and the
backlog of the Go end is what the continuations of `recv` have not yet returned. -/
structure Shadows (W : ℤ) (s : Ts.StreamImpl) (h : Mailbox Payload Inbox.Cause) (e : End) :
    Prop where
  id : s.id = 1
  unfinished : s.finished = false
  sendable : s.sendClosed = false
  window : s.initialWindow = W
  inbound : s.inbound = Ts.queueOf Ts.causeError h
  live : h.outcome = none
  resumed : s.resumed ≤ s.inbound.settled.length
  credit : e.stream.sendWindow = s.sendWindow
  pending : e.stream.pendingCredit = s.pendingCredit
  backlog : e.stream.recvItems = (h.accepted.drop s.resumed).map Flow.msg
  buffered : s.bufferedBytes = e.stream.recvBytes
  small : ∀ p ∈ s.outbound, Small p.length
  endId : e.stream.id = 1
  charged : e.charged = []
  popped : e.popped = []
  due : e.due = []

namespace Shadows

variable {s : Ts.StreamImpl} {h : Mailbox Payload Inbox.Cause} {e : End}

theorem settled (hsh : Shadows W s h e) :
    s.inbound.settled = (h.accepted.take h.pulls).map .value := by
  rw [hsh.inbound, Ts.queueOf_of_none hsh.live]
  simp only [Mailbox.results, hsh.live, Option.map_none, Option.getD_none, List.append_nil,
    List.map_map]
  rfl

theorem resumed_le (hsh : Shadows W s h e) : s.resumed ≤ h.accepted.length := by
  have hle := hsh.resumed
  rw [hsh.settled, List.length_map, List.length_take] at hle
  omega

end Shadows

/-- The client mux with its stream. -/
structure Holds (W : ℤ) (m : Ts.Mux) (s : Ts.StreamImpl) : Prop where
  opened : m.opened = true
  live : m.defunct = false
  registered : m.streams.lookup 1 = some 0
  limit : m.maxRecvBytes = W
  stream : m.objs[0]? = some s

/-- The mixed link and a Go link in the same state. -/
structure Mirrors (W : ℤ) (x : Mixed) (l : Logged) : Prop where
  server : l.link.ends .server = x.server
  serverId : x.server.stream.id = 1
  toClient : l.link.wire .server = x.toClient
  toServer : l.link.wire .client = x.toServer
  routed : x.routed ≤ x.client.sent.length
  frames : ∀ f ∈ x.toClient, (∃ p, f = Flow.msg p) ∨ ∃ d, f = Flow.update d
  client : ∃ s h, Holds W x.client s ∧ Shadows W s h (l.link.ends .client) ∧
    x.got .client = h.accepted.take s.resumed ∧
    x.sent .client = l.sent .client ++ s.outbound
  gotServer : l.got .server = x.got .server
  gotClient : l.got .client = x.got .client
  sentServer : l.sent .server = x.sent .server

end WsProto.Agree.MixedLink
