import WsProto.Lib.Run
import WsProto.Lib.Window
import WsProto.Go.Mux

/-!
# Flow control between two Go ends: the model

Two streams of one RPC, the client's and the server's, joined by an in-order
wire in each direction.  Every step is one critical section of one end:

* `sendRaw b` — a `SendRaw` finds the window open and charges it; the frame is
  written later, by `writeMsg`, outside the stream's mutex.  Any number of
  sends may be between the two;
* `deliver` — the read loop routes the next frame of the wire;
* `popRecv` — a receive takes the oldest buffered message; `returnCredit`
  accounts for it later; a WINDOW_UPDATE that becomes due is written later still,
  by `writeUpdate`.

The abstract content of the protocol is the credit window of
`WsProto.Lib.Window`.  `window` reads it off two ends and their wires, and
`act_sender` and `act_receiver` say what every step of the code does to it, in
the direction in which the stepping end sends and in the one in which it
receives.
-/

namespace WsProto.Go.Flow

open Machine

/-- The two ends. -/
inductive Side where
  | client
  | server
  deriving DecidableEq

def Side.other : Side → Side
  | .client => .server
  | .server => .client

@[simp] theorem Side.other_other (p : Side) : p.other.other = p := by cases p <;> rfl

@[simp] theorem Side.other_ne (p : Side) : p.other ≠ p := by cases p <;> decide

/-- One end of the RPC: its stream, and its calls that are between two critical
sections. -/
structure End where
  stream : Stream
  /-- The mux still routes frames to the stream. -/
  registered : Bool := true
  /-- Sends that have charged the window and not yet written their frame. -/
  charged : List Payload := []
  /-- Messages a receive has taken and not yet accounted for. -/
  popped : List Frame := []
  /-- WINDOW_UPDATE deltas that are due and not yet written. -/
  due : List UInt32 := []
  deriving DecidableEq

/-- What the calls of one end see: the end, its inbound and its outbound wire. -/
structure Port where
  here : End
  inb : List Frame
  outb : List Frame
  deriving DecidableEq

/-- The critical sections of one end. -/
inductive Act where
  | sendRaw (b : Payload)
  | writeMsg (i : ℕ)
  | deliver
  | popRecv
  | returnCredit (i : ℕ)
  | writeUpdate (i : ℕ)
  deriving DecidableEq

/-- Routing a frame to an end; a stream that has left the registry sees
nothing. -/
def End.route (e : End) (server : Bool) (f : Frame) : End :=
  if e.registered then
    match e.stream.onFrame server f with
    | .kept s => { e with stream := s }
    | .removed s | .overflowed s => { e with stream := s, registered := false }
  else e

/-- One critical section of an end. -/
def Port.act (server : Bool) (x : Port) : Act → Option Port
  | .sendRaw b =>
      match x.here.stream.sendRaw b with
      | .charged s _ =>
          some { x with here := { x.here with stream := s, charged := x.here.charged ++ [b] } }
      | _ => none
  | .writeMsg i =>
      (x.here.charged[i]?).map fun b =>
        { x with
          here := { x.here with charged := x.here.charged.eraseIdx i }
          outb := x.outb ++ [x.here.stream.msgFrame b] }
  | .deliver =>
      match x.inb with
      | [] => none
      | f :: rest => some { x with here := x.here.route server f, inb := rest }
  | .popRecv =>
      (x.here.stream.popRecv).map fun y =>
        { x with here := { x.here with stream := y.2, popped := x.here.popped ++ [y.1] } }
  | .returnCredit i =>
      (x.here.popped[i]?).map fun f =>
        let y := x.here.stream.returnCredit f.payload.length
        { x with
          here := { x.here with
            stream := y.1
            popped := x.here.popped.eraseIdx i
            due := if y.2 = 0 then x.here.due else x.here.due ++ [y.2] } }
  | .writeUpdate i =>
      (x.here.due[i]?).map fun d =>
        { x with
          here := { x.here with due := x.here.due.eraseIdx i }
          outb := x.outb ++ [x.here.stream.windowUpdate d] }

/-- The two ends and the two wires; `wire p` holds what end `p` has written,
oldest first. -/
structure Link where
  ends : Side → End
  wire : Side → List Frame

namespace Link

/-- The port of end `p`. -/
def port (s : Link) (p : Side) : Port := ⟨s.ends p, s.wire p.other, s.wire p⟩

/-- Put a port back. -/
def put (s : Link) (p : Side) (x : Port) : Link where
  ends := Function.update s.ends p x.here
  wire := Function.update (Function.update s.wire p x.outb) p.other x.inb

/-- Both ends are fresh streams with the same id and window, and nothing is in
flight. -/
def start (id : UInt32) (W : ℤ) : Link where
  ends := fun _ => { stream := newStream none id .empty W }
  wire := fun _ => []

/-- A step of end `p`. -/
def step (s : Link) (a : Side × Act) : Option Link :=
  ((s.port a.1).act (a.1 == .server) a.2).map (s.put a.1)

@[simp] theorem port_put (s : Link) (p : Side) (x : Port) : (s.put p x).port p = x := by
  simp [port, put, Function.update_of_ne (Side.other_ne p).symm]

/-- The other end sees the same wires, with their roles exchanged. -/
@[simp] theorem port_put_other (s : Link) (p : Side) (x : Port) :
    (s.put p x).port p.other = ⟨s.ends p.other, x.outb, x.inb⟩ := by
  simp [port, put, Function.update_of_ne (Side.other_ne p).symm]

end Link

/-! ## The credit window of a direction -/

/-- The size of a message. -/
def size (f : Frame) : ℕ := f.payload.length

/-- The sizes of the MSG frames on a wire. -/
def sizes (l : List Frame) : List ℕ := (l.filter (·.kind = .kindMsg)).map size

/-- The credit of the WINDOW_UPDATE frames on a wire. -/
def credits (l : List Frame) : ℕ :=
  ((l.filter (·.kind = .kindWindowUpdate)).map (·.window.toNat)).sum

/-- The credit window of the direction from `snd` to `rcv`, whose wire is `fw`;
`bw` is the wire back.  Unconsumed messages are in the backlog, on the wire or
charged and not yet written, in this order. -/
def window (snd rcv : End) (fw bw : List Frame) : CreditWindow where
  credit := snd.stream.sendWindow
  queue := rcv.stream.recvItems.map size ++ sizes fw ++ snd.charged.map List.length
  owed := (rcv.popped.map size).sum + rcv.stream.pendingCredit +
    (rcv.due.map UInt32.toNat).sum + credits bw

/-- A frame of the kinds this system writes. -/
def FlowKind (f : Frame) : Prop := f.kind = .kindMsg ∨ f.kind = .kindWindowUpdate

/-- An end that has not been reset, with a window of size `W`. -/
structure End.Ok (W : ℤ) (e : End) : Prop where
  registered : e.registered = true
  live : e.stream.ctxErr = none
  /-- `recvBytes` is the weight of the backlog. -/
  bytes : e.stream.recvBytes = ((e.stream.recvItems.map size).sum : ℕ)
  ceiling : e.stream.maxRecvBytes = W
  window : e.stream.initialWindow = W
  pending_nonneg : 0 ≤ e.stream.pendingCredit
  pending_lt : e.stream.pendingCredit < e.stream.creditThreshold

@[simp] theorem sizes_nil : sizes [] = [] := rfl

@[simp] theorem credits_nil : credits [] = 0 := rfl

@[simp] theorem credits_append (l l' : List Frame) :
    credits (l ++ l') = credits l + credits l' := by
  simp [credits]

theorem sizes_cons_msg {f : Frame} (h : f.kind = .kindMsg) (l : List Frame) :
    sizes (f :: l) = size f :: sizes l := by
  simp [sizes, h]

theorem sizes_cons_update {f : Frame} (h : f.kind = .kindWindowUpdate) (l : List Frame) :
    sizes (f :: l) = sizes l := by
  simp [sizes, h]

theorem credits_cons_msg {f : Frame} (h : f.kind = .kindMsg) (l : List Frame) :
    credits (f :: l) = credits l := by
  simp [credits, h]

theorem credits_cons_update {f : Frame} (h : f.kind = .kindWindowUpdate) (l : List Frame) :
    credits (f :: l) = f.window.toNat + credits l := by
  simp [credits, h]

/-! ## What a step does -/

variable {W : ℤ} {server : Bool} {x x' : Port}

/-- A charge needs an open window. -/
theorem act_sendRaw {b : Payload} (h : x.act server (.sendRaw b) = some x') :
    0 < x.here.stream.sendWindow ∧
      x' = { x with here := { x.here with
        stream := x.here.stream.chargeSend b.length, charged := x.here.charged ++ [b] } } := by
  simp only [Port.act, Stream.sendRaw] at h
  split_ifs at h with hw
  · exact ⟨hw, by simpa using h.symm⟩
  · cases hb : x.here.stream.sendBlockErrLocked <;> simp [hb] at h

/-- `popRecv` takes the oldest message of the backlog. -/
theorem act_popRecv (h : x.act server .popRecv = some x') :
    ∃ f rest, x.here.stream.recvItems = f :: rest ∧
      x' = { x with here := { x.here with
        stream := { x.here.stream with
          recvItems := rest
          recvBytes := x.here.stream.recvBytes - f.payload.length }
        popped := x.here.popped ++ [f] } } := by
  simp only [Port.act, Option.map_eq_some_iff] at h
  obtain ⟨y, hpop, rfl⟩ := h
  simp only [Stream.popRecv] at hpop
  split at hpop
  · cases hpop
  · rename_i f rest hitems
    cases hpop
    exact ⟨f, rest, hitems, rfl⟩

/-- Routing takes the oldest frame on the wire. -/
theorem act_route (h : x.act server .deliver = some x') :
    ∃ f rest, x.inb = f :: rest ∧ x' = { x with here := x.here.route server f, inb := rest } := by
  simp only [Port.act] at h
  split at h
  · cases h
  · rename_i f rest hin
    exact ⟨f, rest, hin, (Option.some.inj h).symm⟩

/-- Routing one of this system's frames to an end that is still registered
afterwards: a message joins the backlog, an update credits the window. -/
theorem act_deliver (hok : x.here.Ok W) (hin : ∀ f ∈ x.inb, FlowKind f)
    (h : x.act server .deliver = some x') (hreg : x'.here.registered = true) :
    ∃ f rest, x.inb = f :: rest ∧
      ((f.kind = .kindMsg ∧ x' = { x with
          here := { x.here with stream := { x.here.stream with
            recvItems := x.here.stream.recvItems ++ [f]
            recvBytes := x.here.stream.recvBytes + f.payload.length
            recvSignal := true } }
          inb := rest }) ∨
        (f.kind = .kindWindowUpdate ∧ x' = { x with
          here := { x.here with stream := x.here.stream.creditSend f.window.toNat }
          inb := rest })) := by
  obtain ⟨f, rest, hf, hx⟩ := act_route h
  refine ⟨f, rest, hf, ?_⟩
  rcases hin f (by simp [hf]) with hk | hk
  · left
    refine ⟨hk, ?_⟩
    by_cases hover : x.here.stream.recvItems ≠ [] ∧
        x.here.stream.maxRecvBytes < x.here.stream.recvBytes
    · -- an overflow would have taken the stream out of the registry
      simp [hx, End.route, hok.registered, Stream.onFrame, hk, Stream.tryDeliver,
        Stream.deliver, hok.live, hover] at hreg
    · simp [hx, End.route, hok.registered, Stream.onFrame, hk, Stream.tryDeliver,
        Stream.deliver, hok.live, hover, Stream.signalRecv]
  · right
    refine ⟨hk, ?_⟩
    simp [hx, End.route, hok.registered, Stream.onFrame, hk]

theorem sum_map_eraseIdx {α : Type} (g : α → ℕ) {l : List α} {i : ℕ} {y : α}
    (h : l[i]? = some y) : ((l.eraseIdx i).map g).sum + g y = (l.map g).sum := by
  obtain ⟨hi, rfl⟩ := List.getElem?_eq_some_iff.1 h
  have hp := ((List.getElem_cons_eraseIdx_perm hi).map g).sum_eq
  simp only [List.map_cons, List.sum_cons] at hp
  omega

/-- The direction in which this end sends: a charge sends, a routed update
restores, and a write that is not of the oldest charged frame reorders. -/
theorem act_sender {peer : End} {a : Act} (hok : x.here.Ok W) (hpeer : peer.Ok W)
    (hin : ∀ f ∈ x.inb, FlowKind f) (h : x.act server a = some x')
    (hreg : x'.here.registered = true) :
    window x'.here peer x'.outb x'.inb = window x.here peer x.outb x.inb ∨
      (window x.here peer x.outb x.inb).Move (window x'.here peer x'.outb x'.inb) ∨
      ∃ i q, a = .writeMsg i ∧ 0 < i ∧ (window x.here peer x.outb x.inb).queue.Perm q ∧
        window x'.here peer x'.outb x'.inb =
          { window x.here peer x.outb x.inb with queue := q } := by
  cases a with
  | sendRaw b =>
      obtain ⟨hw, rfl⟩ := act_sendRaw h
      right; left
      have hm := CreditWindow.Move.send (q := (window x.here peer x.outb x.inb).queue)
        (o := (window x.here peer x.outb x.inb).owed) b.length hw
      simpa [window, Stream.chargeSend] using hm
  | writeMsg i =>
      simp only [Port.act, Option.map_eq_some_iff] at h
      obtain ⟨b, hb, rfl⟩ := h
      rcases Nat.eq_zero_or_pos i with rfl | hpos
      · left
        cases hc : x.here.charged with
        | nil => simp [hc] at hb
        | cons b' rest =>
            have hbb : b' = b := by simpa [hc] using hb
            simp [window, hc, sizes, size, Stream.msgFrame, hbb]
      · right; right
        refine ⟨i, _, rfl, hpos, ?_, rfl⟩
        obtain ⟨hi, rfl⟩ := List.getElem?_eq_some_iff.1 hb
        have hp : x.here.charged.Perm (x.here.charged[i] :: x.here.charged.eraseIdx i) :=
          (List.getElem_cons_eraseIdx_perm hi).symm
        have hq := (hp.map List.length).append_left
          (peer.stream.recvItems.map size ++ sizes x.outb)
        simpa [window, sizes, size, Stream.msgFrame] using hq
  | deliver =>
      obtain ⟨f, rest, hf, ⟨hk, rfl⟩ | ⟨hk, rfl⟩⟩ := act_deliver hok hin h hreg
      · left; simp [window, hf, credits_cons_msg hk]
      · rcases Nat.eq_zero_or_pos f.window.toNat with h0 | hpos
        · left; simp [window, hf, credits_cons_update hk, Stream.creditSend, h0]
        · right; left
          have hp := hpeer.pending_nonneg
          have hle : (f.window.toNat : ℤ) ≤ (window x.here peer x.outb x.inb).owed := by
            simp only [window, hf, credits_cons_update hk, Nat.cast_add]
            omega
          have hm := CreditWindow.Move.restore (c := x.here.stream.sendWindow)
            (q := (window x.here peer x.outb x.inb).queue) f.window.toNat hle
          have hneg : ¬ (f.window.toNat : ℤ) ≤ 0 := by omega
          simp only [window, hf, credits_cons_update hk, Stream.creditSend, if_neg hneg,
            Nat.cast_add] at hm ⊢
          convert hm using 2
          ring
  | popRecv =>
      obtain ⟨f, rest, -, rfl⟩ := act_popRecv h
      left
      rfl
  | returnCredit i =>
      simp only [Port.act, Option.map_eq_some_iff] at h
      obtain ⟨f, hf, rfl⟩ := h
      left
      obtain ⟨p, lost, hst, -⟩ :=
        Stream.returnCredit_spec hok.pending_nonneg hok.pending_lt f.payload.length
      simp [window, hst]
  | writeUpdate i =>
      simp only [Port.act, Option.map_eq_some_iff] at h
      obtain ⟨d, hd, rfl⟩ := h
      left
      simp [window, sizes, Stream.windowUpdate]

/-- The direction in which this end receives: a pop consumes, and accounting
for a message loses what the conversion to `uint32` loses. -/
theorem act_receiver {peer : End} {a : Act} (hok : x.here.Ok W)
    (hin : ∀ f ∈ x.inb, FlowKind f) (h : x.act server a = some x')
    (hreg : x'.here.registered = true) :
    window peer x'.here x'.inb x'.outb = window peer x.here x.inb x.outb ∨
      (window peer x.here x.inb x.outb).Move (window peer x'.here x'.inb x'.outb) ∨
      ∃ i f, ∃ d : ℕ, a = .returnCredit i ∧ f ∈ x.here.popped ∧
        (d : ℤ) ≤ (window peer x.here x.inb x.outb).owed ∧
        window peer x'.here x'.inb x'.outb =
          { window peer x.here x.inb x.outb with
            owed := (window peer x.here x.inb x.outb).owed - d } ∧
        (x.here.stream.pendingCredit + size f < 2 ^ 32 → d = 0) := by
  cases a with
  | sendRaw b =>
      obtain ⟨-, rfl⟩ := act_sendRaw h
      left; rfl
  | writeMsg i =>
      simp only [Port.act, Option.map_eq_some_iff] at h
      obtain ⟨b, -, rfl⟩ := h
      left
      simp [window, credits, Stream.msgFrame]
  | deliver =>
      obtain ⟨f, rest, hf, ⟨hk, rfl⟩ | ⟨hk, rfl⟩⟩ := act_deliver hok hin h hreg
      · left; simp [window, hf, sizes_cons_msg hk]
      · left
        simp only [window, hf, sizes_cons_update hk, Stream.creditSend]
        split <;> rfl
  | popRecv =>
      obtain ⟨f, rest, hitems, rfl⟩ := act_popRecv h
      right; left
      have hw : window peer x.here x.inb x.outb = ⟨peer.stream.sendWindow,
          size f :: (rest.map size ++ sizes x.inb ++ peer.charged.map List.length),
          (window peer x.here x.inb x.outb).owed⟩ := by
        simp [window, hitems]
      rw [hw]
      convert CreditWindow.Move.consume using 1
      simp only [window, CreditWindow.mk.injEq, true_and, List.map_append, List.sum_append,
        List.map_cons, List.map_nil, List.sum_singleton, Nat.cast_add]
      ring
  | returnCredit i =>
      simp only [Port.act, Option.map_eq_some_iff] at h
      obtain ⟨f, hf, rfl⟩ := h
      right; right
      obtain ⟨p, lost, hst, hp, -, hsum, hsmall⟩ :=
        Stream.returnCredit_spec hok.pending_nonneg hok.pending_lt f.payload.length
      have hpop := sum_map_eraseIdx size hf
      have hdue : ((if (x.here.stream.returnCredit f.payload.length).2 = 0 then x.here.due
          else x.here.due ++ [(x.here.stream.returnCredit f.payload.length).2]).map
            UInt32.toNat).sum =
          (x.here.due.map UInt32.toNat).sum +
            (x.here.stream.returnCredit f.payload.length).2.toNat := by
        split_ifs with h0
        · simp [h0]
        · simp
      refine ⟨i, f, lost, rfl, List.mem_of_getElem? hf, ?_, ?_, hsmall⟩
      · have hle : size f ≤ (x.here.popped.map size).sum := by omega
        simp only [window]
        simp only [size] at hle hsum ⊢
        omega
      · simp only [window, hst, hdue, CreditWindow.mk.injEq, true_and, Nat.cast_add]
        simp only [size] at hpop hsum ⊢
        omega
  | writeUpdate i =>
      simp only [Port.act, Option.map_eq_some_iff] at h
      obtain ⟨d, hd, rfl⟩ := h
      left
      have hdue := sum_map_eraseIdx UInt32.toNat hd
      have hnew : credits [x.here.stream.windowUpdate d] = d.toNat := by
        simp [credits, Stream.windowUpdate]
      simp only [window, CreditWindow.mk.injEq, true_and, credits_append, hnew, Nat.cast_add]
      omega

/-! ## What every step keeps -/

/-- An end that is still registered after a step is still well formed. -/
theorem act_ok {a : Act} (hok : x.here.Ok W) (hin : ∀ f ∈ x.inb, FlowKind f)
    (h : x.act server a = some x') (hreg : x'.here.registered = true) : x'.here.Ok W := by
  cases a with
  | sendRaw b =>
      obtain ⟨-, rfl⟩ := act_sendRaw h
      exact ⟨hok.registered, hok.live, hok.bytes, hok.ceiling, hok.window, hok.pending_nonneg,
        hok.pending_lt⟩
  | writeMsg i =>
      simp only [Port.act, Option.map_eq_some_iff] at h
      obtain ⟨b, -, rfl⟩ := h
      exact ⟨hok.registered, hok.live, hok.bytes, hok.ceiling, hok.window, hok.pending_nonneg,
        hok.pending_lt⟩
  | deliver =>
      obtain ⟨f, rest, hf, ⟨hk, rfl⟩ | ⟨hk, rfl⟩⟩ := act_deliver hok hin h hreg
      · refine ⟨hok.registered, hok.live, ?_, hok.ceiling, hok.window, hok.pending_nonneg,
          hok.pending_lt⟩
        simp only [hok.bytes, List.map_append, List.sum_append, List.map_cons, List.map_nil,
          List.sum_singleton, Nat.cast_add, size]
      · simp only [Stream.creditSend]
        split
        · exact hok
        · exact ⟨hok.registered, hok.live, hok.bytes, hok.ceiling, hok.window,
            hok.pending_nonneg, hok.pending_lt⟩
  | popRecv =>
      obtain ⟨f, rest, hitems, rfl⟩ := act_popRecv h
      have hb := hok.bytes
      refine ⟨hok.registered, hok.live, ?_, hok.ceiling, hok.window, hok.pending_nonneg,
        hok.pending_lt⟩
      simp only [hitems, List.map_cons, List.sum_cons, Nat.cast_add, size] at hb ⊢
      omega
  | returnCredit i =>
      simp only [Port.act, Option.map_eq_some_iff] at h
      obtain ⟨f, -, rfl⟩ := h
      obtain ⟨p, lost, hst, hp, hlt, -⟩ :=
        Stream.returnCredit_spec hok.pending_nonneg hok.pending_lt f.payload.length
      simp only [hst]
      exact ⟨hok.registered, hok.live, hok.bytes, hok.ceiling, hok.window, hp, hlt⟩
  | writeUpdate i =>
      simp only [Port.act, Option.map_eq_some_iff] at h
      obtain ⟨d, -, rfl⟩ := h
      exact ⟨hok.registered, hok.live, hok.bytes, hok.ceiling, hok.window, hok.pending_nonneg,
        hok.pending_lt⟩

/-- A stream that has left the registry does not come back. -/
theorem registered_of_act {a : Act} (h : x.act server a = some x')
    (hreg : x'.here.registered = true) : x.here.registered = true := by
  cases a with
  | sendRaw b => obtain ⟨-, rfl⟩ := act_sendRaw h; exact hreg
  | deliver =>
      obtain ⟨g, rest, -, rfl⟩ := act_route h
      by_contra hn
      simp [End.route, hn] at hreg
  | writeMsg i | popRecv | returnCredit i | writeUpdate i =>
      simp only [Port.act, Option.map_eq_some_iff] at h
      obtain ⟨y, -, rfl⟩ := h
      exact hreg

/-- Only routing reads the inbound wire, and it takes the oldest frame. -/
theorem act_inb {a : Act} (h : x.act server a = some x') : ∀ f ∈ x'.inb, f ∈ x.inb := by
  intro f hf
  cases a with
  | sendRaw b => obtain ⟨-, rfl⟩ := act_sendRaw h; exact hf
  | deliver =>
      obtain ⟨g, rest, hg, rfl⟩ := act_route h
      rw [hg]; exact List.mem_cons_of_mem _ hf
  | writeMsg i | popRecv | returnCredit i | writeUpdate i =>
      simp only [Port.act, Option.map_eq_some_iff] at h
      obtain ⟨y, -, rfl⟩ := h
      exact hf

/-- What a step writes is a charged message or a due update. -/
theorem act_outb {a : Act} (h : x.act server a = some x') {f : Frame} (hf : f ∈ x'.outb) :
    f ∈ x.outb ∨ (∃ b ∈ x.here.charged, f = x.here.stream.msgFrame b) ∨
      ∃ d, f = x.here.stream.windowUpdate d := by
  cases a with
  | sendRaw b => obtain ⟨-, rfl⟩ := act_sendRaw h; exact .inl hf
  | deliver =>
      obtain ⟨g, rest, -, rfl⟩ := act_route h
      exact .inl hf
  | writeMsg i =>
      simp only [Port.act, Option.map_eq_some_iff] at h
      obtain ⟨b, hb, rfl⟩ := h
      rcases List.mem_append.1 hf with hf | hf
      · exact .inl hf
      · exact .inr (.inl ⟨b, List.mem_of_getElem? hb, List.mem_singleton.1 hf⟩)
  | writeUpdate i =>
      simp only [Port.act, Option.map_eq_some_iff] at h
      obtain ⟨d, hd, rfl⟩ := h
      rcases List.mem_append.1 hf with hf | hf
      · exact .inl hf
      · exact .inr (.inr ⟨d, List.mem_singleton.1 hf⟩)
  | popRecv | returnCredit i =>
      simp only [Port.act, Option.map_eq_some_iff] at h
      obtain ⟨y, -, rfl⟩ := h
      exact .inl hf

theorem act_flowKind {a : Act} (hout : ∀ f ∈ x.outb, FlowKind f)
    (h : x.act server a = some x') : ∀ f ∈ x'.outb, FlowKind f := by
  intro f hf
  rcases act_outb h hf with hf | ⟨b, -, rfl⟩ | ⟨d, rfl⟩
  · exact hout f hf
  · exact .inl rfl
  · exact .inr rfl

/-- **A disciplined window is never over its ceiling.**  The backlog is in front
of the next message, so it weighs less than the window. -/
theorem tryDeliver_of_disciplined {peer e : End} {f : Frame} {rest bw : List Frame}
    (hok : e.Ok W) (hd : (window peer e (f :: rest) bw).Disciplined W) (hk : f.kind = .kindMsg) :
    (e.stream.tryDeliver f).isSome = true := by
  have hlt : ((e.stream.recvItems.map size).sum : ℤ) < W := by
    refine hd.front_lt _ (size f) (sizes rest ++ peer.charged.map List.length) ?_
    simp [window, sizes_cons_msg hk]
  have hover : ¬ (e.stream.recvItems ≠ [] ∧ e.stream.maxRecvBytes < e.stream.recvBytes) := by
    rw [hok.ceiling, hok.bytes]
    omega
  simp [Stream.tryDeliver, Stream.deliver, hok.live, hover]

theorem act_registered {peer : End} {a : Act} (hok : x.here.Ok W)
    (hin : ∀ f ∈ x.inb, FlowKind f) (hd : (window peer x.here x.inb x.outb).Disciplined W)
    (h : x.act server a = some x') : x'.here.registered = true := by
  cases a with
  | sendRaw b => obtain ⟨-, rfl⟩ := act_sendRaw h; exact hok.registered
  | deliver =>
      obtain ⟨f, rest, hf, rfl⟩ := act_route h
      rw [hf] at hd
      rcases hin f (by simp [hf]) with hk | hk
      · obtain ⟨s', hs'⟩ := Option.isSome_iff_exists.1 (tryDeliver_of_disciplined hok hd hk)
        simp [End.route, hok.registered, Stream.onFrame, hk, hs']
      · simp [End.route, hok.registered, Stream.onFrame, hk]
  | writeMsg i | popRecv | returnCredit i | writeUpdate i =>
      simp only [Port.act, Option.map_eq_some_iff] at h
      obtain ⟨y, -, rfl⟩ := h
      exact hok.registered

/-! ## Runs of the link -/

namespace Link

/-- The credit window of the direction in which `p` sends. -/
def window (s : Link) (p : Side) : CreditWindow :=
  Flow.window (s.ends p) (s.ends p.other) (s.wire p) (s.wire p.other)

theorem forall_side {P : Side → Prop} {p : Side} (h : P p) (h' : P p.other) : ∀ q, P q := by
  intro q
  cases p <;> cases q <;> first | exact h | exact h'

/-- What a step of the link is: a step of one port, and its two wires as the
other end sees them. -/
theorem step_eq_some {s s' : Link} {p : Side} {a : Act} (h : s.step (p, a) = some s') :
    ∃ x', (s.port p).act (p == .server) a = some x' ∧ s'.ends p = x'.here ∧
      s'.ends p.other = s.ends p.other ∧ s'.wire p = x'.outb ∧ s'.wire p.other = x'.inb := by
  simp only [step, Option.map_eq_some_iff] at h
  obtain ⟨x', hx', rfl⟩ := h
  have h1 := port_put s p x'
  have h2 := port_put_other s p x'
  refine ⟨x', hx', congrArg Port.here h1, congrArg Port.here h2, congrArg Port.outb h1,
    congrArg Port.inb h1⟩

/-! ### The start -/

theorem ok_start (id : UInt32) (hW : 1 ≤ W) (p : Side) : ((start id W).ends p).Ok W := by
  have hw : windowOr W = W := by rw [windowOr, if_neg (by omega)]
  refine ⟨rfl, rfl, rfl, hw, hw, le_refl _, ?_⟩
  exact Stream.creditThreshold_pos _

theorem window_start (id : UInt32) (hW : 1 ≤ W) (p : Side) :
    (start id W).window p = ⟨W, [], 0⟩ := by
  have hw : windowOr W = W := by rw [windowOr, if_neg (by omega)]
  simp [window, Flow.window, start, newStream, hw]

end Link

end WsProto.Go.Flow
