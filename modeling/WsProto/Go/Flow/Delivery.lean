import WsProto.Go.Flow.InOrder
import WsProto.Go.Flow.Conservation

/-!
# Flow control between two Go ends: delivery

The link of `WsProto.Go.Flow.Link`, together with what was said and what was heard: `sent p`
lists the payloads of the sends of end `p`, in the order in which they charged the window,
and `got p` the payloads its receives have taken.

* `delivery` — as long as the frames of an end are written in the order of their charges,
  what one end has sent is what the other has received, followed by its backlog, by the
  messages on the wire and by those charged and not yet written.  So nothing is lost,
  repeated or overtaken, in either direction and whatever the sizes and the interleaving;
* `unordered_delivery` — when sends overlap, no message is lost or repeated either, but
  they may arrive in another order.
-/

namespace WsProto.Go.Flow

open Machine

variable {W : ℤ} {server : Bool} {x x' : Port}

/-! ## What a step says and hears -/

/-- The payload a step takes from its caller. -/
def Act.said : Act → List Payload
  | .sendRaw b => [b]
  | .writeMsg _ | .deliver | .popRecv | .returnCredit _ | .writeUpdate _ => []

/-- The payload a step of an end hands to its caller. -/
def End.heard (e : End) : Act → List Payload
  | .popRecv => (e.stream.recvItems.take 1).map Frame.payload
  | .sendRaw _ | .writeMsg _ | .deliver | .returnCredit _ | .writeUpdate _ => []

/-- The payloads of the MSG frames on a wire. -/
def payloads (l : List Frame) : List Payload :=
  (l.filter (·.kind = .kindMsg)).map Frame.payload

/-- What is between a sender and a receiver: the backlog, the wire, and what is charged and
not yet written. -/
def transit (snd rcv : End) (fw : List Frame) : List Payload :=
  rcv.stream.recvItems.map Frame.payload ++ payloads fw ++ snd.charged

@[simp] theorem payloads_append (l l' : List Frame) :
    payloads (l ++ l') = payloads l ++ payloads l' := by
  simp [payloads]

theorem payloads_cons_msg {f : Frame} (h : f.kind = .kindMsg) (l : List Frame) :
    payloads (f :: l) = f.payload :: payloads l := by
  simp [payloads, h]

theorem payloads_cons_update {f : Frame} (h : f.kind = .kindWindowUpdate) (l : List Frame) :
    payloads (f :: l) = payloads l := by
  simp [payloads, h]

/-- The direction in which this end sends: what it says comes last, and only a write that
is not of the oldest charged frame changes the order of the rest. -/
theorem act_speaks (peer : End) {a : Act} (hok : x.here.Ok W) (hin : ∀ f ∈ x.inb, FlowKind f)
    (h : x.act server a = some x') (hreg : x'.here.registered = true) :
    (transit x'.here peer x'.outb).Perm (transit x.here peer x.outb ++ a.said) ∧
      ((∀ i, a = .writeMsg i → i = 0) →
        transit x'.here peer x'.outb = transit x.here peer x.outb ++ a.said) := by
  cases a with
  | sendRaw b =>
      obtain ⟨-, rfl⟩ := act_sendRaw h
      have he : transit { x.here with
          stream := x.here.stream.chargeSend b.length, charged := x.here.charged ++ [b] } peer
            x.outb = transit x.here peer x.outb ++ [b] := by
        simp [transit]
      exact ⟨List.Perm.of_eq he, fun _ => he⟩
  | writeMsg i =>
      simp only [Port.act, Option.map_eq_some_iff] at h
      obtain ⟨b, hb, rfl⟩ := h
      have hnew : payloads [x.here.stream.msgFrame b] = [b] := by
        simp [payloads, Stream.msgFrame]
      have he : transit { x.here with charged := x.here.charged.eraseIdx i } peer
          (x.outb ++ [x.here.stream.msgFrame b]) =
            peer.stream.recvItems.map Frame.payload ++ payloads x.outb ++
              (b :: x.here.charged.eraseIdx i) := by
        simp only [transit, payloads_append, hnew, List.append_assoc, List.singleton_append]
      constructor
      · -- the written message moves in front of the other charged ones
        obtain ⟨hi, rfl⟩ := List.getElem?_eq_some_iff.1 hb
        rw [he, Act.said, List.append_nil]
        exact (List.getElem_cons_eraseIdx_perm hi).append_left _
      · intro hfirst
        obtain rfl := hfirst i rfl
        rw [he, Act.said, List.append_nil]
        cases hc : x.here.charged with
        | nil => simp [hc] at hb
        | cons b' rest =>
            obtain rfl : b' = b := by simpa [hc] using hb
            simp [transit, hc]
  | deliver =>
      have he : transit x'.here peer x'.outb = transit x.here peer x.outb := by
        obtain ⟨f, rest, hf, ⟨hk, rfl⟩ | ⟨hk, rfl⟩⟩ := act_deliver hok hin h hreg
        · rfl
        · rfl
      rw [he, Act.said, List.append_nil]
      exact ⟨List.Perm.refl _, fun _ => rfl⟩
  | writeUpdate i =>
      simp only [Port.act, Option.map_eq_some_iff] at h
      obtain ⟨d, -, rfl⟩ := h
      have he : transit { x.here with due := x.here.due.eraseIdx i } peer
          (x.outb ++ [x.here.stream.windowUpdate d]) = transit x.here peer x.outb := by
        simp [transit, payloads, Stream.windowUpdate]
      rw [Act.said, List.append_nil, he]
      exact ⟨List.Perm.refl _, fun _ => rfl⟩
  | popRecv | returnCredit i =>
      simp only [Port.act, Option.map_eq_some_iff] at h
      obtain ⟨y, -, rfl⟩ := h
      rw [Act.said, List.append_nil]
      exact ⟨List.Perm.refl _, fun _ => rfl⟩

/-- The direction in which this end receives: what it hears comes first. -/
theorem act_hears (peer : End) {a : Act} (hok : x.here.Ok W) (hin : ∀ f ∈ x.inb, FlowKind f)
    (h : x.act server a = some x') (hreg : x'.here.registered = true) :
    x.here.heard a ++ transit peer x'.here x'.inb = transit peer x.here x.inb := by
  cases a with
  | sendRaw b =>
      obtain ⟨-, rfl⟩ := act_sendRaw h
      rfl
  | deliver =>
      obtain ⟨f, rest, hf, ⟨hk, rfl⟩ | ⟨hk, rfl⟩⟩ := act_deliver hok hin h hreg
      · simp [transit, End.heard, hf, payloads_cons_msg hk]
      · have hitems : (x.here.stream.creditSend f.window.toNat).recvItems =
            x.here.stream.recvItems := by
          rw [Stream.creditSend]
          split <;> rfl
        simp [transit, End.heard, hf, payloads_cons_update hk, hitems]
  | popRecv =>
      obtain ⟨f, rest, hitems, rfl⟩ := act_popRecv h
      simp [transit, End.heard, hitems]
  | returnCredit i =>
      simp only [Port.act, Option.map_eq_some_iff] at h
      obtain ⟨f, -, rfl⟩ := h
      obtain ⟨p, hp⟩ := x.here.stream.returnCredit_fst f.payload.length
      simp [transit, End.heard, hp]
  | writeMsg i | writeUpdate i =>
      simp only [Port.act, Option.map_eq_some_iff] at h
      obtain ⟨y, -, rfl⟩ := h
      rfl

/-! ## The link with its conversation -/

/-- The link, what each end has sent and what each has received. -/
structure Logged where
  link : Link
  sent : Side → List Payload := fun _ => []
  got : Side → List Payload := fun _ => []

namespace Logged

def start (id : UInt32) (W : ℤ) : Logged := { link := .start id W }

/-- A step of the link, noted. -/
def step (s : Logged) (a : Side × Act) : Option Logged :=
  (s.link.step a).map fun l =>
    { link := l
      sent := Function.update s.sent a.1 (s.sent a.1 ++ a.2.said)
      got := Function.update s.got a.1 (s.got a.1 ++ (s.link.ends a.1).heard a.2) }

/-- A write takes the oldest charged frame. -/
def InOrder (s : Logged) (a : Side × Act) : Prop := Link.InOrder s.link a

instance (s : Logged) (a : Side × Act) : Decidable (InOrder s a) :=
  inferInstanceAs (Decidable (Link.InOrder s.link a))

/-- What end `p` has sent and its peer has not yet received. -/
def transit (s : Logged) (p : Side) : List Payload :=
  Flow.transit (s.link.ends p) (s.link.ends p.other) (s.link.wire p)

/-- What a noted step is. -/
theorem step_eq_some {s s' : Logged} {p : Side} {a : Act} (h : s.step (p, a) = some s') :
    s.link.step (p, a) = some s'.link ∧
      s'.sent p = s.sent p ++ a.said ∧ s'.sent p.other = s.sent p.other ∧
      s'.got p = s.got p ++ (s.link.ends p).heard a ∧ s'.got p.other = s.got p.other := by
  simp only [step, Option.map_eq_some_iff] at h
  obtain ⟨l, hl, rfl⟩ := h
  exact ⟨hl, by simp, by simp, by simp, by simp⟩

/-! ## Delivery -/

/-- **A step, in both directions.**  Between two registered ends, what `p` has sent stays
what its peer has received and what is on its way, up to the order if writes overtake. -/
theorem transit_step {s s' : Logged} {p : Side} {a : Act} (hok : (s.link.ends p).Ok W)
    (hkin : ∀ f ∈ s.link.wire p.other, FlowKind f) (h : s.step (p, a) = some s')
    (hreg : (s'.link.ends p).registered = true) :
    ((s.sent p).Perm (s.got p.other ++ s.transit p) →
        (s'.sent p).Perm (s'.got p.other ++ s'.transit p)) ∧
      ((∀ i, a = .writeMsg i → i = 0) → s.sent p = s.got p.other ++ s.transit p →
        s'.sent p = s'.got p.other ++ s'.transit p) ∧
      s'.got p ++ s'.transit p.other = s.got p ++ s.transit p.other ∧
      s'.sent p.other = s.sent p.other := by
  obtain ⟨hl, hsent, hsent', hgot, hgot'⟩ := step_eq_some h
  obtain ⟨x', hx', hhere, hother, hout, hin⟩ := Link.step_eq_some hl
  rw [hhere] at hreg
  obtain ⟨hperm, heq⟩ := act_speaks (x := s.link.port p) (s.link.ends p.other) hok hkin
    hx' hreg
  have hhear := act_hears (x := s.link.port p) (s.link.ends p.other) hok hkin hx' hreg
  have hfw : s'.transit p = Flow.transit x'.here (s.link.ends p.other) x'.outb := by
    simp only [transit, hhere, hother, hout]
  have hbw : s'.transit p.other = Flow.transit (s.link.ends p.other) x'.here x'.inb := by
    simp only [transit, Side.other_other, hhere, hother, hin]
  have hbw₀ : s.transit p.other =
      Flow.transit (s.link.ends p.other) (s.link.port p).here (s.link.port p).inb := by
    simp only [transit, Side.other_other, Link.port]
  refine ⟨fun hs => ?_, fun hord hs => ?_, ?_, hsent'⟩
  · rw [hsent, hgot', hfw]
    have happ := hs.append_right a.said
    rw [List.append_assoc] at happ
    exact happ.trans (hperm.symm.append_left _)
  · rw [hsent, hgot', hfw, heq hord, hs, List.append_assoc]
    rfl
  · rw [hgot, hbw, hbw₀, List.append_assoc]
    exact congrArg (s.got p ++ ·) hhear

/-- The invariant of in-order runs. -/
structure Delivers (W : ℤ) (s : Logged) : Prop where
  ordered : s.link.Ordered W
  sent_eq : ∀ p, s.sent p = s.got p.other ++ s.transit p

theorem delivers_start (id : UInt32) (hW : 1 ≤ W) : Delivers W (start id W) where
  ordered := Link.ordered_start id hW
  sent_eq := by intro p; rfl

theorem delivers_step {s s' : Logged} {a : Side × Act} (hi : Delivers W s) (hord : InOrder s a)
    (h : s.step a = some s') : Delivers W s' := by
  obtain ⟨p, a⟩ := a
  have hord' := Link.ordered_step hi.ordered hord (step_eq_some h).1
  obtain ⟨-, hspeaks, hhears, hother⟩ := transit_step (hi.ordered.ok p)
    (hi.ordered.kinds p.other) h (hord'.ok p).registered
  refine ⟨hord', Link.forall_side (p := p) ?_ ?_⟩
  · exact hspeaks hord (hi.sent_eq p)
  · rw [hother, Side.other_other, hhears]
    simpa using hi.sent_eq p.other

/-- **Exactly once, in order.**  In every run in which the frames of an end are written in
the order their sends charged the window, neither stream is reset, and what an end has sent
is what its peer has received, then the peer's backlog, then the messages on the wire, then
those charged and not yet written.  In particular what is received is a prefix of what was
sent, and all of it once the direction is drained. -/
theorem delivery (id : UInt32) {W : ℤ} (hW : 1 ≤ W) {s : Logged}
    (h : Reach step InOrder (start id W) s) (p : Side) :
    s.sent p = s.got p.other ++ ((s.link.ends p.other).stream.recvItems.map Frame.payload ++
        payloads (s.link.wire p) ++ (s.link.ends p).charged) ∧
      (s.link.ends p).registered = true ∧ s.got p.other <+: s.sent p ∧
      (s.link.wire p = [] → (s.link.ends p).charged = [] →
        (s.link.ends p.other).stream.recvItems = [] → s.got p.other = s.sent p) := by
  have hi : Delivers W s :=
    h.invariant (delivers_start id hW) fun _ _ _ hi hord hs => delivers_step hi hord hs
  have hsent := hi.sent_eq p
  refine ⟨hsent, (hi.ordered.ok p).registered, ⟨_, hsent.symm⟩, ?_⟩
  intro hw hc hr
  rw [hsent, transit, Flow.transit, hw, hc, hr]
  simp [payloads]

/-- A one-byte and a three-byte message through a window of two bytes. -/
theorem delivery_two :
    ∃ s, Reach step InOrder (start 1 2) s ∧ s.got .server = [[1]] ∧
      s.sent .client = [[1], [2, 3, 4]] ∧ s.got .server <+: s.sent .client := by
  obtain ⟨s, hs, hp⟩ := exists_reach_of_exec step InOrder (start 1 2)
    (fun s => s.got .server == [[1]] && s.sent .client == [[1], [2, 3, 4]])
    [(.client, .sendRaw [1]), (.client, .writeMsg 0), (.client, .sendRaw [2, 3, 4]),
      (.server, .deliver), (.client, .writeMsg 0), (.server, .popRecv)] (by decide)
  simp only [Bool.and_eq_true, beq_iff_eq] at hp
  exact ⟨s, hs, hp.1, hp.2, (delivery 1 (by decide) hs .client).2.2.1⟩

/-! ## Overlapping sends -/

/-- What is sent is small. -/
def SmallSends (s : Logged) (a : Side × Act) : Prop := Link.SmallSends s.link a

instance (s : Logged) (a : Side × Act) : Decidable (SmallSends s a) :=
  inferInstanceAs (Decidable (Link.SmallSends s.link a))

/-- The invariant of runs of small messages: as long as no stream has left the registry,
nothing is lost or repeated. -/
structure Accounts (W : ℤ) (s : Logged) : Prop where
  conserved : s.link.Conserved W
  sent_perm : (∀ p, (s.link.ends p).registered = true) →
    ∀ p, (s.sent p).Perm (s.got p.other ++ s.transit p)

theorem accounts_start (id : UInt32) (hW : 1 ≤ W) : Accounts W (start id W) where
  conserved := Link.conserved_start id hW
  sent_perm := by intro _ p; exact List.Perm.refl _

theorem accounts_step {s s' : Logged} {a : Side × Act} (hW : W < 2 ^ 32) (hi : Accounts W s)
    (hsm : SmallSends s a) (h : s.step a = some s') : Accounts W s' := by
  obtain ⟨p, a⟩ := a
  obtain ⟨hl, -⟩ := step_eq_some h
  refine ⟨Link.conserved_step hW hi.conserved hsm hl, ?_⟩
  intro hall
  -- whoever is registered after the step was registered before it
  have hback : ∀ q, (s.link.ends q).registered = true := by
    obtain ⟨x', hx', hhere, hother, -⟩ := Link.step_eq_some hl
    refine Link.forall_side (p := p) ?_ ?_
    · exact registered_of_act hx' (by rw [← hhere]; exact hall p)
    · rw [← hother]; exact hall p.other
  obtain ⟨hspeaks, -, hhears, hother⟩ := transit_step (hi.conserved.ok hback p)
    (hi.conserved.kinds p.other) h (hall p)
  refine Link.forall_side (p := p) ?_ ?_
  · exact hspeaks (hi.sent_perm hback p)
  · rw [hother, Side.other_other, hhears]
    simpa using hi.sent_perm hback p.other

/-- **Overlapping sends lose nothing.**  For messages below `2 ^ 31` bytes and any number of
overlapping sends and receives, as long as both streams are live, what an end has sent is, up
to its order, what its peer has received, its backlog, the messages on the wire and those
charged and not yet written. -/
theorem unordered_delivery (id : UInt32) {W : ℤ} (hW : 1 ≤ W) (hW' : W < 2 ^ 32) {s : Logged}
    (h : Reach step SmallSends (start id W) s) (hlive : s.link.Live) (p : Side) :
    (s.sent p).Perm (s.got p.other ++
      ((s.link.ends p.other).stream.recvItems.map Frame.payload ++ payloads (s.link.wire p) ++
        (s.link.ends p).charged)) := by
  have hi : Accounts W s :=
    h.invariant (accounts_start id hW) fun _ _ _ hi hsm hs => accounts_step hW' hi hsm hs
  refine hi.sent_perm (fun q => ?_) p
  by_contra hq
  have he := hi.conserved.ended q (by simpa using hq)
  rw [(hlive q).1] at he
  cases he

/-- Two overlapping sends whose frames are written in the other order. -/
theorem unordered_delivery_swapped :
    ∃ s, Reach step SmallSends (start 1 9) s ∧ s.link.Live ∧ s.sent .client = [[1], [2]] ∧
      s.got .server = [[2]] ∧ (s.sent .client).Perm (s.got .server ++
        ((s.link.ends .server).stream.recvItems.map Frame.payload ++
          payloads (s.link.wire .client) ++ (s.link.ends .client).charged)) := by
  obtain ⟨s, hs, hp⟩ := exists_reach_of_exec step SmallSends (start 1 9)
    (fun s => decide ((∀ p ∈ [Side.client, Side.server],
        (s.link.ends p).stream.ended = false ∧ (s.link.ends p).stream.ctxErr = none) ∧
      s.sent .client = [[1], [2]] ∧ s.got .server = [[2]]))
    [(.client, .sendRaw [1]), (.client, .sendRaw [2]), (.client, .writeMsg 1),
      (.client, .writeMsg 0), (.server, .deliver), (.server, .popRecv)] (by decide)
  obtain ⟨hl, hsent, hgot⟩ := of_decide_eq_true hp
  have hlive : s.link.Live := fun q => hl q (by cases q <;> simp)
  exact ⟨s, hs, hlive, hsent, hgot,
    unordered_delivery 1 (by decide) (by decide) hs hlive .client⟩

end Logged

end WsProto.Go.Flow
