import WsProto.Go.Flow.Link

/-!
# Flow control between two Go ends: conservation of credit

For windows below `2 ^ 32` and messages below `2 ^ 31` bytes the conversion of
returned credit to `uint32` loses nothing.  Then, in every run and for any number
of overlapping sends and receives, the bytes of a direction are always in one of
six places, and together they are the window (`conservation`).  So once nothing is in
flight and the receiver has consumed its backlog, all but the credit held back
below the threshold is back at the sender, and a send finds its window open.
-/

namespace WsProto.Go.Flow

open Machine

variable {W : ℤ} {server : Bool} {x x' : Port}

/-! ## Small messages -/

/-- The bound on message sizes. -/
def Small (n : ℕ) : Prop := n < 2 ^ 31

/-- Every message an end holds is small. -/
structure End.Small (e : End) : Prop where
  charged : ∀ b ∈ e.charged, Flow.Small b.length
  backlog : ∀ f ∈ e.stream.recvItems, Flow.Small (size f)
  popped : ∀ f ∈ e.popped, Flow.Small (size f)

/-- A step keeps the messages of an end small, if what it sends is. -/
theorem act_small {a : Act} (hok : x.here.Ok W) (hin : ∀ f ∈ x.inb, FlowKind f)
    (hs : x.here.Small) (hsin : ∀ f ∈ x.inb, Small (size f))
    (hb : ∀ b, a = .sendRaw b → Small b.length) (h : x.act server a = some x')
    (hreg : x'.here.registered = true) : x'.here.Small := by
  cases a with
  | sendRaw b =>
      obtain ⟨-, rfl⟩ := act_sendRaw h
      refine ⟨?_, hs.backlog, hs.popped⟩
      intro b' hb'
      rcases List.mem_append.1 hb' with hb' | hb'
      · exact hs.charged b' hb'
      · rw [List.mem_singleton.1 hb']; exact hb b rfl
  | writeMsg i =>
      simp only [Port.act, Option.map_eq_some_iff] at h
      obtain ⟨b, -, rfl⟩ := h
      exact ⟨fun b' hb' => hs.charged b' (List.mem_of_mem_eraseIdx hb'), hs.backlog, hs.popped⟩
  | deliver =>
      obtain ⟨f, rest, hf, ⟨hk, rfl⟩ | ⟨hk, rfl⟩⟩ := act_deliver hok hin h hreg
      · refine ⟨hs.charged, ?_, hs.popped⟩
        intro g hg
        rcases List.mem_append.1 hg with hg | hg
        · exact hs.backlog g hg
        · rw [List.mem_singleton.1 hg]; exact hsin f (by simp [hf])
      · refine ⟨hs.charged, ?_, hs.popped⟩
        simp only [Stream.creditSend]
        split <;> exact hs.backlog
  | popRecv =>
      obtain ⟨f, rest, hitems, rfl⟩ := act_popRecv h
      refine ⟨hs.charged, fun g hg => hs.backlog g (by rw [hitems]; simp [hg]), ?_⟩
      intro g hg
      rcases List.mem_append.1 hg with hg | hg
      · exact hs.popped g hg
      · rw [List.mem_singleton.1 hg]; exact hs.backlog f (by rw [hitems]; simp)
  | returnCredit i =>
      simp only [Port.act, Option.map_eq_some_iff] at h
      obtain ⟨f, -, rfl⟩ := h
      obtain ⟨p, lost, hst, -⟩ :=
        Stream.returnCredit_spec hok.pending_nonneg hok.pending_lt f.payload.length
      simp only [hst]
      exact ⟨hs.charged, hs.backlog, fun g hg => hs.popped g (List.mem_of_mem_eraseIdx hg)⟩
  | writeUpdate i =>
      simp only [Port.act, Option.map_eq_some_iff] at h
      obtain ⟨d, -, rfl⟩ := h
      exact ⟨hs.charged, hs.backlog, hs.popped⟩

/-- What a step writes is small. -/
theorem act_small_outb {a : Act} (hs : x.here.Small) (hout : ∀ f ∈ x.outb, Small (size f))
    (h : x.act server a = some x') : ∀ f ∈ x'.outb, Small (size f) := by
  intro f hf
  rcases act_outb h hf with hf | ⟨b, hb, rfl⟩ | ⟨d, rfl⟩
  · exact hout f hf
  · exact hs.charged b hb
  · simp [Small, size, Stream.windowUpdate]

/-- Held-back credit and one small message fit into a `uint32`. -/
theorem pending_add_lt {e : End} {f : Frame} (hok : e.Ok W) (hW : W < 2 ^ 32)
    (hf : Small (size f)) : e.stream.pendingCredit + size f < 2 ^ 32 := by
  have hlt := hok.pending_lt
  have hw := hok.window
  simp only [Stream.creditThreshold] at hlt
  simp only [Small] at hf
  split_ifs at hlt <;> omega

/-- A stream leaves the registry only by ending. -/
theorem act_ended {a : Act} (hx : x.here.registered = false → x.here.stream.ended = true)
    (h : x.act server a = some x') :
    x'.here.registered = false → x'.here.stream.ended = true := by
  cases a with
  | sendRaw b => obtain ⟨-, rfl⟩ := act_sendRaw h; exact hx
  | deliver =>
      obtain ⟨f, rest, hf, rfl⟩ := act_route h
      intro hreg
      cases hr : x.here.registered with
      | false => simpa [End.route, hr] using hx hr
      | true =>
          simp only [End.route, hr, if_true] at hreg ⊢
          cases ho : x.here.stream.onFrame server f with
          | kept s => simp [ho] at hreg
          | removed s => exact Stream.onFrame_ended (.inl ho)
          | overflowed s => exact Stream.onFrame_ended (.inr ho)
  | popRecv =>
      obtain ⟨f, rest, -, rfl⟩ := act_popRecv h
      exact hx
  | returnCredit i =>
      simp only [Port.act, Option.map_eq_some_iff] at h
      obtain ⟨f, -, rfl⟩ := h
      simpa using hx
  | writeMsg i | writeUpdate i =>
      simp only [Port.act, Option.map_eq_some_iff] at h
      obtain ⟨y, -, rfl⟩ := h
      exact hx

/-! ## Conservation -/

namespace Link

/-- The condition on a step: what is sent is small. -/
def SmallSends (_ : Link) (a : Side × Act) : Prop := ∀ b, a.2 = .sendRaw b → Small b.length

instance (s : Link) (a : Side × Act) : Decidable (SmallSends s a) :=
  match a with
  | (_, .sendRaw b) => decidable_of_iff (b.length < 2 ^ 31) (by simp [SmallSends, Small])
  | (_, .writeMsg _) | (_, .deliver) | (_, .popRecv) | (_, .returnCredit _)
  | (_, .writeUpdate _) => isTrue (by simp [SmallSends])

/-- Neither stream has ended. -/
def Live (s : Link) : Prop := ∀ p, (s.ends p).stream.ended = false ∧ (s.ends p).stream.ctxErr = none

/-- The invariant: a stream that left the registry has ended, and as long as none
has, the totals are the window. -/
structure Conserved (W : ℤ) (s : Link) : Prop where
  ended : ∀ p, (s.ends p).registered = false → (s.ends p).stream.ended = true
  kinds : ∀ p, ∀ f ∈ s.wire p, FlowKind f
  ok : (∀ p, (s.ends p).registered = true) → ∀ p, (s.ends p).Ok W
  small : (∀ p, (s.ends p).registered = true) →
    ∀ p, (s.ends p).Small ∧ ∀ f ∈ s.wire p, Small (size f)
  total : (∀ p, (s.ends p).registered = true) → ∀ p, (s.window p).total = W

theorem conserved_start (id : UInt32) (hW : 1 ≤ W) : Conserved W (start id W) where
  ended := by intro p h; simp [start] at h
  kinds := by intro p f hf; simp [start] at hf
  ok := fun _ => ok_start id hW
  small := by
    intro _ p
    exact ⟨⟨by simp [start], by simp [start, newStream], by simp [start]⟩, by simp [start]⟩
  total := by intro _ p; rw [window_start id hW]; simp [CreditWindow.total]

theorem conserved_step {s s' : Link} {a : Side × Act} (hW : W < 2 ^ 32) (hi : Conserved W s)
    (hsm : SmallSends s a) (h : s.step a = some s') : Conserved W s' := by
  obtain ⟨p, a⟩ := a
  obtain ⟨x', hx', hhere, hother, hout, hin⟩ := step_eq_some h
  have hkin : ∀ f ∈ (s.port p).inb, FlowKind f := hi.kinds p.other
  -- whoever is registered after the step was registered before it
  have hback : (∀ q, (s'.ends q).registered = true) → ∀ q, (s.ends q).registered = true := by
    intro hall
    refine forall_side (p := p) ?_ ?_
    · exact registered_of_act hx' (by rw [← hhere]; exact hall p)
    · rw [← hother]; exact hall p.other
  refine ⟨forall_side (p := p) ?_ ?_, forall_side (p := p) ?_ ?_, ?_, ?_, ?_⟩
  · rw [hhere]; exact act_ended (hi.ended p) hx'
  · rw [hother]; exact hi.ended p.other
  · rw [hout]; exact act_flowKind (hi.kinds p) hx'
  · rw [hin]; intro f hf; exact hi.kinds p.other f (act_inb hx' f hf)
  · intro hall
    have hreg : x'.here.registered = true := by rw [← hhere]; exact hall p
    refine forall_side (p := p) ?_ ?_
    · rw [hhere]; exact act_ok (hi.ok (hback hall) p) hkin hx' hreg
    · rw [hother]; exact hi.ok (hback hall) p.other
  · intro hall
    have hreg : x'.here.registered = true := by rw [← hhere]; exact hall p
    have hsp := hi.small (hback hall) p
    have hso := hi.small (hback hall) p.other
    refine forall_side (p := p) ⟨?_, ?_⟩ ⟨?_, ?_⟩
    · rw [hhere]; exact act_small (hi.ok (hback hall) p) hkin hsp.1 hso.2 hsm hx' hreg
    · rw [hout]; exact act_small_outb hsp.1 hsp.2 hx'
    · rw [hother]; exact hso.1
    · rw [hin]; intro f hf; exact hso.2 f (act_inb hx' f hf)
  · intro hall
    have hreg : x'.here.registered = true := by rw [← hhere]; exact hall p
    have hok := hi.ok (hback hall)
    refine forall_side (p := p) ?_ ?_
    · -- the direction in which `p` sends
      have hw : s'.window p = Flow.window x'.here (s.ends p.other) x'.outb x'.inb := by
        simp only [window, hhere, hother, hout, hin]
      rw [hw, ← hi.total (hback hall) p]
      rcases act_sender (hok p) (hok p.other) hkin hx' hreg with he | hm | ⟨i, q, -, -, hq, he⟩
      · rw [he]; rfl
      · exact hm.total_eq
      · rw [he]; exact CreditWindow.total_perm hq
    · -- the direction in which `p` receives
      have hw : s'.window p.other = Flow.window (s.ends p.other) x'.here x'.inb x'.outb := by
        simp only [window, hhere, hother, hout, hin, Side.other_other]
      have hw₀ : s.window p.other =
          Flow.window (s.ends p.other) (s.port p).here (s.port p).inb (s.port p).outb := by
        simp only [window, port, Side.other_other]
      rw [hw, ← hi.total (hback hall) p.other, hw₀]
      rcases act_receiver (hok p) hkin hx' hreg with he | hm | ⟨i, f, d, -, hf, -, he, hd⟩
      · rw [he]
      · exact hm.total_eq
      · have hd0 : d = 0 :=
          hd (pending_add_lt (hok p) hW ((hi.small (hback hall) p).1.popped f hf))
        rw [he, hd0]
        simp [CreditWindow.total]

/-- Nothing of the direction in which `p` sends is in flight, and the receiver
has consumed and accounted for its whole backlog. -/
def Drained (s : Link) (p : Side) : Prop :=
  s.wire p = [] ∧ s.wire p.other = [] ∧ (s.ends p).charged = [] ∧ (s.ends p.other).due = [] ∧
    (s.ends p.other).stream.recvItems = [] ∧ (s.ends p.other).popped = []

instance (s : Link) (p : Side) : Decidable (s.Drained p) :=
  inferInstanceAs (Decidable (_ ∧ _ ∧ _ ∧ _ ∧ _ ∧ _))

/-- **Conservation of credit, and no stall.**  In every state in which both
streams are live, the send window, the bytes of the messages in flight (charged
or written), the backlog, what has been popped and not yet accounted for, the
held-back credit and the credit in flight (due or written) add up to the window.
So when the direction is drained the send window is open, and `SendRaw` goes
through whatever it sends. -/
theorem conservation (id : UInt32) {W : ℤ} (hW : 1 ≤ W) (hW' : W < 2 ^ 32) {s : Link}
    (h : Reach step SmallSends (start id W) s) (hlive : s.Live) (p : Side) :
    (s.ends p).stream.sendWindow +
        (((s.ends p).charged.map List.length).sum + (sizes (s.wire p)).sum : ℕ) +
        (s.ends p.other).stream.recvBytes +
        ((s.ends p.other).popped.map size).sum +
        (s.ends p.other).stream.pendingCredit +
        (((s.ends p.other).due.map UInt32.toNat).sum + credits (s.wire p.other) : ℕ) = W ∧
      (s.Drained p → 0 < (s.ends p).stream.sendWindow ∧
        ∀ b, ∃ st, (s.ends p).stream.sendRaw b = .charged st ((s.ends p).stream.msgFrame b)) := by
  have hi : Conserved W s :=
    h.invariant (conserved_start id hW) fun _ _ _ hi hsm hs => conserved_step hW' hi hsm hs
  have hall : ∀ q, (s.ends q).registered = true := by
    intro q
    by_contra hq
    have he := hi.ended q (by simpa using hq)
    rw [(hlive q).1] at he
    exact absurd he (by simp)
  have hok := hi.ok hall p.other
  have htotal := hi.total hall p
  simp only [CreditWindow.total, window, Flow.window, List.sum_append, Nat.cast_add] at htotal
  have heq : (s.ends p).stream.sendWindow +
        (((s.ends p).charged.map List.length).sum + (sizes (s.wire p)).sum : ℕ) +
        (s.ends p.other).stream.recvBytes +
        ((s.ends p.other).popped.map size).sum +
        (s.ends p.other).stream.pendingCredit +
        (((s.ends p.other).due.map UInt32.toNat).sum + credits (s.wire p.other) : ℕ) = W := by
    rw [hok.bytes]
    simp only [Nat.cast_add]
    omega
  refine ⟨heq, ?_⟩
  rintro ⟨hw, hw', hc, hd, hr, hp⟩
  have hopen : 0 < (s.ends p).stream.sendWindow := by
    have hlt := hok.pending_lt
    rw [Stream.creditThreshold, hok.window] at hlt
    rw [hok.bytes, hw, hw', hc, hd, hr, hp] at heq
    simp only [List.map_nil, List.sum_nil, sizes_nil, credits_nil, add_zero,
      Nat.cast_zero] at heq
    split_ifs at hlt <;> omega
  refine ⟨hopen, fun b => ⟨(s.ends p).stream.chargeSend b.length, ?_⟩⟩
  rw [Stream.sendRaw, if_pos hopen]

/-- The smallest window: one byte is sent, received, accounted for and credited,
and the window is open again. -/
theorem conservation_one :
    ∃ s, Reach step SmallSends (start 1 1) s ∧ s.Live ∧ s.Drained .client ∧
      (s.ends .server).stream.pendingCredit = 0 ∧ 0 < (s.ends .client).stream.sendWindow := by
  obtain ⟨s, hs, hp⟩ := exists_reach_of_exec step SmallSends (start 1 1)
    (fun s => decide ((∀ p ∈ [Side.client, Side.server], (s.ends p).stream.ended = false ∧
      (s.ends p).stream.ctxErr = none) ∧ s.Drained .client ∧
      (s.ends .server).stream.pendingCredit = 0))
    [(.client, .sendRaw [5]), (.client, .writeMsg 0), (.server, .deliver), (.server, .popRecv),
      (.server, .returnCredit 0), (.server, .writeUpdate 0), (.client, .deliver)] (by decide)
  obtain ⟨hl, hd, hc⟩ := of_decide_eq_true hp
  have hlive : s.Live := fun q => hl q (by cases q <;> simp)
  exact ⟨s, hs, hlive, hd, hc, ((conservation 1 (by decide) (by decide) hs hlive .client).2 hd).1⟩

end Link

end WsProto.Go.Flow
