import WsProto.Go.Flow.Link

/-!
# Flow control between two Go ends: when a stream is reset

`tryDeliver` refuses a message when the backlog is already over the window, and
the mux then resets the stream.  A sender that obeys the window should never see
that.

* `tryDeliver_of_inOrder` — as long as the frames of an end are written in the
  order in which their sends charged the window, it never happens;
* `inOrder_of_oneSender` — which is the case when the sends of an end do not
  overlap;
* `overtaking_send_resets` — when a send overtakes another between its charge and
  its write, it can happen.
-/

namespace WsProto.Go.Flow

open Machine

variable {W : ℤ}

namespace Link

/-- The condition on a step: a write takes the oldest charged frame. -/
def InOrder (_ : Link) (a : Side × Act) : Prop := ∀ i, a.2 = .writeMsg i → i = 0

instance (s : Link) (a : Side × Act) : Decidable (InOrder s a) :=
  match a with
  | (_, .writeMsg i) => decidable_of_iff (i = 0) (by simp [InOrder])
  | (_, .sendRaw _) | (_, .deliver) | (_, .popRecv) | (_, .returnCredit _)
  | (_, .writeUpdate _) => isTrue (by simp [InOrder])

/-- The invariant of in-order runs. -/
structure Ordered (W : ℤ) (s : Link) : Prop where
  ok : ∀ p, (s.ends p).Ok W
  kinds : ∀ p, ∀ f ∈ s.wire p, FlowKind f
  disciplined : ∀ p, (s.window p).Disciplined W

theorem ordered_start (id : UInt32) (hW : 1 ≤ W) : Ordered W (start id W) where
  ok := ok_start id hW
  kinds := by intro p f hf; simp [start] at hf
  disciplined := by intro p; rw [window_start id hW]; exact CreditWindow.disciplined_new W

theorem ordered_step {s s' : Link} {a : Side × Act} (hi : Ordered W s) (hord : InOrder s a)
    (h : s.step a = some s') : Ordered W s' := by
  obtain ⟨p, a⟩ := a
  obtain ⟨x', hx', hhere, hother, hout, hin⟩ := step_eq_some h
  have hok := hi.ok p
  have hkin : ∀ f ∈ (s.port p).inb, FlowKind f := hi.kinds p.other
  have hdrcv : (Flow.window (s.ends p.other) (s.port p).here (s.port p).inb
      (s.port p).outb).Disciplined W := by
    simpa [window, port] using hi.disciplined p.other
  have hreg := act_registered hok hkin hdrcv hx'
  refine ⟨forall_side (p := p) ?_ ?_, forall_side (p := p) ?_ ?_, forall_side (p := p) ?_ ?_⟩
  · rw [hhere]; exact act_ok hok hkin hx' hreg
  · rw [hother]; exact hi.ok p.other
  · rw [hout]; exact act_flowKind (hi.kinds p) hx'
  · rw [hin]; intro f hf; exact hi.kinds p.other f (act_inb hx' f hf)
  · -- the direction in which `p` sends
    have hw : s'.window p = Flow.window x'.here (s.ends p.other) x'.outb x'.inb := by
      simp only [window, hhere, hother, hout, hin]
    rw [hw]
    rcases act_sender hok (hi.ok p.other) hkin hx' hreg with he | hm | ⟨i, q, rfl, hpos, -⟩
    · rw [he]; exact hi.disciplined p
    · exact (hi.disciplined p).move hm
    · exact absurd (hord i rfl) (by omega)
  · -- the direction in which `p` receives
    have hw : s'.window p.other = Flow.window (s.ends p.other) x'.here x'.inb x'.outb := by
      simp only [window, hhere, hother, hout, hin, Side.other_other]
    rw [hw]
    rcases act_receiver hok hkin hx' hreg with he | hm | ⟨i, f, d, -, -, hd, he, -⟩
    · rw [he]; exact hdrcv
    · exact hdrcv.move hm
    · rw [he]; exact hdrcv.lossy (.lose d hd)

/-- **No false reset.**  In every run in which the frames of an end are written
in the order their sends charged the window, no stream is reset, and the next
message of either wire is accepted — for every window, every list of payload
sizes and every interleaving of the two ends. -/
theorem tryDeliver_of_inOrder (id : UInt32) {W : ℤ} (hW : 1 ≤ W) {s : Link}
    (h : Reach step InOrder (start id W) s) (p : Side) :
    (s.ends p).registered = true ∧
      ∀ f rest, s.wire p.other = f :: rest → f.kind = .kindMsg →
        (s.ends p).stream.tryDeliver f ≠ none := by
  have hi : Ordered W s :=
    h.invariant (ordered_start id hW) fun _ _ _ hi hord hs => ordered_step hi hord hs
  refine ⟨(hi.ok p).registered, ?_⟩
  intro f rest hf hk
  have hd := hi.disciplined p.other
  simp only [window, Side.other_other, hf] at hd
  exact Option.isSome_iff_ne_none.1 (tryDeliver_of_disciplined (hi.ok p) hd hk)

/-- With a window of two bytes, a one-byte and a three-byte message, sent one
after the other, are both accepted. -/
theorem tryDeliver_of_inOrder_two :
    ∃ s, Reach step InOrder (start 1 2) s ∧
      s.wire .client = [{ streamId := 1, kind := .kindMsg, payload := [2, 3, 4] }] ∧
      (s.ends .server).stream.recvItems ≠ [] ∧ (s.ends .server).registered = true ∧
      ∀ f rest, s.wire .client = f :: rest → f.kind = .kindMsg →
        (s.ends .server).stream.tryDeliver f ≠ none := by
  obtain ⟨s, hs, hp⟩ := exists_reach_of_exec step InOrder (start 1 2)
    (fun s =>
      s.wire .client == [{ streamId := 1, kind := .kindMsg, payload := [2, 3, 4] }] &&
      !(s.ends .server).stream.recvItems.isEmpty)
    [(.client, .sendRaw [1]), (.client, .writeMsg 0), (.client, .sendRaw [2, 3, 4]),
      (.server, .deliver), (.client, .writeMsg 0)] (by decide)
  simp only [Bool.and_eq_true, beq_iff_eq, Bool.not_eq_true', List.isEmpty_eq_false_iff] at hp
  exact ⟨s, hs, hp.1, hp.2, tryDeliver_of_inOrder 1 (by decide) hs .server⟩

/-- **A send that overtakes another resets the stream.**  With a window of two
bytes, a one-byte send charges the window first and a three-byte send second;
the second is written first.  The one-byte message then finds three unconsumed
bytes in front of it, `tryDeliver` refuses it, and routing it fails the stream
with `ResourceExhausted`. -/
theorem overtaking_send_resets :
    ∃ s, Reach step Always (start 1 2) s ∧
      (∃ f, s.wire .client = [f] ∧ f.kind = .kindMsg ∧
        (s.ends .server).stream.tryDeliver f = none) ∧
      ∃ s', s.step (.server, .deliver) = some s' ∧
        ((s'.ends .server).stream.endSt.map (·.code)) = some Code.resourceExhausted := by
  obtain ⟨s, hs, hp⟩ := exists_reach_of_exec step Always (start 1 2)
    (fun s =>
      s.wire .client == [{ streamId := 1, kind := .kindMsg, payload := [1] }] &&
      (((s.ends .server).stream.tryDeliver
        { streamId := 1, kind := .kindMsg, payload := [1] }).isNone &&
      (s.step (.server, .deliver)).any fun s' =>
        (s'.ends .server).stream.endSt.map (·.code) == some Code.resourceExhausted))
    [(.client, .sendRaw [1]), (.client, .sendRaw [2, 3, 4]), (.client, .writeMsg 1),
      (.server, .deliver), (.client, .writeMsg 0)] (by decide)
  simp only [Bool.and_eq_true, beq_iff_eq, Option.isNone_iff_eq_none, Option.any_eq_true] at hp
  exact ⟨s, hs, ⟨_, hp.1, rfl, hp.2.1⟩, hp.2.2⟩

/-- The sends of an end do not overlap: a send starts only after the frame of
the previous one has been written. -/
def OneSender (s : Link) (a : Side × Act) : Prop :=
  ∀ b, a.2 = .sendRaw b → (s.ends a.1).charged = []

/-- With one sending goroutine there is nothing to overtake. -/
theorem inOrder_of_oneSender {id : UInt32} {W : ℤ} {s : Link}
    (h : Reach step OneSender (start id W) s) :
    Reach step InOrder (start id W) s ∧ ∀ p, (s.ends p).charged.length ≤ 1 := by
  induction h with
  | refl => exact ⟨.refl, fun p => by simp [start]⟩
  | @tail s s' a _ hone hs ih =>
      obtain ⟨hreach, hlen⟩ := ih
      obtain ⟨p, a⟩ := a
      obtain ⟨x', hx', hhere, hother, -⟩ := step_eq_some hs
      have hp := hlen p
      have hin : InOrder s (p, a) ∧ x'.here.charged.length ≤ 1 := by
        cases a with
        | sendRaw b =>
            obtain ⟨-, rfl⟩ := act_sendRaw hx'
            have hc : (s.ends p).charged = [] := hone b rfl
            exact ⟨by simp [InOrder], by simp [port, hc]⟩
        | writeMsg i =>
            simp only [Port.act, Option.map_eq_some_iff] at hx'
            obtain ⟨b, hb, rfl⟩ := hx'
            obtain ⟨hi, -⟩ := List.getElem?_eq_some_iff.1 hb
            simp only [port] at hi
            refine ⟨by simp only [InOrder, Act.writeMsg.injEq, forall_eq']; omega, ?_⟩
            exact (List.length_eraseIdx_le _ _).trans hp
        | deliver =>
            obtain ⟨g, rest, -, rfl⟩ := act_route hx'
            refine ⟨by simp [InOrder], ?_⟩
            simp only [End.route]
            split
            · split <;> exact hp
            · exact hp
        | popRecv | returnCredit i | writeUpdate i =>
            simp only [Port.act, Option.map_eq_some_iff] at hx'
            obtain ⟨y, -, rfl⟩ := hx'
            exact ⟨by simp [InOrder], hp⟩
      refine ⟨hreach.tail hin.1 hs, forall_side (p := p) ?_ ?_⟩
      · rw [hhere]; exact hin.2
      · rw [hother]; exact hlen p.other

end Link

end WsProto.Go.Flow
