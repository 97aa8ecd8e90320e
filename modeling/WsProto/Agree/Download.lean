import WsProto.Agree.Received
import WsProto.Go.Flow.Delivery
import WsProto.Go.Grammar
import WsProto.Ts.StreamTerminal

/-!
# What a Go handler sends, and what a TypeScript consumer receives

The other direction of a streaming call.  On the Go side a handler, any sequence of calls under
any middleware and any history of routed frames, with `serveStream` around it; on the
TypeScript side `streamTerminal` with its pump, its generator and their interleavings with
every event of the mux.  The frames of the stream arrive in the order in which they were
written; what else arrives, and when, is up to the environment.

A server writes HEADER, messages and END (`WsProto.Go.Grammar`), and an iteration ends as the
first terminal event says (`WsProto.Ts.StreamTerminal`).  Here the two are put together.

* `still_step` — only a frame of the stream gives the consumer a message, and only END ends
  the iteration cleanly;
* `whole_of_end` — what has arrived with the END is the whole answer;
* `download_complete` — the consumer receives what the handler has sent, in order and once
  each, and an iteration that completes has delivered all of it, for a handler that returned
  without an error, with the trailers it has set.
-/

namespace WsProto.Agree.Download

open Machine Ts Ts.Ledger Ts.ReadSide Ts.StreamTerminal
open Go.Flow (payloads payloads_append)
open Go.Serve (sends events endStatus endTrailer isAnswer headerFrame)

/-! ## The system -/

section System

variable {ι ο ε : Type}

/-- A call and the frames of its stream that have arrived. -/
structure Feed (ο ε : Type) where
  call : StreamCall ο ε
  taken : List Frame := []

/-- The frame of stream `id` that a move brings. -/
def arrival (id : UInt32) : Move ι ε → Option Frame
  | .event (.message _ (some f)) => if f.streamId = id then some f else none
  | _ => none

variable (size : Frame → ℕ) (codec : Codec ι ο ε) (id : UInt32)

def Feed.step (x : Feed ο ε) (a : Move ι ε) : Option (Feed ο ε) :=
  (x.call.step size codec a).map fun call =>
    { call, taken := x.taken ++ (arrival id a).toList }

/-- The condition on a step: that of `WsProto.Ts.StreamTerminal`, and the frames of the stream
arrive as they were written. -/
def Feed.InOrder (wire : List Frame) (x : Feed ο ε) (a : Move ι ε) : Prop :=
  meets size codec x.call a = true ∧ ∀ f ∈ arrival id a, wire[x.taken.length]? = some f

instance (wire : List Frame) (x : Feed ο ε) (a : Move ι ε) :
    Decidable (x.InOrder size codec id wire a) :=
  inferInstanceAs (Decidable (_ ∧ ∀ f ∈ arrival id a, _))

end System

/-! ## What a step does to the mailbox -/

section Steps

variable {ι ο ε : Type} {size : Frame → ℕ} {codec : Codec ι ο ε} {x x' : StreamCall ο ε}
  {h : Mailbox Payload Terminal.Event} {c : Option Terminal.Call}

/-- A call that tells a stream neither of a message nor of an end without an error. -/
def Plain : Terminal.Call → Bool
  | .pushMsg _ | .endOk _ | .cancel => false
  | _ => true

/-- A step that brings no message, and no end without an error unless the source has failed. -/
structure Still (x x' : StreamCall ο ε) : Prop where
  stream : x'.stream = x.stream
  accepted : x'.box.accepted = x.box.accepted
  ended : x.box.outcome.isSome → x'.box.outcome = x.box.outcome ∧
    x'.sourceFailed = x.sourceFailed
  broken : x.box.outcome = none → ∀ t, x'.box.outcome = some t → t.error = none →
    x'.sourceFailed.isSome

theorem Still.of_eq (hstream : x'.stream = x.stream) (hbox : x'.box = x.box)
    (hsource : x'.sourceFailed = x.sourceFailed) : Still x x' := by
  refine ⟨hstream, by rw [hbox], fun _ => ⟨by rw [hbox], hsource⟩, fun hnone t ht => ?_⟩
  rw [hbox, hnone] at ht
  cases ht

/-- What a plain call leaves of the mailbox. -/
theorem deliver_plain (hc : ∀ c', c = some c' → Plain c' = true) :
    (deliver h c).accepted = h.accepted ∧
      (h.outcome.isSome → (deliver h c).outcome = h.outcome) ∧
      (h.outcome = none → ∀ t, (deliver h c).outcome = some t → t.error ≠ none) := by
  have hsame : ∀ {h' : Mailbox Payload Terminal.Event}, h'.outcome = h.outcome →
      h.outcome = none → ∀ t, h'.outcome = some t → t.error ≠ none := by
    intro h' heq hnone t ht
    rw [heq, hnone] at ht
    cases ht
  have hfinish : ∀ {e : WsStatusError} {t : Terminal.Event}, t.error = some e →
      (h.outcome.isSome → (h.finish t).outcome = h.outcome) ∧
        (h.outcome = none → ∀ t', (h.finish t).outcome = some t' → t'.error ≠ none) := by
    intro e t he
    refine ⟨fun hsome => by rw [Mailbox.finish_of_some t hsome], fun hnone t' ht' => ?_⟩
    rw [(Mailbox.finish_of_none t hnone).1] at ht'
    cases ht'
    rw [he]
    simp
  cases c with
  | none => exact ⟨rfl, fun _ => rfl, hsame rfl⟩
  | some c =>
      have hplain := hc c rfl
      cases c with
      | pushMsg p => cases hplain
      | endOk hs => cases hplain
      | cancel => cases hplain
      | recv => exact ⟨rfl, fun _ => rfl, hsame rfl⟩
      | setLeadingHeaders hs => exact ⟨rfl, fun _ => rfl, hsame rfl⟩
      | onClose => exact ⟨rfl, fun _ => rfl, hsame rfl⟩
      | endError e hs => exact ⟨rfl, hfinish rfl⟩
      | abort e => exact ⟨rfl, hfinish rfl⟩

/-- An event of the mux changes the mailbox by the call that it is to the stream. -/
theorem apply_box (size : Frame → ℕ) (x : StreamCall ο ε) (a : Act) {s : StreamImpl}
    (hs : x.mux.objs[x.stream]? = some s) (hcall : (call size x.mux a).isSome) :
    (x.apply size a).1.box = deliver x.box (callOn size x.mux x.stream s a) := by
  obtain ⟨y, hy⟩ := Option.isSome_iff_exists.1 hcall
  rw [StreamCall.apply, hs, hy]

theorem apply_frame (size : Frame → ℕ) (x : StreamCall ο ε) (a : Act) :
    (x.apply size a).1.stream = x.stream ∧
      (x.apply size a).1.sourceFailed = x.sourceFailed := by
  unfold StreamCall.apply
  split <;> exact ⟨rfl, rfl⟩

theorem callOn_plain {m : Mux} {r : Ref} {s : StreamImpl} {a : Act}
    (hdirect : ∀ c, direct m r s a = some c → Plain c = true) :
    ∀ c, callOn size m r s a = some c → Plain c = true := by
  intro c hc
  unfold callOn at hc
  rcases Option.or_eq_some_iff.1 hc with hc | ⟨-, hc⟩
  · exact hdirect c hc
  · -- the failure of the mux
    split_ifs at hc
    cases hc
    rfl

/-- An event that is a plain call, or none, to the stream. -/
theorem still_of_plain {a : Act} {s : StreamImpl} (hs : x.mux.objs[x.stream]? = some s)
    (hcall : (call size x.mux a).isSome)
    (hplain : ∀ c, callOn size x.mux x.stream s a = some c → Plain c = true) :
    Still x (x.apply size a).1 := by
  obtain ⟨hacc, hended, hbroken⟩ := deliver_plain (h := x.box) hplain
  rw [← apply_box size x a hs hcall] at hacc hended hbroken
  exact ⟨(apply_frame size x a).1, hacc,
    fun hsome => ⟨hended hsome, (apply_frame size x a).2⟩,
    fun hnone t ht hclean => absurd hclean (hbroken hnone t ht)⟩

/-- All but `cancel` and the frames of the stream. -/
theorem direct_plain {n : ℕ} {s : StreamImpl} {a : Act}
    (hb : Base size x.mux x.stream x.box n) (hcancel : a ≠ .abort x.stream none)
    (hno : arrival (UInt32.ofNat (2 * x.stream + 1)) (.event a : Move ι ε) = none) :
    ∀ c, direct x.mux x.stream s a = some c → Plain c = true := by
  intro c hc
  cases a with
  | send q payload =>
      simp only [direct] at hc
      split_ifs at hc
      cases hc
      rfl
  | abort q err =>
      simp only [direct] at hc
      split_ifs at hc with hq
      cases err with
      | none => exact absurd (by rw [hq]) hcancel
      | some e =>
          cases hc
          rfl
  | recv q =>
      simp only [direct] at hc
      split_ifs at hc
      cases hc
      rfl
  | message len f =>
      cases f with
      | none => cases hc
      | some f =>
          simp only [direct] at hc
          split_ifs at hc with hbig hreg
          -- a frame for the stream has its id
          obtain ⟨L, hsound⟩ := hb.sound
          obtain ⟨s', hs', hid⟩ := hsound.books.wf.reg _ _ hreg
          rw [arrival, if_pos (hid.symm.trans (hsound.books.wf.ids _ s' hs'))] at hno
          cases hno
  | _ => cases hc

/-- An event of the mux, or a call of `streamTerminal` other than `cancel`. -/
theorem still_apply (hx : Inv size codec x) {a : Act} (hcall : (call size x.mux a).isSome)
    (hcancel : a ≠ .abort x.stream none)
    (hno : arrival (UInt32.ofNat (2 * x.stream + 1)) (.event a : Move ι ε) = none) :
    Still x (x.apply size a).1 := by
  obtain ⟨k, hk⟩ := hx.base
  obtain ⟨s, hs, -⟩ := hk.stream
  exact still_of_plain hs hcall (callOn_plain (direct_plain hk hcancel hno))

/-- The pump cancels the stream. -/
theorem still_failPump (hx : Inv size codec x) (err : Value ε) :
    Still x (x.failPump size err) := by
  obtain ⟨k, hk⟩ := hx.base
  obtain ⟨m', hcancel, -⟩ := hk.cancel
  have hbox : (x.failPump size err).box = x.box.finish { error := none, resets := true } := by
    show (x.cancel size).box = _
    rw [hcancel]
  have hsource : (x.failPump size err).sourceFailed =
      if x.box.outcome.isSome then x.sourceFailed else some err := rfl
  refine ⟨(apply_frame size x _).1, by rw [hbox]; rfl,
    fun hsome => ⟨?_, by rw [hsource, if_pos hsome]⟩, fun hnone t _ _ => ?_⟩
  · rw [hbox, Mailbox.finish_of_some _ hsome]
  · rw [hsource, hnone]
    rfl

/-- `send` or `closeSend` of the pump. -/
theorem still_afterCall (hx : Inv size codec x) {a : Act} (hne : a ≠ .resume x.stream)
    (hcall : (call size x.mux a).isSome) (hcancel : a ≠ .abort x.stream none)
    (hno : arrival (UInt32.ofNat (2 * x.stream + 1)) (.event a : Move ι ε) = none)
    (goesOn : Bool) : Still x (StreamCall.afterCall size (x.apply size a) goesOn) := by
  have hstill := still_apply hx hcall hcancel hno
  obtain ⟨k, hk⟩ := hx.base
  obtain ⟨m', s, -, happly, -⟩ := hk.apply hne hcall
  rw [happly] at hstill ⊢
  exact ⟨hstill.stream, hstill.accepted, hstill.ended, hstill.broken⟩

/-- **Only a frame of the stream** brings a message, or an end without an error. -/
theorem still_step (hx : Inv size codec x) {a : Move ι ε}
    (hstep : x.step size codec a = some x')
    (hno : arrival (UInt32.ofNat (2 * x.stream + 1)) a = none) : Still x x' := by
  cases StreamCall.steps_of_step size codec hstep with
  | event hforeign hcall =>
      refine still_apply hx hcall ?_ hno
      rintro rfl
      simp [foreign] at hforeign
  | yields => exact still_afterCall hx (by simp) rfl (by simp) rfl true
  | ends => exact still_afterCall hx (by simp) rfl (by simp) rfl false
  | garbles | fails => exact still_failPump hx _
  | next =>
      have hstill := still_apply hx (a := .recv x.stream) rfl (by simp) rfl
      exact ⟨hstill.stream, hstill.accepted, hstill.ended, hstill.broken⟩
  | resume _ hs hr =>
      obtain ⟨c, d, hresume⟩ := StreamImpl.resume_spec hr
      have hcall : (call size x.mux (.resume x.stream)).isSome := by
        simp only [call, Mux.resume, hs, Option.bind_some, hresume, Option.map_some]
        rfl
      have hstill := still_apply hx hcall (by simp) rfl
      exact ⟨hstill.stream, hstill.accepted, hstill.ended, hstill.broken⟩
  | body hgen =>
      obtain ⟨v, -, hbody⟩ := hx.body_eq hgen
      rw [hbody]
      exact Still.of_eq rfl rfl rfl
  | done | thrown | closed | finish | lead => exact Still.of_eq rfl rfl rfl

/-- What a frame of the stream is to it, while it has not ended: a message, an end without an
error, or none of both; a message that is not accepted ends the stream. -/
theorem callOn_arrival {n : ℕ} {s : StreamImpl} (hb : Base size x.mux x.stream x.box n)
    (hs : x.mux.objs[x.stream]? = some s) (hlive : s.finished = false) {f : Frame}
    (hid : f.streamId = UInt32.ofNat (2 * x.stream + 1)) (len : ℕ) :
    let c := callOn size x.mux x.stream s (.message len (some f))
    (f.kind = .kindMsg ∧ c = some (.pushMsg f.payload)) ∨
      (f.kind = .kindEnd ∧ statusErrorFromProto f.status = none ∧
        c = some (.endOk (f.headers.getD ∅))) ∨
      ((∀ c', c = some c' → Plain c' = true) ∧
        (f.kind = .kindMsg → ∃ e hs, c = some (.endError e hs) ∨ c = some (.abort e))) := by
  intro c
  obtain ⟨L, hsound⟩ := hb.sound
  have hreg : x.mux.streams.lookup f.streamId = some x.stream := by
    rw [hid, ← hsound.books.wf.ids _ s hs]
    exact hsound.books.wf.live _ s hs hlive
  by_cases hbig : 0 < x.mux.maxFrameBytes ∧ x.mux.maxFrameBytes < len
  · -- the mux gives up
    have hdirect : direct x.mux x.stream s (.message len (some f)) = none := if_pos hbig
    have hfails : fails size x.mux (.message len (some f)) = true := by
      rw [fails, hsound.books.wf.not_defunct hs hlive]
      simp only [call, Mux.handleMessage, if_pos hbig, Option.any_some, Bool.not_false,
        Bool.true_and]
      rfl
    refine .inr (.inr ⟨callOn_plain fun c' hc' => ?_,
      fun _ => ⟨failure x.mux (.message len (some f)), ∅, .inl ?_⟩⟩)
    · rw [hdirect] at hc'
      cases hc'
    · show callOn _ _ _ _ _ = _
      rw [callOn, hdirect, Option.none_or, if_pos hfails]
  · have hdirect : direct x.mux x.stream s (.message len (some f)) = frameCall x.mux s f := by
      simp only [direct, if_neg hbig, if_pos hreg]
    have hcall : ∀ {c' : Terminal.Call}, frameCall x.mux s f = some c' → c = some c' :=
      fun hc => callOn_of_direct (hdirect.trans hc)
    have hplain : (∀ c', frameCall x.mux s f = some c' → Plain c' = true) →
        ∀ c', c = some c' → Plain c' = true := fun h =>
      callOn_plain fun c' hc' => h c' (hdirect.symm.trans hc')
    cases hk : f.kind with
    | kindMsg =>
        by_cases hfull : x.mux.maxRecvBytes < s.bufferedBytes
        · have hover : frameCall x.mux s f = some (.abort receiveOverflow) := by
            simp only [frameCall, hk, if_pos hfull]
          refine .inr (.inr ⟨hplain fun c' hc' => ?_, fun _ => ⟨_, ∅, .inr (hcall hover)⟩⟩)
          cases hover.symm.trans hc'
          rfl
        · refine .inl ⟨rfl, hcall ?_⟩
          simp only [frameCall, hk, if_neg hfull]
    | kindEnd =>
        cases hst : statusErrorFromProto f.status with
        | none =>
            refine .inr (.inl ⟨rfl, rfl, hcall ?_⟩)
            simp only [frameCall, hk, hst, Option.elim_none]
        | some e =>
            refine .inr (.inr ⟨hplain fun c' hc' => ?_, fun hne => by cases hne⟩)
            simp only [frameCall, hk, hst, Option.elim_some] at hc'
            cases hc'
            rfl
    | _ =>
        refine .inr (.inr ⟨hplain fun c' hc' => ?_, fun hne => by cases hne⟩)
        simp only [frameCall, hk] at hc'
        cases hc'
        try rfl

end Steps

/-! ## What has arrived, and what the consumer is told -/

section Fed

variable {ι ο ε : Type} (size : Frame → ℕ) (codec : Codec ι ο ε) (wire : List Frame)

/-- The END that ended the call, after which nothing counts. -/
structure EndedBy (x : Feed ο ε) (t : Terminal.Event) (before : List Frame) (f : Frame) :
    Prop where
  arrived : before ++ [f] <+: x.taken
  isEnd : f.kind = .kindEnd
  clean : statusErrorFromProto f.status = none
  accepted : x.call.box.accepted = payloads before
  headers : t.headers = f.headers.getD ∅

/-- What holds in every state: the messages that have arrived are accepted until the stream
ends, and it ends without an error by the failure of the source or by an END. -/
structure Fed (r : Ref) (x : Feed ο ε) : Prop where
  inv : Inv size codec x.call
  stream : x.call.stream = r
  taken : x.taken <+: wire
  accepted : x.call.box.accepted <+: payloads x.taken
  live : x.call.box.outcome = none → x.call.box.accepted = payloads x.taken
  ended : ∀ t, x.call.box.outcome = some t → t.error = none →
    x.call.sourceFailed.isSome ∨ ∃ before f, EndedBy x t before f

variable {size codec wire} {r : Ref} {x x' : Feed ο ε}

theorem payloads_ne {f : Frame} (hk : f.kind ≠ .kindMsg) : payloads [f] = [] := by
  simp [payloads, hk]

theorem payloads_msg {f : Frame} (hk : f.kind = .kindMsg) : payloads [f] = [f.payload] := by
  simp [payloads, hk]

/-- A step that brings no message and no clean end, be it by a frame of the stream. -/
theorem Fed.still (hx : Fed size codec wire r x) {c : StreamCall ο ε} (hinv : Inv size codec c)
    (hstill : Still x.call c) {fs : List Frame} (hnext : x.taken ++ fs <+: wire)
    (hquiet : c.box.outcome = none → payloads fs = []) :
    Fed size codec wire r { call := c, taken := x.taken ++ fs } := by
  refine ⟨hinv, hstill.stream.trans hx.stream, hnext, ?_, fun hnone => ?_, fun t ht hclean => ?_⟩
  · show c.box.accepted <+: _
    rw [hstill.accepted, payloads_append]
    exact hx.accepted.trans (List.prefix_append _ _)
  · replace hnone : c.box.outcome = none := hnone
    show c.box.accepted = _
    rw [payloads_append, hquiet hnone, List.append_nil, hstill.accepted]
    refine hx.live ?_
    by_contra hsome
    rw [(hstill.ended (Option.isSome_iff_ne_none.2 hsome)).1] at hnone
    exact hsome hnone
  · replace ht : c.box.outcome = some t := ht
    cases ho : x.call.box.outcome with
    | none => exact .inl (hstill.broken ho t ht hclean)
    | some t' =>
        obtain ⟨hout, hsource⟩ := hstill.ended (by rw [ho]; rfl)
        rw [hout] at ht
        rcases hx.ended t ht hclean with hfailed | ⟨before, f, hby⟩
        · exact .inl (by rw [← hsource] at hfailed; exact hfailed)
        · exact .inr ⟨before, f, hby.arrived.trans (List.prefix_append _ _), hby.isEnd, hby.clean,
            hstill.accepted.trans hby.accepted, hby.headers⟩

/-- A frame of the stream arrives. -/
theorem Fed.arrive (hx : Fed size codec wire r x) {len : ℕ} {f : Frame}
    (hid : f.streamId = UInt32.ofNat (2 * r + 1)) (hnext : x.taken ++ [f] <+: wire)
    (hinv : Inv size codec (x.call.apply size (.message len (some f))).1) :
    Fed size codec wire r
      { call := (x.call.apply size (.message len (some f))).1, taken := x.taken ++ [f] } := by
  obtain ⟨k, hk⟩ := hx.inv.base
  obtain ⟨s, hs, hshow, -⟩ := hk.stream
  obtain ⟨hstream, hsource⟩ := apply_frame size x.call (.message len (some f))
  have hbox := apply_box size x.call (.message len (some f)) hs rfl
  cases ho : x.call.box.outcome with
  | some t =>
      -- the stream has ended: nothing is accepted any more
      have hkept := hbox.trans
        ((grows_deliver (callOn_ne_recv (by simp))).ended (by rw [ho]; rfl))
      refine hx.still hinv (Still.of_eq hstream hkept hsource) hnext fun hnone => ?_
      rw [hkept, ho] at hnone
      cases hnone
  | none =>
      have hlive : s.finished = false := hshow.finished.trans (by rw [ho]; rfl)
      have hacc := hx.live ho
      rcases callOn_arrival hk hs hlive (by rw [hx.stream]; exact hid) len with
        ⟨hkind, hc⟩ | ⟨hkind, hst, hc⟩ | ⟨hplain, hc⟩
      · -- a message
        rw [hc, show deliver x.call.box (some (.pushMsg f.payload)) = x.call.box.push f.payload
          from rfl, Mailbox.push_of_none _ ho] at hbox
        generalize x.call.apply size (.message len (some f)) = y at *
        have hall : y.1.box.accepted = payloads (x.taken ++ [f]) := by
          rw [hbox, payloads_append, payloads_msg hkind, ← hacc]
        refine ⟨hinv, hstream.trans hx.stream, hnext, hall ▸ List.prefix_rfl, fun _ => hall,
          fun t ht => ?_⟩
        replace ht : y.1.box.outcome = some t := ht
        rw [hbox, ho] at ht
        cases ht
      · -- END
        rw [hc, show deliver x.call.box (some (.endOk (f.headers.getD ∅))) =
          x.call.box.finish { error := none, headers := f.headers.getD ∅ } from rfl] at hbox
        have hout := (congrArg Mailbox.outcome hbox).trans (Mailbox.finish_of_none _ ho).1
        have hsame := (congrArg Mailbox.accepted hbox).trans hacc
        refine ⟨hinv, hstream.trans hx.stream, hnext, ?_, fun hnone => ?_, fun t ht _ => ?_⟩
        · show Mailbox.accepted _ <+: _
          rw [hsame, payloads_append]
          exact List.prefix_append _ _
        · cases hout.symm.trans hnone
        · cases hout.symm.trans ht
          exact .inr ⟨x.taken, f, List.prefix_rfl, hkind, hst, hsame, rfl⟩
      · -- neither
        refine hx.still hinv (still_of_plain hs rfl hplain) hnext fun hnone => ?_
        refine payloads_ne fun hkind => ?_
        rw [hbox] at hnone
        obtain ⟨e, hs, hc | hc⟩ := hc hkind
        · rw [hc] at hnone
          cases (Mailbox.finish_of_none _ ho).1.symm.trans hnone
        · rw [hc] at hnone
          cases (Mailbox.finish_of_none _ ho).1.symm.trans hnone

theorem Fed.start {m : Mux} {L : List Frame} (hsound : Sound size m L) (hb : m.nextId < 2 ^ 32)
    (method : Text) (headers : Headers) (aborted : Option WsStatusError) :
    Fed size codec wire m.objs.length
      { call := (StreamCall.start size m method headers aborted : StreamCall ο ε) } := by
  have hopen : (opening size m method headers aborted).accepted = [] ∧
      ∀ t, (opening size m method headers aborted).outcome = some t → t.error ≠ none := by
    unfold opening
    split_ifs
    · exact ⟨rfl, fun t ht => by cases ht; simp⟩
    · exact ⟨rfl, fun t ht => by cases ht; simp⟩
    · refine ⟨rfl, fun t ht => ?_⟩
      cases aborted with
      | none => cases ht
      | some e =>
          cases ht
          simp
  refine ⟨inv_start size codec hsound hb method headers aborted, rfl, List.nil_prefix, ?_,
    fun _ => hopen.1, fun t ht hclean => absurd hclean (hopen.2 t ht)⟩
  show (opening size m method headers aborted).accepted <+: _
  rw [hopen.1]
  exact List.nil_prefix

/-- **Every step** keeps the account. -/
theorem Fed.step (hx : Fed size codec wire r x) {a : Move ι ε}
    (hok : x.InOrder size codec (UInt32.ofNat (2 * r + 1)) wire a)
    (hstep : x.step size codec (UInt32.ofNat (2 * r + 1)) a = some x') :
    Fed size codec wire r x' := by
  obtain ⟨c, hc, rfl⟩ := Option.map_eq_some_iff.1 hstep
  have hinv := hx.inv.step hok.1 hc
  cases harr : arrival (UInt32.ofNat (2 * r + 1)) a with
  | none =>
      have hstill := still_step hx.inv hc (by rw [hx.stream]; exact harr)
      exact hx.still hinv hstill (by rw [Option.toList_none, List.append_nil]; exact hx.taken)
        fun _ => rfl
  | some f =>
      obtain ⟨hlt, hget⟩ := List.getElem?_eq_some_iff.1 (hok.2 f harr)
      have hnext : x.taken ++ [f] <+: wire := hget ▸ List.concat_get_prefix hx.taken hlt
      cases a with
      | event a =>
          cases a with
          | message len g =>
              cases g with
              | none => cases harr
              | some g =>
                  simp only [arrival] at harr
                  split_ifs at harr with hid
                  cases harr
                  cases StreamCall.steps_of_step _ _ hc
                  exact hx.arrive hid hnext hinv
          | _ => cases harr
      | _ => cases harr

end Fed

/-! ## What the server has written -/

section Wire

open Go.Serve

variable {marshalFrame : Frame → Option (List UInt8)}

/-- The frames of the events reach the socket, those whose texts are not UTF-8 apart. -/
theorem written_eq_filter (hm : ∀ f, (marshalFrame f).isSome ↔ f.Utf8) (evs : List Go.Serve.Event)
    (s : Go.Stream) (sock : List Frame) :
    written marshalFrame s sock evs = sock ++ (frames s evs).filter fun f => f.Utf8 := by
  induction evs generalizing s sock with
  | nil => exact (List.append_nil sock).symm
  | cons e rest ih =>
      rw [written, frames, ih, List.filter_append, ← List.append_assoc]
      cases hw : (e.run s).2 with
      | none => rw [Option.toList_none, List.filter_nil, List.append_nil]
      | some f =>
          dsimp only
          rw [writeFrame_eq hm, Option.toList_some]

/-- What `serveStream` and the handler write. -/
theorem wire_eq (hm : ∀ f, (marshalFrame f).isSome ↔ f.Utf8) (srv : Server) (s : Go.Stream) :
    (srv.serveStream marshalFrame s []).2 = (srv.attempts s).filter fun f => f.Utf8 := by
  have hend : (after s (events (srv.run s))).endFrameOf (endStatus s (srv.run s))
      (endTrailers s (srv.run s)) =
        s.endFrameOf (endStatus s (srv.run s)) (endTrailers s (srv.run s)) := by
    rw [Go.Stream.endFrameOf, after_id]
    rfl
  rw [serveStream_eq, endStream, writeFrame_eq hm, written_eq_filter hm, Server.attempts,
    List.filter_append, hend, List.nil_append]

/-- A message has no text. -/
theorem payloads_filter_utf8 {l : List Frame} (hl : ∀ f ∈ l, f.kind = .kindMsg → f.Utf8) :
    payloads (l.filter fun f => f.Utf8) = payloads l := by
  rw [payloads, payloads, List.filter_filter]
  congr 1
  refine List.filter_congr fun f hf => ?_
  by_cases hk : f.kind = .kindMsg
  · simp [hk, hl f hf hk]
  · simp [hk]

theorem payloads_filter_answer (l : List Frame) : payloads (l.filter isAnswer) = payloads l := by
  rw [payloads, payloads, List.filter_filter]
  congr 1
  refine List.filter_congr fun f _ => ?_
  by_cases hk : f.kind = .kindMsg
  · simp [hk, isAnswer]
  · simp [hk]

/-- What the events write among the frames of an answer: no END. -/
theorem mem_frames {s : Go.Stream} {evs : List Go.Serve.Event} {f : Frame}
    (hf : f ∈ frames s evs) (hans : isAnswer f = true) :
    (∃ md, f = headerFrame s.id md) ∨ ∃ b, f = s.msgFrame b := by
  obtain ⟨hdr, hframes⟩ := answer_frames evs s
  have hmem : f ∈ (frames s evs).filter isAnswer := List.mem_filter.2 ⟨hf, hans⟩
  rw [hframes] at hmem
  rcases List.mem_append.1 hmem with hmem | hmem
  · obtain ⟨md, -, rfl⟩ := Option.map_eq_some_iff.1 (Option.mem_toList.1 hmem)
    exact .inl ⟨md, rfl⟩
  · obtain ⟨b, -, rfl⟩ := List.mem_map.1 hmem
    exact .inr ⟨b, rfl⟩

/-- The messages of the events are the successful sends. -/
theorem payloads_frames (s : Go.Stream) (evs : List Go.Serve.Event) :
    payloads ((frames s evs).filter fun f => f.Utf8) = sends s evs := by
  have hutf : ∀ f ∈ frames s evs, f.kind = .kindMsg → f.Utf8 := by
    intro f hf hk
    rcases mem_frames hf (by rw [isAnswer, hk]) with ⟨md, rfl⟩ | ⟨b, rfl⟩
    · cases hk
    · refine ⟨fun h hh => (by cases hh), fun st hst => (by cases hst), ?_⟩
      show ByteArray.empty.IsValidUTF8
      decide
  rw [payloads_filter_utf8 hutf, ← payloads_filter_answer]
  obtain ⟨hdr, hframes⟩ := answer_frames evs s
  have hmsgs : ∀ l : List Payload, payloads (l.map s.msgFrame) = l := by
    intro l
    induction l with
    | nil => rfl
    | cons b l ih => exact (Go.Flow.payloads_cons_msg rfl _).trans (by rw [ih]; rfl)
  rw [hframes, payloads_append, hmsgs]
  cases hdr with
  | none => rfl
  | some md => rfl

/-- **What has arrived with an END is the whole answer.** -/
theorem whole_of_end {srv : Server} {s : Go.Stream} {before : List Frame} {f : Frame}
    (hpre : before ++ [f] <+: (srv.attempts s).filter fun f => f.Utf8) (hk : f.kind = .kindEnd) :
    payloads before = sends s (events (srv.run s)) ∧
      f = s.endFrameOf (endStatus s (srv.run s)) (endTrailers s (srv.run s)) := by
  have hno : ¬ before ++ [f] <+: (frames s (events (srv.run s))).filter fun f => f.Utf8 := by
    intro hle
    have hf := (List.mem_filter.1 (hle.subset (List.mem_append_right _ List.mem_cons_self))).1
    rcases mem_frames hf (by rw [isAnswer, hk]) with ⟨md, rfl⟩ | ⟨b, rfl⟩
    · cases hk
    · cases hk
  rw [Server.attempts, List.filter_append] at hpre
  by_cases hend : (s.endFrameOf (endStatus s (srv.run s)) (endTrailers s (srv.run s))).Utf8
  · rw [List.filter_cons_of_pos (by simpa using hend), List.filter_nil] at hpre
    obtain ⟨rfl, hlast⟩ := List.append_inj' ((List.prefix_concat_iff.1 hpre).resolve_right hno) rfl
    exact ⟨payloads_frames s _, List.singleton_inj.1 hlast⟩
  · rw [List.filter_cons_of_neg (by simpa using hend), List.filter_nil, List.append_nil] at hpre
    exact absurd hpre hno

/-- All that arrives are successful sends. -/
theorem payloads_attempts (srv : Server) (s : Go.Stream) :
    payloads ((srv.attempts s).filter fun f => f.Utf8) = sends s (events (srv.run s)) := by
  rw [Server.attempts, List.filter_append, payloads_append, payloads_frames]
  by_cases hend : (s.endFrameOf (endStatus s (srv.run s)) (endTrailers s (srv.run s))).Utf8
  · rw [List.filter_cons_of_pos (by simpa using hend), List.filter_nil]
    exact List.append_nil _
  · rw [List.filter_cons_of_neg (by simpa using hend), List.filter_nil]
    exact List.append_nil _

/-- An END without an error is that of a handler that has returned none. -/
theorem code_of_clean {s : Go.Stream} {st : Go.Status} {tr : Option Headers}
    (hclean : statusErrorFromProto (s.endFrameOf st tr).status = none) : st.code = Go.Code.ok := by
  replace hclean : statusErrorFromProto (some (Go.statusToProto st)) = none := hclean
  simp only [statusErrorFromProto] at hclean
  split_ifs at hclean with hc
  have hback := congrArg Go.Status.code (Go.statusFromProto_statusToProto st)
  rw [← hback]
  exact (toUInt32_eq_zero_iff _).2 hc

end Wire

/-! ## Every run -/

section Runs

variable {ι ο ε : Type}

/-- **A streaming call receives what the handler has sent.**  For every server, handler,
middleware and history of the server's stream; for every state of the client's mux when the
call is opened; and in every run in which the frames of the stream arrive as they were written,
with anything else in between:

* the consumer has received the first of the handler's successful sends, in order and once
  each;
* an iteration that completes has received all of them, the status of the call is OK, and
  `trailer` is what the handler has set.

The conditions of `meets` apart, nothing is asked of the messages, the source or the
consumer. -/
theorem download_complete (marshalFrame : Frame → Option (List UInt8))
    (hm : ∀ f, (marshalFrame f).isSome ↔ f.Utf8) (srv : Go.Serve.Server)
    (ctxErr : Option Go.CtxErr) (W' : ℤ) (header : Option Headers) (size : Frame → ℕ)
    (codec : Codec ι ο ε) (W B F : ℤ) (ready : Bool) (got : Option Text) {y : Session}
    (hy : Reach (Session.step size) Always (Session.start W B F ready got) y)
    (hb : y.mux.nextId < 2 ^ 32) (method : Text) (headers : Headers)
    (aborted : Option WsStatusError) {x : Feed ο ε} :
    let id := UInt32.ofNat (2 * y.mux.objs.length + 1)
    let s : Go.Stream := { Go.newStream ctxErr id method W' with header }
    let wire := (srv.serveStream marshalFrame s []).2
    Reach (Feed.step size codec id) (Feed.InOrder size codec id wire)
        { call := StreamCall.start size y.mux method headers aborted } x →
      x.call.received.map .ok <+: (sends s (events (srv.run s))).map codec.fromBinary ∧
        (x.call.gen = .settled none →
          x.call.received.map .ok = (sends s (events (srv.run s))).map codec.fromBinary ∧
            (endStatus s (srv.run s)).code = Go.Code.ok ∧
            ∀ k, x.call.trailer.lookup k = endTrailer k (srv.run s)) := by
  intro id s wire hx
  have hsound : Sound size y.mux y.accepted := by
    refine hy.invariant (P := fun y => Sound size y.mux y.accepted)
      (sound_start size W B F ready got) fun y a y' hs _ hstep => ?_
    obtain ⟨z, hz, rfl⟩ := Option.map_eq_some_iff.1 hstep
    exact (hs.call hz).2
  have hfed : Fed size codec wire y.mux.objs.length x :=
    hx.invariant (P := Fed size codec wire y.mux.objs.length)
      (Fed.start hsound hb method headers aborted) fun x a x' hfed hok hstep => hfed.step hok hstep
  have hwire : wire = (srv.attempts s).filter fun f => f.Utf8 := wire_eq hm srv s
  have hsent : payloads x.taken <+: sends s (events (srv.run s)) := by
    rw [← payloads_attempts, ← hwire]
    exact (hfed.taken.filter _).map _
  refine ⟨?_, fun hgen => ?_⟩
  · rw [hfed.inv.received]
    exact (((List.take_prefix _ _).trans hfed.accepted).trans hsent).map _
  · obtain ⟨hreceived, ⟨t, hout, htrailer, hread, hsource, -⟩, -⟩ := hfed.inv.outcome hgen
    have hclean : t.error = none := by
      rw [Option.eq_none_iff_forall_ne_some]
      intro e he
      cases hread e he
    have hnever : ¬ x.call.sourceFailed.isSome := by
      intro hsome
      obtain ⟨err, herr⟩ := Option.isSome_iff_exists.1 hsome
      cases hsource err herr
    obtain ⟨before, f, hby⟩ := (hfed.ended t hout hclean).resolve_left hnever
    obtain ⟨hall, hend⟩ := whole_of_end (hwire ▸ hby.arrived.trans hfed.taken) hby.isEnd
    refine ⟨?_, ?_, fun k => ?_⟩
    · rw [hreceived, hby.accepted, hall]
    · exact code_of_clean (hend ▸ hby.clean)
    · rw [htrailer, hby.headers, hend]
      exact Go.Serve.lookup_endTrailers k rfl _

end Runs

/-- A handler that sends a message and returns. -/
def sending (b : Payload) : Go.Serve.Server :=
  { unknownHandler := some fun _ =>
      { events := [.op (.sendRaw b)], outcome := .returned none } }

/-- The stream of its call. -/
def accepted : Go.Stream := Go.newStream none 1 .empty 4

/-- The two frames arrive, and the iteration completes with the message. -/
theorem download_complete_one :
    ∃ x : Feed Payload Empty,
      Reach (Feed.step (fun f : Frame => f.payload.length) plain 1)
        (Feed.InOrder (fun f : Frame => f.payload.length) plain 1
          ((sending [7]).serveStream Go.Serve.strictMarshal accepted []).2)
        { call := callOf } x ∧
      x.call.gen = .settled none ∧ x.call.received = [[7]] ∧
      (x.call.received.map .ok =
          (sends accepted (events ((sending [7]).run accepted))).map plain.fromBinary ∧
        (endStatus accepted ((sending [7]).run accepted)).code = Go.Code.ok ∧
        ∀ k, x.call.trailer.lookup k = endTrailer k ((sending [7]).run accepted)) := by
  obtain ⟨x, hx, hp⟩ := exists_reach_of_exec
    (Feed.step (fun f : Frame => f.payload.length) plain 1)
    (Feed.InOrder (fun f : Frame => f.payload.length) plain 1
      ((sending [7]).serveStream Go.Serve.strictMarshal accepted []).2)
    { call := callOf }
    (fun x : Feed Payload Empty => x.call.gen = .settled none ∧ x.call.received = [[7]])
    [.next, .event (.message 1 (some { streamId := 1, kind := .kindMsg, payload := [7] })),
      .resume, .loop, .next,
      .event (.message 1 (some
        { streamId := 1, kind := .kindEnd, status := some (Go.statusToProto { code := 0 }) })),
      .resume, .loop, .finish]
    (by decide +kernel)
  obtain ⟨hgen, hreceived⟩ := of_decide_eq_true hp
  exact ⟨x, hx, hgen, hreceived, (download_complete Go.Serve.strictMarshal
    Go.Serve.strictMarshal_isSome (sending [7]) none 4 none _ plain 0 0 0 true none .refl
    (by decide) .empty ∅ none hx).2 hgen⟩

end WsProto.Agree.Download
