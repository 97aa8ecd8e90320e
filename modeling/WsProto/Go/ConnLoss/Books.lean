import WsProto.Go.ConnLoss.Model
import WsProto.Go.Inbound.Complete

/-!
# The loss of the connection: what `failAll` has done

* `Books` — how far `failAll` has come with the stream, and what it has recorded: it comes
  to a stream without a terminal frame, and goes status, `ended`, context;
* `Inv` — also where the receiver and the sender stand, and that every logged error due to
  the loss is accounted for;
* `books_route`, `books_loop`, `books_recv` — the steps of the stream keep
  the books.
-/

namespace WsProto.Go.ConnLoss

/-! ## The invariants -/

/-- What `failAll` records for the stream. -/
def lossStatus (closed : Bool) : Option Status := fromError (some (connLostErr closed))

/-- The read loop is past the loss. -/
def pastLoss : LoopPc → Bool
  | .lost _ _ | .exited => true
  | _ => false

/-- Where `failAll` stands, and what it has done to the stream. -/
structure Books (c : Call) : Prop where
  deliberate : c.loss.lost = some true → c.loss.closedFlag = true
  found : c.loss.found = some false → c.loss.lost = some false
  classified : c.loss.found ≠ none → c.loss.lost ≠ none
  loop : pastLoss c.x.loop = c.loss.found.isSome
  /-- `failAll` comes to a stream without a terminal frame. -/
  stage : ∀ (closed : Bool) (pc : FailPc), c.x.loop = .lost closed pc →
    c.loss.found = some closed ∧ c.x.stream.endFrame = none ∧ (pc ≠ .record → c.loss.recorded = true) ∧
      (pc = .cancel → c.x.stream.ended = true)
  recorded : c.loss.recorded = true → ∃ closed, c.loss.found = some closed ∧
    c.x.stream.endSt = lossStatus closed ∧ c.x.stream.endFrame = none
  ended : c.loss.ended = true → c.loss.recorded = true
  cancelled : c.loss.cancelled = true → c.loss.recorded = true ∧ c.x.stream.ended = true
  /-- A terminal frame takes the stream out of the registry. -/
  frame : c.x.stream.endFrame ≠ none →
    c.sender ≠ .made ∧ (c.x.registered = false ∨ c.x.loop = .close ∨ c.x.loop = .remove)
  unregistered : c.sender = .made → c.x.registered = false
  ender : c.x.ender = .idle

/-- What the receiver has seen where it stands. -/
def Seen (c : Call) : RecvPc → Prop
  | .endedPop | .endedFrame | .endedStatus => c.x.stream.ended = true
  | .record f | .cancel f => c.x.stream.ended = true ∧ c.x.stream.endFrame = some f
  | .ctxEnded _ => c.x.stream.ctxErr ≠ none
  | .ctxPop _ => c.x.stream.ctxErr ≠ none ∧ c.loss.cancelled = false
  | .idle | .pop | .select | .halfPop | .deliver _ => True

/-- What is said of an error due to the loss: `WriteFrame` has returned it and it is no
status, or it is the status that `failAll` has recorded. -/
def Accounted (c : Call) (o : Outcome) : Prop :=
  o.lost = true → c.loss.lost ≠ none ∧ ∃ e, o.err = some e ∧
    ((o.written = true ∧ raw e = true) ∨
      (o.written = false ∧ ∃ closed, c.loss.found = some closed ∧ e = connLostErr closed))

structure Inv (c : Call) : Prop where
  books : Books c
  seen : Seen c c.x.recv
  /-- While the sender holds the mutex, no status is recorded. -/
  held : c.sender.holds = true → c.x.stream.endSt = none
  log : ∀ o ∈ c.log, Accounted c o

variable {c c' : Call}

theorem inv_start (ctxErr : Option CtxErr) (id : UInt32) (method : Text) (W : ℤ) :
    Inv (Call.start ctxErr id method W) := by
  refine
    { books := ?_
      seen := trivial
      held := fun h => nomatch h
      log := fun o ho => nomatch ho }
  exact
    { deliberate := fun h => nomatch h
      found := fun h => nomatch h
      classified := fun h => absurd rfl h
      loop := rfl
      stage := fun closed pc h => nomatch h
      recorded := fun h => nomatch h
      ended := fun h => nomatch h
      cancelled := fun h => nomatch h
      frame := fun h => absurd rfl h
      unregistered := fun _ => rfl
      ender := rfl }

/-! ## Errors in the log -/

theorem Accounted.mono {o : Outcome} (h : Accounted c o)
    (hlost : c.loss.lost ≠ none → c'.loss.lost ≠ none)
    (hfound : ∀ closed, c.loss.found = some closed → c'.loss.found = some closed) : Accounted c' o := by
  intro ho
  obtain ⟨hl, e, he, h | ⟨hw, closed, hclosed, hst⟩⟩ := h ho
  · exact ⟨hlost hl, e, he, Or.inl h⟩
  · exact ⟨hlost hl, e, he, Or.inr ⟨hw, closed, hfound closed hclosed, hst⟩⟩

/-- An outcome that is not due to the loss. -/
theorem accounted_of_not {o : Outcome} (h : o.lost = false) : Accounted c o := by
  intro ho
  rw [h] at ho
  cases ho

/-- The status that `failAll` has recorded. -/
theorem Books.accounted (h : Books c) (hr : c.loss.recorded = true) {o : Outcome}
    (hw : o.written = false) (ho : ∃ st, c.x.stream.endSt = some st ∧ o.err = some (.status st)) :
    Accounted c o := by
  intro _
  obtain ⟨closed, hfound, hst, -⟩ := h.recorded hr
  obtain ⟨st, hst', herr⟩ := ho
  refine ⟨h.classified (by rw [hfound]; simp), _, herr, Or.inr ⟨hw, closed, hfound, ?_⟩⟩
  have heq : lossStatus closed = some st := hst.symm.trans hst'
  cases closed <;> · cases heq; rfl

theorem lossStatus_code (closed : Bool) : ∃ st, lossStatus closed = some st ∧ st.code ≠ Code.ok := by
  cases closed <;> exact ⟨_, rfl, by decide⟩

/-- The recorded status, as a blocked `Send` returns it. -/
theorem Books.endStErr (h : Books c) (hr : c.loss.recorded = true) :
    ∃ st, c.x.stream.endSt = some st ∧ c.x.stream.endStErr = some (.status st) := by
  obtain ⟨closed, -, hst, -⟩ := h.recorded hr
  obtain ⟨st, hst', hcode⟩ := lossStatus_code closed
  refine ⟨st, hst.trans hst', ?_⟩
  rw [Stream.endStErr, hst, hst', Option.map_some, if_pos hcode]

/-! ## The steps of the stream -/

/-- What the books read of the stream. -/
def view (x : Inbound) : Option Status × Option Frame × Bool × LoopPc × Bool × EndPc :=
  (x.stream.endSt, x.stream.endFrame, x.stream.ended, x.loop, x.registered, x.ender)

/-- What the books depend on. -/
theorem Books.congr (h : Books c) (hl : c'.loss = c.loss) (hv : view c'.x = view c.x)
    (hmade : c'.sender = .made ↔ c.sender = .made) : Books c' := by
  simp only [view, Prod.mk.injEq] at hv
  obtain ⟨hst, hf, hended, hloop, hreg, hender⟩ := hv
  exact
    { deliberate := by rw [hl]; exact h.deliberate
      found := by rw [hl]; exact h.found
      classified := by rw [hl]; exact h.classified
      loop := by rw [hl, hloop]; exact h.loop
      stage := by rw [hl, hf, hloop, hended]; exact h.stage
      recorded := by rw [hl, hf, hst]; exact h.recorded
      ended := by rw [hl]; exact h.ended
      cancelled := by rw [hl, hended]; exact h.cancelled
      frame := by simpa only [hf, hreg, hloop, ne_eq, hmade] using h.frame
      unregistered := by rw [hmade, hreg]; exact h.unregistered
      ender := by rw [hender]; exact h.ender }

/-- Before the loss is classified, `failAll` has done nothing. -/
theorem Books.early (h : Books c) (hpast : pastLoss c.x.loop = false) :
    c.loss.found = none ∧ c.loss.recorded = false ∧ c.loss.cancelled = false := by
  have hfound : c.loss.found = none := by
    have hloop := h.loop
    rw [hpast] at hloop
    exact Option.isNone_iff_eq_none.1 (by simpa using hloop.symm)
  have hrec : c.loss.recorded = false := by
    by_contra hr
    obtain ⟨closed, hc, -⟩ := h.recorded (by simpa using hr)
    rw [hfound] at hc
    cases hc
  refine ⟨hfound, hrec, ?_⟩
  by_contra hc
  have := (h.cancelled (by simpa using hc)).1
  rw [hrec] at this
  cases this

/-- A step of the read loop before the loss is classified. -/
theorem Books.before (h : Books c) (hpast : pastLoss c.x.loop = false) (hl : c'.loss = c.loss)
    (hpast' : pastLoss c'.x.loop = false)
    (hframe : c'.x.stream.endFrame ≠ none →
      c'.sender ≠ .made ∧ (c'.x.registered = false ∨ c'.x.loop = .close ∨ c'.x.loop = .remove))
    (hmade : c'.sender = .made → c'.x.registered = false) (hender : c'.x.ender = .idle) :
    Books c' := by
  obtain ⟨hfound, hrec, hcan⟩ := h.early hpast
  exact
    { deliberate := by rw [hl]; exact h.deliberate
      found := by rw [hl]; exact h.found
      classified := by rw [hl]; exact h.classified
      loop := by rw [hl, hpast', hfound]; rfl
      stage := fun closed pc hpc => by
        rw [hpc] at hpast'
        cases hpast'
      recorded := fun hr => by
        rw [hl, hrec] at hr
        cases hr
      ended := by rw [hl]; exact h.ended
      cancelled := fun hc => by
        rw [hl, hcan] at hc
        cases hc
      frame := hframe
      unregistered := hmade
      ender := hender }

/-- A registered stream has no terminal frame while the read loop is in `ReadFrame`. -/
theorem Books.endFrame_eq_none (h : Books c) (hr : c.x.loop = .read) (hreg : c.x.registered = true) :
    c.x.stream.endFrame = none := by
  by_contra hne
  obtain ⟨-, hc | hc | hc⟩ := h.frame hne
  · rw [hreg] at hc
    cases hc
  · rw [hr] at hc
    cases hc
  · rw [hr] at hc
    cases hc

/-- A terminal frame. -/
theorem books_signalEnd (h : Books c) {f : Frame} (hr : c.x.loop = .read)
    (hmade : c.sender ≠ .made) :
    Books (c.advance (.route f) (if c.x.stream.ended then { c.x with loop := .remove }
      else { c.x with stream := { c.x.stream with endFrame := some f }, loop := .close })) := by
  have hpast : pastLoss c.x.loop = false := by rw [hr]; rfl
  split
  · exact h.before hpast rfl rfl (fun _ => ⟨hmade, Or.inr (Or.inr rfl)⟩)
      (fun hm => absurd hm hmade) h.ender
  · exact h.before hpast rfl rfl (fun _ => ⟨hmade, Or.inr (Or.inl rfl)⟩)
      (fun hm => absurd hm hmade) h.ender

/-- A message. -/
theorem books_routeMsg (h : Books c) {f : Frame} (hr : c.x.loop = .read)
    (hreg : c.x.registered = true) (hmade : c.sender ≠ .made) :
    Books (c.advance (.route f) (c.x.routeMsg f)) := by
  have hpast : pastLoss c.x.loop = false := by rw [hr]; rfl
  have hnone := h.endFrame_eq_none hr hreg
  unfold Inbound.routeMsg
  split
  · exact h.congr rfl rfl Iff.rfl
  · exact h.before hpast rfl rfl (fun hne => absurd hnone hne) (fun hm => absurd hm hmade) h.ender
  · rename_i s hs
    have hframe : s.endFrame = none := by
      rw [Inbound.deliver_queued hs]
      exact hnone
    exact h.before hpast rfl rfl (fun hne => absurd hframe hne) (fun hm => absurd hm hmade) h.ender

/-- **A routed frame.** -/
theorem books_route (h : Books c) {f : Frame} (hr : c.x.loop = .read) :
    Books (c.advance (.route f) (c.x.route f)) := by
  unfold Inbound.route
  split
  · rename_i hreg
    have hmade : c.sender ≠ .made := by
      intro hm
      rw [h.unregistered hm] at hreg
      cases hreg
    split
    · exact h.congr rfl rfl Iff.rfl
    · exact h.congr rfl rfl Iff.rfl
    · split <;> exact h.congr rfl rfl Iff.rfl
    · unfold Stream.creditSend
      split <;> exact h.congr rfl rfl Iff.rfl
    · exact books_signalEnd h hr hmade
    · exact books_signalEnd h hr hmade
    · exact books_routeMsg h hr hreg hmade
  · exact h.congr rfl rfl Iff.rfl

/-- A piece of `failAll`. -/
theorem books_lost (h : Books c) {closed : Bool} {pc : FailPc} (hl : c.x.loop = .lost closed pc)
    {x' : Inbound} (hx : c.x.loopStep = some x') : Books (c.advance .loop x') := by
  obtain ⟨hfound, hframe, hrec, hended⟩ := h.stage closed pc hl
  have hf : failing c.x .loop = some pc := by simp only [failing, hl]
  have hmade : c.sender = .made → c.x.registered = false := h.unregistered
  simp only [Inbound.loopStep, hl, Option.map_eq_some_iff] at hx
  obtain ⟨y, hy, rfl⟩ := hx
  rw [Call.advance, hf]
  cases pc with
  | record =>
      obtain rfl := Option.some.inj hy
      exact
        { h with
          loop := (congrArg Option.isSome hfound).symm
          stage := fun closed' pc' hpc => by
            cases hpc
            exact ⟨hfound, hframe, fun _ => rfl, fun hc => nomatch hc⟩
          recorded := fun _ => ⟨closed, hfound, rfl, hframe⟩
          ended := fun _ => rfl
          cancelled := fun hc => ⟨rfl, (h.cancelled hc).2⟩
          frame := fun hne => absurd hframe hne }
  | close =>
      obtain rfl := Option.some.inj hy
      have hr : c.loss.recorded = true := hrec (by decide)
      exact
        { h with
          loop := (congrArg Option.isSome hfound).symm
          stage := fun closed' pc' hpc => by
            cases hpc
            exact ⟨hfound, hframe, fun _ => hr, fun _ => rfl⟩
          recorded := h.recorded
          ended := fun _ => hr
          cancelled := fun _ => ⟨hr, rfl⟩
          frame := fun hne => absurd hframe hne }
  | cancel =>
      obtain rfl := Option.some.inj hy
      have hr : c.loss.recorded = true := hrec (by decide)
      exact
        { h with
          loop := (congrArg Option.isSome hfound).symm
          stage := fun closed' pc' hpc => nomatch hpc
          recorded := h.recorded
          ended := fun _ => hr
          cancelled := fun _ => ⟨hr, hended rfl⟩
          frame := fun hne => absurd hframe hne
          unregistered := fun _ => rfl }

/-- Where the read loop is not at the stream's terminal frame, a stream with one is
unregistered. -/
theorem Books.unregistered_of_frame (h : Books c) (hc : c.x.loop ≠ .close) (hr : c.x.loop ≠ .remove)
    (hne : c.x.stream.endFrame ≠ none) : c.sender ≠ .made ∧ c.x.registered = false := by
  obtain ⟨hmade, hreg | hl | hl⟩ := h.frame hne
  · exact ⟨hmade, hreg⟩
  · exact absurd hl hc
  · exact absurd hl hr

/-- A piece of the reset of an overflowed stream. -/
theorem books_over (h : Books c) {pc : FailPc} (hl : c.x.loop = .over pc) {x' : Inbound}
    (hx : c.x.loopStep = some x') : Books (c.advance .loop x') := by
  have hpast : pastLoss c.x.loop = false := by rw [hl]; rfl
  have hloss : ∀ x', (c.advance .loop x').loss = c.loss := by
    intro x'
    simp only [Call.advance, failing, hl, Loss.note]
  have hframe := h.unregistered_of_frame (by rw [hl]; simp) (by rw [hl]; simp)
  simp only [Inbound.loopStep, hl, Option.map_eq_some_iff] at hx
  obtain ⟨y, hy, rfl⟩ := hx
  cases pc with
  | record =>
      obtain rfl := Option.some.inj hy
      exact h.before hpast (hloss _) rfl (fun hne => ⟨(hframe hne).1, Or.inl (hframe hne).2⟩)
        h.unregistered h.ender
  | close =>
      obtain rfl := Option.some.inj hy
      exact h.before hpast (hloss _) rfl (fun hne => ⟨(hframe hne).1, Or.inl (hframe hne).2⟩)
        h.unregistered h.ender
  | cancel =>
      obtain rfl := Option.some.inj hy
      exact h.before hpast (hloss _) rfl (fun hne => ⟨(hframe hne).1, Or.inr (Or.inr rfl)⟩)
        h.unregistered h.ender

/-- A step of the read loop. -/
theorem books_loop (h : Books c) {x' : Inbound} (hx : c.x.loopStep = some x') :
    Books (c.advance .loop x') := by
  cases hl : c.x.loop with
  | lost closed pc => exact books_lost h hl hx
  | «over» pc => exact books_over h hl hx
  | read => simp [Inbound.loopStep, hl] at hx
  | exited => simp [Inbound.loopStep, hl] at hx
  | signal =>
      have hframe := h.unregistered_of_frame (by rw [hl]; decide) (by rw [hl]; decide)
      simp only [Inbound.loopStep, hl, Option.some.injEq] at hx
      subst hx
      refine h.before (by rw [hl]; rfl) ?_ rfl ?_ h.unregistered h.ender
      · simp only [Call.advance, failing, hl, Loss.note]
      · exact fun hne => ⟨(hframe hne).1, Or.inl (hframe hne).2⟩
  | close =>
      simp only [Inbound.loopStep, hl, Option.some.injEq] at hx
      subst hx
      refine h.before (by rw [hl]; rfl) ?_ rfl ?_ h.unregistered h.ender
      · simp only [Call.advance, failing, hl, Loss.note]
      · exact fun hne => ⟨(h.frame hne).1, Or.inr (Or.inr rfl)⟩
  | remove =>
      simp only [Inbound.loopStep, hl, Option.some.injEq] at hx
      subst hx
      refine h.before (by rw [hl]; rfl) ?_ rfl ?_ (fun _ => rfl) h.ender
      · simp only [Call.advance, failing, hl, Loss.note]
      · exact fun hne => ⟨(h.frame hne).1, Or.inl rfl⟩

/-- A step of the receiver: a terminal frame that it applies was there before the loss. -/
theorem books_recv (h : Books c) (hr : Seen c c.x.recv) {x' : Inbound} (hx : c.x.recvStep = some x') :
    Books (c.advance .recv x') := by
  have hpop : ∀ o : Inbound, view o = view c.x → view (c.x.popOr o) = view c.x := by
    intro o ho
    obtain ⟨-, he⟩ | ⟨f, rest, -, he⟩ := Inbound.popOr_cases c.x o
    · rw [he]
      exact ho
    · rw [he]
      rfl
  unfold Inbound.recvStep at hx
  split at hx
  · cases hx
  · cases hx
  · cases hx
    exact h.congr rfl (hpop _ rfl) Iff.rfl
  · cases hx
    exact h.congr rfl (hpop _ rfl) Iff.rfl
  · cases hx
    exact h.congr rfl (hpop _ rfl) Iff.rfl
  · split at hx
    · cases hx
      exact h.congr rfl rfl Iff.rfl
    · split_ifs at hx
      · cases hx
        exact h.congr rfl rfl Iff.rfl
      · cases hx
        exact h.congr rfl rfl Iff.rfl
  · cases hx
    exact h.congr rfl rfl Iff.rfl
  · rename_i f hpc
    cases hx
    rw [hpc] at hr
    have hframe := hr.2
    exact
      { h with
        stage := fun closed pc hl => by
          obtain ⟨-, hnone, -⟩ := h.stage closed pc hl
          rw [hframe] at hnone
          cases hnone
        recorded := fun hrec => by
          obtain ⟨closed, -, -, hnone⟩ := h.recorded hrec
          rw [hframe] at hnone
          cases hnone
        frame := h.frame }
  · cases hx
    exact h.congr rfl rfl Iff.rfl
  · cases hx
    exact h.congr rfl (by split <;> rfl) Iff.rfl
  · cases hx
    exact h.congr rfl (hpop _ rfl) Iff.rfl
  · rename_i f _
    cases hx
    obtain ⟨p, hp⟩ := c.x.stream.returnCredit_fst f.payload.length
    rw [hp]
    exact h.congr rfl rfl Iff.rfl

end WsProto.Go.ConnLoss
