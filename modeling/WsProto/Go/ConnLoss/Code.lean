import WsProto.Lib.Run
import WsProto.Go.ConnLoss.Books

/-!
# The loss of the connection: the code of its errors

* `code_of_loss_iff` — an error due to the loss has the code of the loss if and only if it
  does not come from `WriteFrame` and `Mux.Close` was not called between the loss and its
  classification;
* `loss_unknown` — a write on a lost connection: `InvokeUnary` fails with Unknown.
-/

namespace WsProto.Go.ConnLoss

open Machine

variable {c c' : Call}

/-! ## The receiver and the sender -/

/-- What the receiver and the sender see of a step of another party: it does not touch the
receiver, records a status only under the mutex, and does not take anything back. -/
structure Aside (x x' : Inbound) (a : InboundAct) : Prop where
  recv : x'.recv = x.recv
  results : x'.results = x.results
  endSt : locks x a = false → x'.stream.endSt = x.stream.endSt
  ended : x.stream.ended = true → x'.stream.ended = true
  endFrame : x.stream.ended = true → x'.stream.endFrame = x.stream.endFrame
  ctxErr : x.stream.ctxErr ≠ none → x'.stream.ctxErr ≠ none

theorem aside_route (x : Inbound) (f : Frame) : Aside x (x.route f) (.route f) := by
  have hsame : Aside x x (.route f) := ⟨rfl, rfl, fun _ => rfl, id, fun _ => rfl, id⟩
  have hterm : Aside x (if x.stream.ended then { x with loop := .remove }
      else { x with stream := { x.stream with endFrame := some f }, loop := .close }) (.route f) := by
    split
    · exact { hsame with }
    · rename_i hne
      exact { hsame with endFrame := fun he => absurd he hne }
  unfold Inbound.route
  split
  · split
    · exact hsame
    · exact { hsame with }
    · split <;> exact { hsame with }
    · unfold Stream.creditSend
      split <;> exact { hsame with }
    · exact hterm
    · exact hterm
    · unfold Inbound.routeMsg
      split
      · exact { hsame with }
      · exact { hsame with }
      · rename_i s hs
        rw [Inbound.deliver_queued hs]
        exact { hsame with }
  · exact hsame

/-- The read loop in `failWith`, after an overflow or when the connection is lost. -/
theorem aside_fail {x : Inbound} {err : GoError} {pc : FailPc} {y : Stream × Option FailPc}
    (hy : pc.step false err x.stream = some y) (hlock : pc = .record → locks x .loop = true)
    (registered : Bool) (loop : LoopPc) :
    Aside x { x with stream := y.1, registered, loop } .loop := by
  have hsame : Aside x x .loop := ⟨rfl, rfl, fun _ => rfl, id, fun _ => rfl, id⟩
  have hcancel : x.stream.cancel.ctxErr ≠ none := by
    rw [Stream.cancel]
    cases x.stream.ctxErr <;> simp
  cases pc with
  | record =>
      obtain rfl := Option.some.inj hy
      refine { hsame with endSt := fun h => ?_ }
      rw [hlock rfl] at h
      cases h
  | close =>
      obtain rfl := Option.some.inj hy
      exact { hsame with ended := fun _ => rfl }
  | cancel =>
      obtain rfl := Option.some.inj hy
      exact { hsame with ctxErr := fun _ => hcancel }

theorem aside_loop {x x' : Inbound} (hx : x.loopStep = some x') : Aside x x' .loop := by
  have hsame : Aside x x .loop := ⟨rfl, rfl, fun _ => rfl, id, fun _ => rfl, id⟩
  cases hl : x.loop with
  | read => simp [Inbound.loopStep, hl] at hx
  | exited => simp [Inbound.loopStep, hl] at hx
  | signal =>
      simp only [Inbound.loopStep, hl, Option.some.injEq] at hx
      subst hx
      exact { hsame with }
  | close =>
      simp only [Inbound.loopStep, hl, Option.some.injEq] at hx
      subst hx
      exact { hsame with ended := fun _ => rfl }
  | remove =>
      simp only [Inbound.loopStep, hl, Option.some.injEq] at hx
      subst hx
      exact { hsame with }
  | «over» pc =>
      simp only [Inbound.loopStep, hl, Option.map_eq_some_iff] at hx
      obtain ⟨⟨s, next⟩, hy, rfl⟩ := hx
      cases next <;> exact aside_fail hy (fun hpc => by simp [locks, hl, hpc]) _ _
  | lost closed pc =>
      simp only [Inbound.loopStep, hl, Option.map_eq_some_iff] at hx
      obtain ⟨⟨s, next⟩, hy, rfl⟩ := hx
      cases next <;> exact aside_fail hy (fun hpc => by simp [locks, hl, hpc]) _ _

theorem note_lost (l : Loss) (s : Stream) (pc : Option FailPc) :
    (l.note s pc).lost = l.lost ∧ (l.note s pc).found = l.found := by
  unfold Loss.note
  split <;> exact ⟨rfl, rfl⟩

/-- The context of a receiver that is about to return its error was not ended by `failAll`. -/
theorem note_cancelled {l : Loss} {s : Stream} (hs : s.ctxErr ≠ none) (hl : l.cancelled = false)
    (pc : Option FailPc) : (l.note s pc).cancelled = false := by
  unfold Loss.note
  split
  · exact hl
  · exact hl
  · rw [hl, Bool.false_or, Option.isNone_eq_false_iff, Option.isSome_iff_ne_none]
    exact hs
  · exact hl

/-- A step of another party. -/
theorem Inv.aside (h : Inv c) {a : InboundAct} {x' : Inbound} (ha : Aside c.x x' a)
    (hlock : c.sender.holds = true → locks c.x a = false) (hb : Books (c.advance a x')) :
    Inv (c.advance a x') where
  books := hb
  seen := by
    have hseen := h.seen
    rw [show (c.advance a x').x.recv = c.x.recv from ha.recv]
    cases hpc : c.x.recv with
    | endedPop =>
        rw [hpc] at hseen
        exact ha.ended hseen
    | endedFrame =>
        rw [hpc] at hseen
        exact ha.ended hseen
    | endedStatus =>
        rw [hpc] at hseen
        exact ha.ended hseen
    | record f =>
        rw [hpc] at hseen
        exact ⟨ha.ended hseen.1, (ha.endFrame hseen.1).trans hseen.2⟩
    | cancel f =>
        rw [hpc] at hseen
        exact ⟨ha.ended hseen.1, (ha.endFrame hseen.1).trans hseen.2⟩
    | ctxEnded e =>
        rw [hpc] at hseen
        exact ha.ctxErr hseen
    | ctxPop e =>
        rw [hpc] at hseen
        exact ⟨ha.ctxErr hseen.1, note_cancelled hseen.1 hseen.2 _⟩
    | _ => trivial
  held hh := (ha.endSt (hlock hh)).trans (h.held hh)
  log o ho := by
    have hlog : (c.advance a x').log = c.log := by
      simp [Call.advance, ha.results]
    rw [hlog] at ho
    obtain ⟨hlost, hfound⟩ := note_lost c.loss c.x.stream (failing c.x a)
    refine (h.log o ho).mono ?_ ?_
    · show c.loss.lost ≠ none → (c.loss.note c.x.stream (failing c.x a)).lost ≠ none
      rw [hlost]
      exact id
    · show ∀ closed, c.loss.found = some closed →
        (c.loss.note c.x.stream (failing c.x a)).found = some closed
      rw [hfound]
      exact fun _ => id

/-- A step of the receiver. -/
theorem Inv.receive (h : Inv c) {a : InboundAct} {x' : Inbound} (hb : Books (c.advance a x'))
    (hfail : failing c.x a = none) (hseen : Seen (c.advance a x') x'.recv)
    (hst : c.sender.holds = true → x'.stream.endSt = c.x.stream.endSt)
    (hres : x'.results = c.x.results ∨
      ∃ r, x'.results = c.x.results ++ [r] ∧ Accounted c (c.received a r)) :
    Inv (c.advance a x') where
  books := hb
  seen := hseen
  held hh := (hst hh).trans (h.held hh)
  log o ho := by
    have hacc : Accounted c o := by
      rcases hres with hres | ⟨r, hres, hr⟩
      · refine h.log o ?_
        simpa [Call.advance, hres] using ho
      · have hlog : (c.advance a x').log = c.log ++ [c.received a r] := by
          simp [Call.advance, hres]
        rw [hlog, List.mem_append, List.mem_singleton] at ho
        rcases ho with ho | rfl
        · exact h.log o ho
        · exact hr
    refine hacc.mono ?_ ?_
    · show c.loss.lost ≠ none → (c.loss.note c.x.stream (failing c.x a)).lost ≠ none
      rw [hfail]
      exact id
    · show ∀ closed, c.loss.found = some closed →
        (c.loss.note c.x.stream (failing c.x a)).found = some closed
      rw [hfail]
      exact fun _ => id

/-- The status a receive returns, if it is due to the loss. -/
theorem Inv.accounted_status (h : Inv c) (hpc : c.x.recv = .endedStatus) :
    Accounted c (c.received .recv (.error (Inbound.statusError c.x.stream.endSt))) := by
  by_cases hr : c.loss.recorded = true
  · obtain ⟨closed, -, hst, -⟩ := h.books.recorded hr
    obtain ⟨st, hst', hcode⟩ := lossStatus_code closed
    have hend : c.x.stream.endSt = some st := hst.trans hst'
    refine h.books.accounted hr rfl ⟨st, hend, ?_⟩
    rw [hend]
    exact congrArg some (if_pos hcode)
  · refine accounted_of_not ?_
    simp only [Call.received, Call.recvLost, hpc]
    simpa using hr

/-- `popRecv`. -/
theorem Inv.popOr (h : Inv c) {o : Inbound} (ho : Inv (c.advance .recv o)) :
    Inv (c.advance .recv (c.x.popOr o)) := by
  obtain ⟨-, he⟩ | ⟨f, rest, -, he⟩ := Inbound.popOr_cases c.x o
  · rw [he]
    exact ho
  · rw [he]
    exact h.receive (h.books.congr rfl rfl Iff.rfl) rfl trivial (fun _ => rfl) (Or.inl rfl)

/-- The receiver moves on. -/
theorem Inv.setRecv (h : Inv c) {a : InboundAct} {pc : RecvPc} (hfail : failing c.x a = none)
    (hseen : Seen c pc) : Inv (c.advance a { c.x with recv := pc }) := by
  have hloss : (c.advance a { c.x with recv := pc }).loss = c.loss := by
    rw [Call.advance, hfail]
    rfl
  refine h.receive (h.books.congr hloss rfl Iff.rfl) hfail ?_ (fun _ => rfl) (Or.inl rfl)
  cases pc with
  | ctxPop e => exact ⟨hseen.1, by rw [hloss]; exact hseen.2⟩
  | _ => exact hseen

/-- A receive returns an error that is not due to the loss, or accounted for. -/
theorem Inv.finish (h : Inv c) {a : InboundAct} {r : Except GoError Payload}
    (hfail : failing c.x a = none) (hacc : Accounted c (c.received a r)) :
    Inv (c.advance a (c.x.finish r)) := by
  have hloss : (c.advance a (c.x.finish r)).loss = c.loss := by
    rw [Call.advance, hfail]
    rfl
  exact h.receive (h.books.congr hloss rfl Iff.rfl) hfail trivial (fun _ => rfl)
    (Or.inr ⟨r, rfl, hacc⟩)

/-- A step of `RecvRawContext`. -/
theorem inv_recv (h : Inv c) (hlock : c.sender.holds = true → locks c.x .recv = false)
    {x' : Inbound} (hx : c.x.recvStep = some x') : Inv (c.advance .recv x') := by
  have hb := books_recv h.books h.seen hx
  have hseen := h.seen
  have hother : ∀ r, c.recvLost .recv = false → Accounted c (c.received .recv r) := by
    intro r hr
    refine accounted_of_not ?_
    cases r with
    | ok b => rfl
    | error e => exact hr
  unfold Inbound.recvStep at hx
  split at hx
  · cases hx
  · cases hx
  · cases hx
    exact h.popOr (h.setRecv rfl trivial)
  · rename_i hpc
    cases hx
    exact h.popOr (h.finish rfl (hother _ (by simp only [Call.recvLost, hpc])))
  · rename_i hpc
    cases hx
    rw [hpc] at hseen
    exact h.popOr (h.setRecv rfl hseen)
  · rename_i hpc
    rw [hpc] at hseen
    split at hx
    · cases hx
      exact h.setRecv rfl hseen
    · rename_i f hf
      split_ifs at hx
      · cases hx
        exact h.setRecv rfl ⟨hseen, hf⟩
      · cases hx
        exact h.finish rfl (hother _ (by simp only [Call.recvLost, hpc]))
  · rename_i hpc
    cases hx
    exact h.finish rfl (h.accounted_status hpc)
  · rename_i f hpc
    cases hx
    rw [hpc] at hseen
    refine h.receive hb rfl hseen (fun hh => ?_) (Or.inl rfl)
    -- `applyEnd` needs the mutex
    have hfree := hlock hh
    simp only [locks, hpc] at hfree
    cases hfree
  · rename_i f hpc
    cases hx
    refine h.receive hb rfl trivial (fun _ => rfl) (Or.inr ⟨_, rfl, hother _ ?_⟩)
    simp only [Call.recvLost, hpc]
  · rename_i e hpc
    cases hx
    rw [hpc] at hseen
    split
    · rename_i hended
      exact h.setRecv rfl hended
    · rename_i hended
      refine h.setRecv rfl ⟨hseen, ?_⟩
      -- a context that `failAll` has cancelled comes after `ended`
      by_contra hc
      exact hended (h.books.cancelled (by simpa using hc)).2
  · rename_i e hpc
    cases hx
    rw [hpc] at hseen
    refine h.popOr (h.finish rfl (hother _ ?_))
    simp only [Call.recvLost, hpc]
    exact hseen.2
  · rename_i f hpc
    cases hx
    obtain ⟨p, hp⟩ := c.x.stream.returnCredit_fst f.payload.length
    rw [hp] at hb ⊢
    refine h.receive hb rfl trivial (fun _ => rfl) (Or.inr ⟨_, rfl, hother _ ?_⟩)
    simp only [Call.recvLost, hpc]

theorem inv_select (h : Inv c) {k : Case} {x' : Inbound} (hx : c.x.selectStep k = some x') :
    Inv (c.advance (.select k) x') := by
  cases k with
  | recvSignal =>
      obtain ⟨-, ⟨⟩⟩ := Option.ite_none_right_eq_some.1 hx
      exact h.receive (h.books.congr rfl rfl Iff.rfl) rfl trivial (fun _ => rfl) (Or.inl rfl)
  | halfClosed =>
      obtain ⟨-, ⟨⟩⟩ := Option.ite_none_right_eq_some.1 hx
      exact h.setRecv rfl trivial
  | ended =>
      obtain ⟨hended, ⟨⟩⟩ := Option.ite_none_right_eq_some.1 hx
      exact h.setRecv rfl hended
  | ctxDone =>
      obtain ⟨e, he, rfl⟩ := Option.map_eq_some_iff.1 hx
      exact h.setRecv rfl (by rw [Seen, he]; simp)
  | callerDone =>
      obtain ⟨e, -, rfl⟩ := Option.map_eq_some_iff.1 hx
      exact h.finish rfl (accounted_of_not rfl)

/-- **One step of the stream.** -/
theorem inv_inbound (h : Inv c) {a : InboundAct} (hen : c.enabled a = true)
    (hlock : c.sender.holds = true → locks c.x a = false) {x' : Inbound}
    (hx : c.x.step a = some x') : Inv (c.advance a x') := by
  cases a with
  | route f =>
      obtain ⟨hr, ⟨⟩⟩ := Option.ite_none_right_eq_some.1 hx
      exact h.aside (aside_route c.x f) hlock (books_route h.books hr)
  | loop => exact h.aside (aside_loop hx) hlock (books_loop h.books hx)
  | connLost closed => cases hen
  | callEnd st => cases hen
  | ender => cases hen
  | expire e =>
      obtain rfl := Option.some.inj hx
      refine h.aside ⟨rfl, rfl, fun _ => rfl, id, fun _ => rfl, fun _ => ?_⟩ hlock
        (h.books.congr rfl rfl Iff.rfl)
      simp [Stream.expire]
  | recvRawContext ctx =>
      obtain ⟨-, ⟨⟩⟩ := Option.ite_none_right_eq_some.1 hx
      exact h.receive (h.books.congr rfl rfl Iff.rfl) rfl trivial (fun _ => rfl) (Or.inl rfl)
  | callerDone e =>
      obtain rfl := Option.some.inj hx
      exact h.aside ⟨rfl, rfl, fun _ => rfl, id, fun _ => rfl, id⟩ hlock
        (h.books.congr rfl rfl Iff.rfl)
  | recv => exact inv_recv h hlock hx
  | select k =>
      obtain ⟨-, hs⟩ := Option.ite_none_right_eq_some.1 hx
      exact inv_select h hs

/-! ## The sender -/

/-- A step of the sender that neither the read loop nor the receiver can see. -/
theorem Inv.sends (h : Inv c) (hview : view c'.x = view c.x) (hrecv : c'.x.recv = c.x.recv)
    (hctx : c'.x.stream.ctxErr = c.x.stream.ctxErr) (hloss : c'.loss = c.loss)
    (hmade : c'.sender = .made ↔ c.sender = .made)
    (hheld : c'.sender.holds = true → c.x.stream.endSt = none)
    (hlog : ∀ o ∈ c'.log, Accounted c o) : Inv c' := by
  have hb := h.books.congr hloss hview hmade
  simp only [view, Prod.mk.injEq] at hview
  obtain ⟨hst, hf, hended, -⟩ := hview
  refine { books := hb, seen := ?_, held := fun hh => hst.trans (hheld hh), log := fun o ho => ?_ }
  · have hseen := h.seen
    rw [hrecv]
    cases hpc : c.x.recv <;> rw [hpc] at hseen <;>
      simp only [Seen, hended, hf, hctx, hloss] at hseen ⊢ <;> exact hseen
  · refine (hlog o ho).mono ?_ ?_
    · rw [hloss]
      exact id
    · rw [hloss]
      exact fun _ => id

/-- The sender's operation returns. -/
theorem Inv.finishSend (h : Inv c) {pc : SendPc} {o : Outcome} (hmade : c.sender ≠ .made)
    (hpc : pc ≠ .made) (hheld : pc.holds = false) (ho : Accounted c o) : Inv (c.finish pc o) := by
  refine h.sends rfl rfl rfl rfl (iff_of_false hpc hmade) ?_ ?_
  · intro hh
    rw [show (c.finish pc o).sender.holds = false from hheld] at hh
    cases hh
  · intro o' ho'
    rcases List.mem_append.1 ho' with ho' | ho'
    · exact h.log o' ho'
    · rw [List.mem_singleton.1 ho']
      exact ho

/-- While the sender holds the mutex, `failAll` has not come to the stream. -/
theorem Inv.untouched (h : Inv c) (hh : c.sender.holds = true) :
    c.loss.ended = false ∧ c.loss.cancelled = false := by
  have hrec : ¬ c.loss.recorded = true := by
    intro hr
    obtain ⟨closed, -, hst, -⟩ := h.books.recorded hr
    obtain ⟨st, hst', -⟩ := lossStatus_code closed
    rw [h.held hh, hst'] at hst
    cases hst
  constructor
  · exact Bool.eq_false_iff.2 fun he => hrec (h.books.ended he)
  · exact Bool.eq_false_iff.2 fun hc => hrec (h.books.cancelled hc).1

/-- A piece of `SendRaw`: a blocked send that is refused returns the recorded status. -/
theorem inv_sendTurn (h : Inv c) (hx : c.sendTurn = some c') : Inv c' := by
  unfold Call.sendTurn at hx
  split at hx
  · rename_i b hpc
    have hmade : c.sender ≠ .made := by rw [hpc]; simp
    split_ifs at hx
    · obtain rfl := Option.some.inj hx
      exact h.sends rfl rfl rfl rfl (iff_of_false (by simp) hmade)
        (fun hh => nomatch hh) h.log
    · split at hx
      · rename_i e he
        obtain rfl := Option.some.inj hx
        refine h.finishSend hmade (by simp) rfl ?_
        by_cases hr : c.loss.recorded = true
        · obtain ⟨st, hst, hste⟩ := h.books.endStErr hr
          refine h.books.accounted hr rfl ⟨st, hst, ?_⟩
          rw [← hste, ← he]
        · exact accounted_of_not (Bool.eq_false_iff.2 hr)
      · rename_i hnone
        obtain rfl := Option.some.inj hx
        refine h.sends rfl rfl rfl rfl (iff_of_false (by simp) hmade)
          (fun _ => ?_) h.log
        exact Option.map_eq_none_iff.1 hnone
  · rename_i b hpc
    have hmade : c.sender ≠ .made := by rw [hpc]; simp
    have hh : c.sender.holds = true := by rw [hpc]; rfl
    split at hx
    · obtain rfl := Option.some.inj hx
      exact h.finishSend hmade (by simp) rfl (accounted_of_not (h.untouched hh).1)
    · obtain rfl := Option.some.inj hx
      exact h.sends rfl rfl rfl rfl (iff_of_false (by simp) hmade)
        (fun _ => h.held hh) h.log
  · rename_i b hpc
    have hmade : c.sender ≠ .made := by rw [hpc]; simp
    have hh : c.sender.holds = true := by rw [hpc]; rfl
    split at hx
    · obtain rfl := Option.some.inj hx
      exact h.finishSend hmade (by simp) rfl (accounted_of_not (h.untouched hh).2)
    · obtain rfl := Option.some.inj hx
      exact h.sends rfl rfl rfl rfl (iff_of_false (by simp) hmade)
        (fun hh => nomatch hh) h.log
  · cases hx

/-- The stream of a failed OPEN is unregistered. -/
theorem Inv.remove (h : Inv c) : Inv { c with x := { c.x with registered := false } } where
  books :=
    { h.books with
      frame := fun hne => ⟨(h.books.frame hne).1, Or.inl rfl⟩
      unregistered := fun _ => rfl }
  seen := by
    have hseen := h.seen
    show Seen _ c.x.recv
    cases hpc : c.x.recv <;> rw [hpc] at hseen <;> exact hseen
  held := h.held
  log := h.log

/-- A write ends. -/
theorem inv_write (h : Inv c) {op : Op} (hw : c.writing = some op) {e : Option GoError}
    (hx : c.writeEnds op e = some c') : Inv c' := by
  have hmade : c.sender ≠ .made := by
    intro hm
    simp [Call.writing, hm] at hw
  unfold Call.writeEnds at hx
  split at hx
  · split_ifs at hx
    obtain rfl := Option.some.inj hx
    exact h.finishSend hmade (by simp) rfl (accounted_of_not rfl)
  · rename_i e
    split_ifs at hx with hraw
    obtain rfl := Option.some.inj hx
    have hacc : Accounted c { op, err := some e, written := true, lost := c.loss.lost.isSome } := by
      intro hlost
      have hlost' : c.loss.lost.isSome = true := hlost
      refine ⟨Option.isSome_iff_ne_none.1 hlost', e, rfl, Or.inl ⟨rfl, ?_⟩⟩
      simpa [hlost'] using hraw
    unfold Call.writeErr
    dsimp only
    split_ifs
    · exact h.remove.finishSend hmade (by simp) rfl hacc
    · exact h.finishSend hmade (by simp) rfl hacc

/-! ## The connection -/

/-- `failAll` begins. -/
theorem inv_disconnect (h : Inv c) (hlost : c.loss.lost.isSome = true) {x' : Inbound}
    (hx : c.x.step (.connLost c.loss.closedFlag) = some x') :
    Inv { c with x := x', loss := { c.loss with found := some c.loss.closedFlag } } := by
  obtain ⟨hr, ⟨⟩⟩ := Option.ite_none_right_eq_some.1 hx
  obtain ⟨hfound, hrec, hcan⟩ := h.books.early (by rw [hr]; rfl)
  have hunreg := h.books.unregistered_of_frame (by rw [hr]; decide) (by rw [hr]; decide)
  refine { books := ?_, seen := ?_, held := h.held, log := fun o ho => ?_ }
  · refine
      { h.books with
        found := fun hf => ?_
        classified := fun _ => Option.isSome_iff_ne_none.1 hlost
        loop := ?_
        stage := fun closed pc hl => ?_
        recorded := fun hc => ?_
        cancelled := fun hc => ?_
        frame := fun hne => ⟨(hunreg hne).1, Or.inl (hunreg hne).2⟩ }
    · obtain ⟨d, hd⟩ := Option.isSome_iff_exists.1 hlost
      cases d with
      | false => exact hd
      | true =>
          have hflag := h.books.deliberate hd
          rw [Option.some.inj hf] at hflag
          cases hflag
    · show pastLoss (if c.x.registered = true then _ else _) = true
      split <;> rfl
    · have hl' : (if c.x.registered = true then LoopPc.lost c.loss.closedFlag .record
          else .exited) = .lost closed pc := hl
      split_ifs at hl' with hreg
      cases hl'
      exact ⟨rfl, h.books.endFrame_eq_none hr hreg, fun hne => absurd rfl hne, fun hc => nomatch hc⟩
    · rw [show c.loss.recorded = true from hc] at hrec
      cases hrec
    · rw [show c.loss.cancelled = true from hc] at hcan
      cases hcan
  · have hseen := h.seen
    show Seen _ c.x.recv
    cases hpc : c.x.recv <;> rw [hpc] at hseen <;> exact hseen
  · refine (h.log o ho).mono id fun closed hc => ?_
    rw [hfound] at hc
    cases hc

/-- The connection changes, and the stream does not. -/
theorem Inv.setLoss (h : Inv c) {l : Loss} (hb : Books { c with loss := l })
    (hlost : c.loss.lost ≠ none → l.lost ≠ none) (hfound : l.found = c.loss.found)
    (hcan : l.cancelled = c.loss.cancelled) : Inv { c with loss := l } where
  books := hb
  seen := by
    have hseen := h.seen
    show Seen _ c.x.recv
    cases hpc : c.x.recv with
    | ctxPop e =>
        rw [hpc] at hseen
        exact ⟨hseen.1, hcan.trans hseen.2⟩
    | _ =>
        rw [hpc] at hseen
        exact hseen
  held := h.held
  log o ho := (h.log o ho).mono hlost fun _ hc => hfound.trans hc

theorem inv_lose (h : Inv c) :
    Inv { c with loss := { c.loss with lost := c.loss.lost.or (some c.loss.closedFlag) } } := by
  refine h.setLoss ?_ (fun _ => by simp) rfl rfl
  cases hl : c.loss.lost with
  | none =>
      refine
        { h.books with
          deliberate := fun hd => Option.some.inj hd
          found := fun hf => ?_
          classified := fun _ => by simp }
      have hlost := h.books.found hf
      rw [hl] at hlost
      cases hlost
  | some d =>
      have hsame : (some d).or (some c.loss.closedFlag) = c.loss.lost := hl.symm
      exact h.books.congr (by rw [hsame]) rfl Iff.rfl

theorem inv_close (h : Inv c) : Inv { c with loss := { c.loss with closedFlag := true } } :=
  h.setLoss { h.books with deliberate := fun _ => rfl } id rfl rfl

/-- The stream is registered. -/
theorem inv_register (h : Inv c) (hmade : c.sender = .made) :
    Inv { c with x := { c.x with registered := true }, sender := .opening } where
  books :=
    { h.books with
      frame := fun hne => absurd hmade (h.books.frame hne).1
      unregistered := fun hm => nomatch hm }
  seen := by
    have hseen := h.seen
    show Seen _ c.x.recv
    cases hpc : c.x.recv <;> rw [hpc] at hseen <;> exact hseen
  held hh := nomatch hh
  log := h.log

/-- **One step** keeps the errors accounted for. -/
theorem inv_step {a : Act} (h : Inv c) (hx : c.step a = some c') : Inv c' := by
  cases a with
  | close =>
      obtain rfl := Option.some.inj hx
      exact inv_close h
  | lose =>
      obtain rfl := Option.some.inj hx
      exact inv_lose h
  | disconnect =>
      rw [Call.step] at hx
      split_ifs at hx with hlost
      obtain ⟨x', hx', rfl⟩ := Option.map_eq_some_iff.1 hx
      exact inv_disconnect h hlost hx'
  | inbound a =>
      rw [Call.step] at hx
      split_ifs at hx with hcond
      obtain ⟨x', hx', rfl⟩ := Option.map_eq_some_iff.1 hx
      rw [Bool.and_eq_true, Bool.not_eq_true', Bool.and_eq_false_iff] at hcond
      refine inv_inbound h hcond.1 (fun hh => ?_) hx'
      exact hcond.2.resolve_left (by rw [hh]; decide)
  | register =>
      rw [Call.step] at hx
      split_ifs at hx with hmade
      obtain rfl := Option.some.inj hx
      exact inv_register h hmade
  | send b =>
      rw [Call.step] at hx
      split_ifs at hx with hpc
      obtain rfl := Option.some.inj hx
      exact h.sends rfl rfl rfl rfl (iff_of_false (by simp) (by rw [hpc]; simp))
        (fun hh => nomatch hh) h.log
  | sendTurn => exact inv_sendTurn h hx
  | wake =>
      simp only [Call.step] at hx
      split at hx
      · rename_i b hpc
        obtain rfl := Option.some.inj hx
        exact h.sends rfl rfl rfl rfl (iff_of_false (by simp) (by rw [hpc]; simp))
          (fun hh => nomatch hh) h.log
      · cases hx
  | closeSend =>
      rw [Call.step] at hx
      split_ifs at hx with hpc
      have hmade : c.sender ≠ .made := by rw [hpc]; simp
      split at hx
      · obtain rfl := Option.some.inj hx
        exact h.finishSend hmade (by simp) rfl (accounted_of_not rfl)
      · rename_i s f hs
        obtain rfl := Option.some.inj hx
        unfold Stream.closeSend at hs
        split_ifs at hs
        cases hs
        exact h.sends rfl rfl rfl rfl (iff_of_false (by simp) hmade) (fun hh => nomatch hh) h.log
  | write e =>
      obtain ⟨op, hop, hx⟩ := Option.bind_eq_some_iff.1 hx
      exact inv_write h hop hx

/-! ## The code of the loss -/

/-- The code of a loss: Canceled after a deliberate `Mux.Close`, else Unavailable. -/
def lossCode (deliberate : Bool) : Code := if deliberate then Code.canceled else Code.unavailable

/-- `FromError` of the error has the code of the loss. -/
def Classed (c : Call) (o : Outcome) : Prop :=
  (o.err.bind fun e => fromError (some e)).map Status.code = c.loss.lost.map lossCode

theorem fromError_raw {e : GoError} (h : raw e = true) :
    (fromError (some e)).map Status.code = some Code.unknown := by
  cases e with
  | eof => rfl
  | ctx e => rfl
  | other text => rfl
  | status st => cases h
  | nilStatus => cases h
  | grpc st => cases h

theorem fromError_connLostErr_code (closed : Bool) :
    (fromError (some (connLostErr closed))).map Status.code = some (lossCode closed) := by
  cases closed <;> rfl

theorem lossCode_injective : Function.Injective lossCode := by decide

/-- An error due to the loss has its code if and only if `WriteFrame` has not returned it and
the loss was classified as what it was. -/
theorem Inv.classed_iff (h : Inv c) {o : Outcome} (ho : o ∈ c.log) (hlost : o.lost = true) :
    Classed c o ↔ o.written = false ∧ c.loss.found = c.loss.lost := by
  obtain ⟨hl, e, he, ⟨hw, hraw⟩ | ⟨hw, closed, hfound, rfl⟩⟩ := h.log o ho hlost
  · obtain ⟨d, hd⟩ := Option.ne_none_iff_exists'.1 hl
    rw [Classed, he, Option.bind_some, fromError_raw hraw, hd, hw]
    simp only [Option.map_some, Option.some.injEq, Bool.true_eq_false, false_and, iff_false]
    cases d <;> decide
  · obtain ⟨d, hd⟩ := Option.ne_none_iff_exists'.1 hl
    rw [Classed, he, Option.bind_some, fromError_connLostErr_code, hd, hfound, Option.map_some,
      Option.some.injEq, Option.some.injEq, lossCode_injective.eq_iff]
    exact ⟨fun h => ⟨hw, h⟩, fun h => h.2⟩

theorem mem_of_invokeUnary {log : List Outcome} {o : Outcome} (h : invokeUnary log = some o) :
    o ∈ log := by
  unfold invokeUnary at h
  rcases Option.or_eq_some_iff.1 h with h | ⟨-, h⟩
  · exact List.mem_of_mem_take (List.mem_of_find?_eq_some h)
  · have hhead := (Option.filter_eq_some_iff.1 h).1
    exact List.mem_of_mem_drop (List.mem_of_mem_head? hhead)

/-- **The class of a lost connection.**  In every run, an error that an operation of the call,
or `InvokeUnary`, returns because of the loss has the code of the loss if and only if it does
not come from `WriteFrame` and `Mux.Close` was not called between the loss and its
classification by `disconnectErr`. -/
theorem code_of_loss_iff (ctxErr : Option CtxErr) (id : UInt32) (method : Text) (W : ℤ)
    (h : Reach Call.step Always (Call.start ctxErr id method W) c) :
    (∀ o ∈ c.log, o.lost = true →
      (Classed c o ↔ o.written = false ∧ c.loss.found = c.loss.lost)) ∧
    ∀ o, invokeUnary c.log = some o → o.lost = true →
      (Classed c o ↔ o.written = false ∧ c.loss.found = c.loss.lost) := by
  have hinv : Inv c := by
    refine h.invariant (P := Inv) (inv_start ctxErr id method W) ?_
    intro c a c' hc _ hx
    exact inv_step hc hx
  refine ⟨fun o ho hlost => hinv.classed_iff ho hlost, fun o ho hlost => ?_⟩
  exact hinv.classed_iff (mem_of_invokeUnary ho) hlost

/-- A request is sent, and the connection is lost while `InvokeUnary` waits for the response:
Unavailable. -/
theorem code_of_loss_iff_waiting :
    ∃ c, Reach Call.step Always (Call.start none 1 .empty 0) c ∧
      ∃ o, invokeUnary c.log = some o ∧ o.lost = true ∧ Classed c o := by
  obtain ⟨c, hc, hp⟩ := exists_reach_of_exec Call.step Always (Call.start none 1 .empty 0)
    (fun c : Call => decide (c.loss.found = c.loss.lost ∧ ∃ o ∈ invokeUnary c.log,
      o.lost = true ∧ o.written = false))
    [.register, .write none, .send [7], .sendTurn, .write none, .closeSend, .write none,
      .inbound (.recvRawContext none), .inbound .recv, .lose, .disconnect, .inbound .loop,
      .inbound .loop, .inbound .loop, .inbound (.select .ended), .inbound .recv, .inbound .recv,
      .inbound .recv] (by decide)
  obtain ⟨hfound, o, ho, hlost, hw⟩ := of_decide_eq_true hp
  exact ⟨c, hc, o, ho, hlost, ((code_of_loss_iff none 1 .empty 0 hc).2 o ho hlost).2 ⟨hw, hfound⟩⟩

/-- **A write on a lost connection.**  The connection is lost after OPEN; the write of the
request fails, and `InvokeUnary` returns an error that is neither Unavailable nor Canceled. -/
theorem loss_unknown :
    ∃ c, Reach Call.step Always (Call.start none 1 .empty 0) c ∧
      ∃ o, invokeUnary c.log = some o ∧ o.lost = true ∧ c.loss.lost = some false ∧
        (o.err.bind fun e => fromError (some e)).map Status.code = some Code.unknown := by
  obtain ⟨c, hc, hp⟩ := exists_reach_of_exec Call.step Always (Call.start none 1 .empty 0)
    (fun c : Call => decide (∃ o ∈ invokeUnary c.log, o.lost = true ∧ c.loss.lost = some false ∧
      (o.err.bind fun e => fromError (some e)).map Status.code = some Code.unknown))
    [.register, .write none, .lose, .send [7], .sendTurn,
      .write (some (.other "broken pipe".toUTF8))] (by decide)
  obtain ⟨o, ho, hrest⟩ := of_decide_eq_true hp
  exact ⟨c, hc, o, ho, hrest⟩

end WsProto.Go.ConnLoss
