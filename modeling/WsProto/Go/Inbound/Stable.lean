import WsProto.Go.Inbound.Exact

/-!
# The inbound half of a Go stream: is the end final?

A receive that finds no message answers from the half-close, from what ended the
stream, or from the context, whichever its `select` picks.  Each of them is
written by other parties, at different times: `signalEnd` keeps the first frame,
`failWith` writes its status over whatever is there.

* `View.verdicts` — the answers a stream holds ready;
* `brings` — the answer a step adds, or puts in the place of another;
* `Reported.EndsOnce` — the runs in which a stream ends once: what may still be recorded,
  routed or closed once a terminal result is being reported;
* `outcome_stable` — in those runs every receive after the first terminal result
  returns that result;
* `status_replaced` — a handler that returns OK after an overflow turns
  ResourceExhausted into `io.EOF`.
-/

namespace WsProto.Go.Inbound

open Machine

variable {x x' : Inbound}

/-! ## The answers a stream holds ready -/

/-- What `RecvRawContext` reads of a stream, the backlog apart. -/
structure View where
  halfClosed : Bool
  ended : Bool
  endFrame : Option Frame
  endSt : Option Status
  ctxErr : Option CtxErr
  deriving DecidableEq

/-- What a receive sees of a stream. -/
def View.of (s : Stream) : View := ⟨s.halfClosed, s.ended, s.endFrame, s.endSt, s.ctxErr⟩

namespace View

variable {v v' : View} {vs : List GoError}

/-- What `recvEnded` returns. -/
def endedError (v : View) : GoError :=
  match v.endFrame with
  | some f => endError f
  | none => statusError v.endSt

/-- The terminal results that some case of the `select` would return now. -/
def verdicts (v : View) : List GoError :=
  (if v.halfClosed then [.eof] else []) ++
    (if v.ended then [v.endedError] else v.ctxErr.toList.map .ctx)

theorem eof_mem (h : v.halfClosed = true) : .eof ∈ v.verdicts := by simp [verdicts, h]

theorem endedError_mem (h : v.ended = true) : v.endedError ∈ v.verdicts := by simp [verdicts, h]

theorem ctx_mem {e : CtxErr} (h : v.ended = false) (he : v.ctxErr = some e) :
    .ctx e ∈ v.verdicts := by simp [verdicts, h, he]

/-- What a step of another party may do to the end of a stream, with the answers
it brings. -/
inductive Event (v : View) : View → List GoError → Prop
  | quiet (vs : List GoError) : Event v v vs
  | halfClose : Event v { v with halfClosed := true } [.eof]
  | frame (f : Frame) (vs : List GoError) (h : v.ended = false) :
      Event v { v with endFrame := some f } vs
  | close (vs : List GoError) (h : v.ended = false → v.endedError ∈ vs) :
      Event v { v with ended := true } vs
  | status (st : Option Status) (vs : List GoError)
      (h : v.ended = true → v.endFrame = none → statusError st ∈ vs) :
      Event v { v with endSt := st } vs
  | ctx (e : CtxErr) (vs : List GoError) (h : v.ended = false → v.ctxErr = none → .ctx e ∈ vs) :
      Event v { v with ctxErr := v.ctxErr.or (some e) } vs

/-- An answer was there, or the step brought it. -/
theorem Event.mem_verdicts (h : Event v v' vs) {u : GoError} (hu : u ∈ v'.verdicts) :
    u ∈ v.verdicts ∨ u ∈ vs := by
  cases h with
  | quiet => exact Or.inl hu
  | halfClose =>
      rcases (by simpa [verdicts, endedError] using hu :
        u = .eof ∨ u ∈ (if v.ended then [v.endedError] else v.ctxErr.toList.map .ctx)) with rfl | h
      · exact Or.inr (List.mem_singleton_self _)
      · exact Or.inl (List.mem_append_right _ h)
  | frame f _ he => left; simpa [verdicts, he] using hu
  | close _ hb =>
      rcases (by simpa [verdicts, endedError] using hu :
        (v.halfClosed = true ∧ u = .eof) ∨ u = v.endedError) with ⟨h, rfl⟩ | rfl
      · exact Or.inl (eof_mem h)
      · cases he : v.ended with
        | false => exact Or.inr (hb he)
        | true => exact Or.inl (endedError_mem he)
  | status st _ hb =>
      cases he : v.ended with
      | false => left; simpa [verdicts, he] using hu
      | true =>
          cases hf : v.endFrame with
          | some f => left; simpa [verdicts, endedError, he, hf] using hu
          | none =>
              rcases (by simpa [verdicts, endedError, he, hf] using hu :
                (v.halfClosed = true ∧ u = .eof) ∨ u = statusError st) with ⟨h, rfl⟩ | rfl
              · exact Or.inl (eof_mem h)
              · exact Or.inr (hb he hf)
  | ctx e _ hb =>
      cases he : v.ended with
      | true => left; simpa [verdicts, endedError, he] using hu
      | false =>
          cases hc : v.ctxErr with
          | some e' => left; simpa [verdicts, he, hc] using hu
          | none =>
              rcases (by simpa [verdicts, he, hc] using hu :
                (v.halfClosed = true ∧ u = .eof) ∨ u = .ctx e) with ⟨h, rfl⟩ | rfl
              · exact Or.inl (eof_mem h)
              · exact Or.inr (hb he hc)

theorem verdicts_ne_nil : v.verdicts ≠ [] ↔
    v.halfClosed = true ∨ v.ended = true ∨ v.ctxErr ≠ none := by
  cases hh : v.halfClosed <;> cases he : v.ended <;> cases hc : v.ctxErr <;>
    simp [verdicts, hh, he, hc]

/-- A stream that has an answer keeps having one. -/
theorem Event.verdicts_ne_nil (h : Event v v' vs) (hne : v.verdicts ≠ []) : v'.verdicts ≠ [] := by
  rw [View.verdicts_ne_nil] at hne ⊢
  cases h <;> simp_all

/-- What the receiver relies on once it has left its `select`. -/
def Placed (v : View) : RecvPc → Prop
  | .halfPop => v.halfClosed = true
  | .endedPop | .endedFrame => v.ended = true
  | .endedStatus => v.ended = true ∧ v.endFrame = none
  | .record f | .cancel f => v.ended = true ∧ v.endFrame = some f
  | .ctxEnded e | .ctxPop e => v.ctxErr = some e
  | _ => True

theorem Event.placed (h : Event v v' vs) {pc : RecvPc} (hp : v.Placed pc) : v'.Placed pc := by
  cases h <;> cases pc <;> simp_all [Placed]

theorem Event.ended (h : Event v v' vs) (he : v.ended = true) : v'.ended = true := by
  cases h <;> simp_all

end View

/-! ## What the steps bring -/

/-- The answer that a piece of `failWith` brings. -/
def failBrings (v : View) (err : GoError) : FailPc → List GoError
  | .record => if v.ended && v.endFrame.isNone then [statusError (fromError (some err))] else []
  | .close => if v.ended then [] else [v.endedError]
  | .cancel => []

/-- The answer that a step of another party brings. -/
def brings (x : Inbound) : InboundAct → List GoError
  | .route f => if x.registered && decide (f.kind = .kindHalfClose) then [.eof] else []
  | .loop =>
      match x.loop with
      | .close => if x.stream.ended then [] else [(View.of x.stream).endedError]
      | .over pc => failBrings (.of x.stream) overflowErr pc
      | .lost closed pc => failBrings (.of x.stream) (connLostErr closed) pc
      | _ => []
  | .ender =>
      match x.ender with
      | .fail st pc => failBrings (.of x.stream) (.status st) pc
      | _ => []
  | .expire e => if x.stream.ended || x.stream.ctxErr.isSome then [] else [.ctx e]
  | _ => []

/-- The read loop is about to cancel the context of a stream it has failed. -/
def loopCancels : LoopPc → Bool
  | .over .cancel | .lost _ .cancel => true
  | _ => false

/-- The local end is about to cancel the context. -/
def enderCancels : EndPc → Bool
  | .fail _ .cancel => true
  | _ => false

/-- How the parties stand to the stream. -/
structure Sound (x : Inbound) : Prop where
  loop : loopCancels x.loop = true → x.stream.ended = true
  ender : enderCancels x.ender = true → x.stream.ended = true
  frame : ∀ f, x.stream.endFrame = some f → f.kind = .kindEnd ∨ f.kind = .kindRst
  recv : (View.of x.stream).Placed x.recv

theorem sound_start (server : Bool) (ctxErr : Option CtxErr) (id : UInt32) (method : Text)
    (W : ℤ) : Sound (start server ctxErr id method W) := by
  constructor <;> simp [start, newStream, loopCancels, enderCancels, View.Placed]

theorem failStep_event {busy : Bool} {err : GoError} {s : Stream} {pc : FailPc}
    {y : Stream × Option FailPc} (h : pc.step busy err s = some y)
    (hc : pc = .cancel → s.ended = true) :
    View.Event (.of s) (.of y.1) (failBrings (.of s) err pc) := by
  obtain ⟨rfl, rfl⟩ | ⟨rfl, -, rfl⟩ | ⟨rfl, rfl⟩ := failStep_cases h
  · refine .status _ _ fun he hf => ?_
    simp [failBrings, he, hf, Stream.setEndSt]
  · refine .close _ fun he => ?_
    simp [failBrings, he]
  · refine .ctx _ _ fun he => ?_
    simp [View.of, hc rfl] at he

/-- What a step of another party does: its event, and where it leaves that party. -/
structure Turn (x x' : Inbound) (vs : List GoError) : Prop where
  event : View.Event (.of x.stream) (.of x'.stream) vs
  loop : loopCancels x'.loop = true → loopCancels x.loop = true ∨ x'.stream.ended = true
  ender : enderCancels x'.ender = true → enderCancels x.ender = true ∨ x'.stream.ended = true
  frame : ∀ f, x'.stream.endFrame = some f →
    x.stream.endFrame = some f ∨ f.kind = .kindEnd ∨ f.kind = .kindRst

/-- A step that touches nothing a receive reads of the end. -/
theorem Turn.quiet {vs : List GoError} (hview : View.of x'.stream = View.of x.stream)
    (hloop : loopCancels x'.loop = true → loopCancels x.loop = true)
    (hender : x'.ender = x.ender ∨ enderCancels x'.ender = false) : Turn x x' vs where
  event := hview ▸ .quiet vs
  loop h := Or.inl (hloop h)
  ender h := hender.elim (fun he => Or.inl (he ▸ h)) fun he => by simp [he] at h
  frame f hf := Or.inl (by simpa [View.of, hf] using (congrArg View.endFrame hview).symm)

theorem Sound.turn (hi : Sound x) {vs : List GoError} (ht : Turn x x' vs)
    (hrecv : x'.recv = x.recv) : Sound x' where
  loop h := (ht.loop h).elim (fun hl => ht.event.ended (hi.loop hl)) id
  ender h := (ht.ender h).elim (fun he => ht.event.ended (hi.ender he)) id
  frame f hf := (ht.frame f hf).elim (hi.frame f) id
  recv := hrecv ▸ ht.event.placed hi.recv

/-- A piece of `failWith`: the frame stays as it was, and `ended` is closed before
the context is cancelled. -/
theorem Turn.fail {busy : Bool} {err : GoError} {pc : FailPc} {y : Stream × Option FailPc}
    (hy : pc.step busy err x.stream = some y) (hc : pc = .cancel → x.stream.ended = true)
    (hs : x'.stream = y.1)
    (hloop : loopCancels x'.loop = true → loopCancels x.loop = true ∨ y.2 = some .cancel)
    (hender : enderCancels x'.ender = true → enderCancels x.ender = true ∨ y.2 = some .cancel) :
    Turn x x' (failBrings (.of x.stream) err pc) := by
  have hleaves : y.1.endFrame = x.stream.endFrame ∧ (y.2 = some .cancel → y.1.ended = true) := by
    obtain ⟨-, rfl⟩ | ⟨-, -, rfl⟩ | ⟨-, rfl⟩ := failStep_cases hy
    · exact ⟨rfl, nofun⟩
    · exact ⟨rfl, fun _ => rfl⟩
    · exact ⟨rfl, nofun⟩
  have hended : y.2 = some .cancel → x'.stream.ended = true := fun h => hs ▸ hleaves.2 h
  refine ⟨?_, fun h => (hloop h).imp_right hended, fun h => (hender h).imp_right hended, ?_⟩
  · rw [hs]; exact failStep_event hy hc
  · intro f hf
    left
    rw [← hleaves.1, ← hs]
    exact hf

theorem turn_routeMsg (f : Frame) (vs : List GoError) : Turn x (x.routeMsg f) vs := by
  unfold routeMsg
  cases hd : x.stream.deliver f with
  | dropped => exact .quiet rfl id (.inl rfl)
  | «over» => exact .quiet rfl nofun (.inl rfl)
  | queued s =>
      obtain rfl := deliver_queued hd
      exact .quiet rfl nofun (.inl rfl)

theorem turn_route (f : Frame) : Turn x (x.route f) (x.brings (.route f)) := by
  cases hreg : x.registered with
  | false =>
      simp only [route, hreg]
      exact .quiet rfl id (.inl rfl)
  | true =>
      cases hk : f.kind with
      | kindOpen =>
          simp only [route, hreg, hk, if_true]
          exact .quiet rfl id (.inl rfl)
      | kindHalfClose =>
          simp only [route, brings, hreg, hk, if_true]
          exact ⟨.halfClose, Or.inl, Or.inl, fun _ => Or.inl⟩
      | kindHeader =>
          simp only [route, hreg, hk, if_true]
          cases x.server <;> exact .quiet rfl id (.inl rfl)
      | kindWindowUpdate =>
          simp only [route, hreg, hk, if_true, Stream.creditSend]
          split <;> exact .quiet rfl id (.inl rfl)
      | kindEnd | kindRst =>
          simp only [route, hreg, hk, if_true]
          split
          · exact .quiet rfl (fun h => by cases h) (.inl rfl)
          · -- `endOne` is taken for this frame
            rename_i he
            refine ⟨.frame f _ (by simpa [View.of] using he), (fun h => by cases h), Or.inl, ?_⟩
            intro g hg
            obtain rfl : f = g := by simpa using hg
            simp [hk]
      | _ =>
          have hmsg : x.route f = x.routeMsg f := by simp [route, hreg, hk]
          rw [hmsg]
          exact turn_routeMsg f _

theorem turn_loop (hi : Sound x) (h : x.loopStep = some x') : Turn x x' (x.brings .loop) := by
  unfold loopStep at h
  split at h
  · cases h
  · cases h
  · cases h
    exact .quiet rfl nofun (.inl rfl)
  · rename_i hpc
    cases h
    refine ⟨.close _ fun he => ?_, nofun, Or.inl, fun _ => Or.inl⟩
    have he' : x.stream.ended = false := he
    simp [brings, hpc, he']
  · cases h
    exact .quiet rfl nofun (.inl rfl)
  · rename_i pc hpc
    obtain ⟨y, hy, rfl⟩ := Option.map_eq_some_iff.1 h
    have hc : pc = .cancel → x.stream.ended = true := fun hc =>
      hi.loop (by simp [hpc, hc, loopCancels])
    have hbr : x.brings .loop = failBrings (.of x.stream) overflowErr pc := by simp [brings, hpc]
    rw [hbr]
    cases hnext : y.2 with
    | none => exact .fail hy hc rfl nofun Or.inl
    | some pc' =>
        refine .fail hy hc rfl (fun hl => Or.inr ?_) Or.inl
        cases pc' <;> simp_all [loopCancels]
  · rename_i closed pc hpc
    obtain ⟨y, hy, rfl⟩ := Option.map_eq_some_iff.1 h
    have hc : pc = .cancel → x.stream.ended = true := fun hc =>
      hi.loop (by simp [hpc, hc, loopCancels])
    have hbr : x.brings .loop = failBrings (.of x.stream) (connLostErr closed) pc := by
      simp [brings, hpc]
    rw [hbr]
    cases hnext : y.2 with
    | none => exact .fail hy hc rfl nofun Or.inl
    | some pc' =>
        refine .fail hy hc rfl (fun hl => Or.inr ?_) Or.inl
        cases pc' <;> simp_all [loopCancels]

theorem turn_ender (hi : Sound x) (h : x.enderStep = some x') : Turn x x' (x.brings .ender) := by
  unfold enderStep at h
  split at h
  · cases h
  · cases h
  · rename_i st pc hpc
    obtain ⟨y, hy, rfl⟩ := Option.map_eq_some_iff.1 h
    have hc : pc = .cancel → x.stream.ended = true := fun hc =>
      hi.ender (by simp [hpc, hc, enderCancels])
    have hbr : x.brings .ender = failBrings (.of x.stream) (.status st) pc := by
      simp [brings, hpc]
    rw [hbr]
    cases hnext : y.2 with
    | none => exact .fail hy hc rfl Or.inl nofun
    | some pc' =>
        refine .fail hy hc rfl Or.inl fun hl => Or.inr ?_
        cases pc' <;> simp_all [enderCancels]
  · cases h
    exact .quiet rfl id (.inr rfl)

/-- **What the others do to the end of a stream.** -/
theorem turn_of_step (hi : Sound x) {a : InboundAct} (ha : byReceiver a = false)
    (h : x.step a = some x') : Turn x x' (x.brings a) := by
  cases a with
  | route f =>
      obtain ⟨-, ⟨⟩⟩ := Option.ite_none_right_eq_some.1 h
      exact turn_route f
  | loop => exact turn_loop hi h
  | connLost closed =>
      obtain ⟨-, ⟨⟩⟩ := Option.ite_none_right_eq_some.1 h
      exact .quiet rfl (by dsimp only; split <;> simp [loopCancels]) (.inl rfl)
  | callEnd st =>
      obtain ⟨-, ⟨⟩⟩ := Option.ite_none_right_eq_some.1 h
      exact .quiet rfl id (.inr rfl)
  | ender => exact turn_ender hi h
  | expire e =>
      cases h
      refine ⟨.ctx e _ fun he hc => ?_, Or.inl, Or.inl, fun _ => Or.inl⟩
      have he' : x.stream.ended = false := he
      have hc' : x.stream.ctxErr = none := hc
      simp [brings, he', hc']
  | callerDone e => cases h; exact .quiet rfl id (.inl rfl)
  | recvRawContext ctx => cases ha
  | recv => cases ha
  | select c => cases ha

/-! ## What the receiver does -/

/-- The receiver has taken a terminal case of its `select`. -/
def deciding : RecvPc → Bool
  | .idle | .pop | .select | .deliver _ => false
  | _ => true

/-- What a step of the receiver does to the end of the stream: nothing a receive
would notice; and what it returns is one of the answers. -/
structure OwnTurn (x x' : Inbound) : Prop where
  event : View.Event (.of x.stream) (.of x'.stream) []
  placed : (View.of x'.stream).Placed x'.recv
  loop : x'.loop = x.loop
  ender : x'.ender = x.ender
  frame : x'.stream.endFrame = x.stream.endFrame
  deciding : deciding x'.recv = true → deciding x.recv = true
  answer : ∀ e, x'.results = x.results ++ [.error e] → Inbound.deciding x.recv = true ∧
    (e ∈ (View.of x.stream).verdicts ∨ ∃ e', x.recv = .ctxPop e' ∧ e = .ctx e')
  ctxPop : ∀ e, x'.recv = .ctxPop e → .ctx e ∈ (View.of x.stream).verdicts

theorem OwnTurn.sound (hi : Sound x) (ht : OwnTurn x x') : Sound x' where
  loop h := ht.event.ended (hi.loop (ht.loop ▸ h))
  ender h := ht.event.ended (hi.ender (ht.ender ▸ h))
  frame f hf := hi.frame f (ht.frame ▸ hf)
  recv := ht.placed

/-- The receiver goes on to another place. -/
theorem OwnTurn.go {pc : RecvPc} (hp : (View.of x.stream).Placed pc)
    (hd : Inbound.deciding pc = true → Inbound.deciding x.recv = true)
    (hc : ∀ e, pc = .ctxPop e → .ctx e ∈ (View.of x.stream).verdicts) :
    OwnTurn x { x with recv := pc } where
  event := .quiet []
  placed := hp
  loop := rfl
  ender := rfl
  frame := rfl
  deciding := hd
  answer e h := by simp at h
  ctxPop := hc

/-- The receiver returns an error. -/
theorem OwnTurn.finish {s : Stream} {e : GoError} (hev : View.Event (.of x.stream) (.of s) [])
    (hframe : s.endFrame = x.stream.endFrame) (hd : Inbound.deciding x.recv = true)
    (he : e ∈ (View.of x.stream).verdicts ∨ ∃ e', x.recv = .ctxPop e' ∧ e = .ctx e') :
    OwnTurn x ({ x with stream := s }.finish (.error e)) where
  event := hev
  placed := by trivial
  loop := rfl
  ender := rfl
  frame := hframe
  deciding := nofun
  answer e' h := by
    obtain rfl : e = e' := by simpa [Inbound.finish] using h
    exact ⟨hd, he⟩
  ctxPop := nofun

theorem OwnTurn.popOr {o : Inbound} (ho : x.stream.recvItems = [] → OwnTurn x o) :
    OwnTurn x (x.popOr o) := by
  obtain ⟨hnil, he⟩ | ⟨f, rest, -, he⟩ := popOr_cases x o
  · rw [he]; exact ho hnil
  · rw [he]
    exact ⟨.quiet [], trivial, rfl, rfl, rfl, nofun, fun e h => by simp at h, nofun⟩

theorem ownTurn_recv (hi : Sound x) (h : x.recvStep = some x') : OwnTurn x x' := by
  have hplaced := hi.recv
  unfold recvStep at h
  split at h
  · cases h
  · cases h
  · cases h
    exact .popOr fun _ => .go (by trivial) nofun nofun
  · rename_i hpc
    rw [hpc] at hplaced
    cases h
    exact .popOr fun _ =>
      .finish (.quiet []) rfl (by simp [hpc, deciding]) (.inl (View.eof_mem hplaced))
  · rename_i hpc
    rw [hpc] at hplaced
    cases h
    exact .popOr fun _ => .go hplaced (fun _ => by simp [hpc, deciding]) nofun
  · rename_i hpc
    rw [hpc] at hplaced
    have hd : deciding x.recv = true := by simp [hpc, deciding]
    split at h
    · rename_i hf
      cases h
      exact .go ⟨hplaced, hf⟩ (fun _ => hd) nofun
    · rename_i f hf
      rw [if_pos (hi.frame f hf)] at h
      cases h
      exact .go ⟨hplaced, hf⟩ (fun _ => hd) nofun
  · -- ended without a frame
    rename_i hpc
    rw [hpc] at hplaced
    cases h
    refine .finish (.quiet []) rfl (by simp [hpc, deciding]) (.inl ?_)
    have hmem := View.endedError_mem hplaced.1
    rwa [View.endedError, hplaced.2] at hmem
  · -- the status is recorded under a frame, which decides
    rename_i f hpc
    rw [hpc] at hplaced
    cases h
    refine ⟨.status _ _ fun _ hf => ?_, hplaced, rfl, rfl, rfl, fun _ => by simp [hpc, deciding],
      fun e h => by simp at h, nofun⟩
    simp [hplaced.2] at hf
  · rename_i f hpc
    rw [hpc] at hplaced
    cases h
    refine .finish (.ctx _ _ fun he => ?_) rfl (by simp [hpc, deciding]) (.inl ?_)
    · simp [hplaced.1] at he
    · have hmem := View.endedError_mem hplaced.1
      rwa [View.endedError, hplaced.2] at hmem
  · rename_i e hpc
    rw [hpc] at hplaced
    cases h
    cases he : x.stream.ended with
    | true => exact .go he (fun _ => by simp [hpc, deciding]) nofun
    | false =>
        refine .go hplaced (fun _ => by simp [hpc, deciding]) ?_
        rintro e' ⟨⟩
        exact View.ctx_mem he hplaced
  · rename_i e hpc
    cases h
    exact .popOr fun _ =>
      .finish (.quiet []) rfl (by simp [hpc, deciding]) (.inr ⟨e, hpc, rfl⟩)
  · rename_i f hpc
    cases h
    obtain ⟨p, hp⟩ := x.stream.returnCredit_fst f.payload.length
    rw [hp]
    exact ⟨.quiet [], trivial, rfl, rfl, rfl, nofun, fun e h => by simp [finish] at h, nofun⟩

/-! ## Clean ends -/

/-- The end that is recorded is a clean one: an END with OK, or OK without a frame. -/
def endsCleanly (s : Stream) : Bool :=
  match s.endFrame with
  | some f => decide (f.kind = .kindEnd ∧ (statusFromProto f.status).code = Code.ok)
  | none => s.endSt.all (·.code = Code.ok)

/-- Closing `ended` now changes nothing, or ends a half-closed stream cleanly. -/
def ClosesCleanly (s : Stream) : Prop :=
  s.ended = true ∨ s.halfClosed = true ∧ endsCleanly s = true

theorem endedError_of_endsCleanly {s : Stream} (h : endsCleanly s = true) :
    (View.of s).endedError = .eof := by
  unfold endsCleanly at h
  show (match s.endFrame with | some f => endError f | none => statusError s.endSt) = .eof
  cases hf : s.endFrame with
  | some f =>
      rw [hf] at h
      obtain ⟨hk, hc⟩ := of_decide_eq_true h
      simp [endError, hk, hc]
  | none =>
      rw [hf] at h
      cases hst : s.endSt with
      | none => rfl
      | some st =>
          rw [hst] at h
          simpa [statusError] using h

/-! ## What the receives report -/

/-- The inbound half, with what its receives have reported: from the first
terminal result that left the backlog drained on, every result but those of
receives that ended with their own context. -/
structure Reported where
  x : Inbound
  told : List (Except GoError Payload) := []
  deriving DecidableEq

namespace Reported

variable {w w' : Reported}

/-- The report after a receive has returned `r`. -/
def tell (w : Reported) (x' : Inbound) (r : Except GoError Payload) :
    List (Except GoError Payload) :=
  if w.told = [] ∧ (r.isOk = true ∨ x'.stream.recvItems ≠ []) then w.told else w.told ++ [r]

/-- The report after a step to `x'`. -/
def note (w : Reported) (a : InboundAct) (x' : Inbound) : List (Except GoError Payload) :=
  if a = .select .callerDone then w.told
  else
    match x'.results.drop w.x.results.length with
    | [] => w.told
    | r :: _ => w.tell x' r

def step (w : Reported) (a : InboundAct) : Option Reported :=
  (w.x.step a).map fun x' => { x := x', told := w.note a x' }

def start (server : Bool) (ctxErr : Option CtxErr) (id : UInt32) (method : Text) (W : ℤ) :
    Reported :=
  { x := Inbound.start server ctxErr id method W }

/-- A terminal result has been reported, or is about to be. -/
def answering (w : Reported) : Bool :=
  !w.told.isEmpty || (deciding w.x.recv && w.x.stream.recvItems.isEmpty)

/-- What `failWith(err)` may do to the stream now: where its status decides, it records the one
that is there, and it closes `ended` only for a clean end of a half-closed stream. -/
def FailKeeps (s : Stream) (err : GoError) : FailPc → Prop
  | .record => s.ended = true → s.endFrame = none → s.endSt = fromError (some err)
  | .close => ClosesCleanly s
  | .cancel => True

instance (s : Stream) (err : GoError) : (pc : FailPc) → Decidable (FailKeeps s err pc)
  | .record => inferInstanceAs (Decidable (_ → _))
  | .close => inferInstanceAs (Decidable (_ ∨ _))
  | .cancel => inferInstanceAs (Decidable True)

/-- What the read loop may do to the stream now. -/
def LoopKeeps (s : Stream) : LoopPc → Prop
  | .close => ClosesCleanly s
  | .over pc => FailKeeps s overflowErr pc
  | .lost closed pc => FailKeeps s (connLostErr closed) pc
  | _ => True

instance (s : Stream) : (pc : LoopPc) → Decidable (LoopKeeps s pc)
  | .close => inferInstanceAs (Decidable (_ ∨ _))
  | .over pc => inferInstanceAs (Decidable (FailKeeps s overflowErr pc))
  | .lost closed pc => inferInstanceAs (Decidable (FailKeeps s (connLostErr closed) pc))
  | .read | .signal | .remove | .exited => inferInstanceAs (Decidable True)

/-- What the local end may do to the stream now. -/
def EnderKeeps (s : Stream) : EndPc → Prop
  | .fail st pc => FailKeeps s (.status st) pc
  | _ => True

instance (s : Stream) : (pc : EndPc) → Decidable (EnderKeeps s pc)
  | .fail st pc => inferInstanceAs (Decidable (FailKeeps s (.status st) pc))
  | .idle | .remove _ | .done _ => inferInstanceAs (Decidable True)

/-- **The stream ends once.**  The condition on a step.

* A receive with an empty backlog takes a terminal case of its `select` on a half-closed stream
  only if that has ended cleanly, or has not ended and its context is live.

Once a terminal result has been reported, or is about to be:

* a HALF_CLOSE arrives only at a stream that is half-closed or has ended cleanly;
* `ended` is closed, and a status recorded, only as `ClosesCleanly` and `FailKeeps` say;
* the context ends only after the stream has ended, or a second time;
* once it has been reported, no message is accepted. -/
def EndsOnce (w : Reported) : InboundAct → Prop
  | .select .recvSignal | .select .callerDone => True
  | .select _ => w.x.stream.recvItems = [] → w.x.stream.halfClosed = true →
      if w.x.stream.ended then endsCleanly w.x.stream = true else w.x.stream.ctxErr = none
  | .route f =>
      (w.answering = true → w.x.registered = true → f.kind = .kindHalfClose →
        w.x.stream.halfClosed = true ∨ w.x.stream.ended = true ∧ endsCleanly w.x.stream = true) ∧
      (w.told ≠ [] → w.x.appendedBy (.route f) = [])
  | .loop => w.answering = true → LoopKeeps w.x.stream w.x.loop
  | .ender => w.answering = true → EnderKeeps w.x.stream w.x.ender
  | .expire _ => w.answering = true → w.x.stream.ended = true ∨ w.x.stream.ctxErr ≠ none
  | _ => True

instance (w : Reported) : (a : InboundAct) → Decidable (w.EndsOnce a)
  | .select .halfClosed | .select .ended | .select .ctxDone =>
      inferInstanceAs (Decidable (_ → _ → _))
  | .route _ => inferInstanceAs (Decidable (_ ∧ _))
  | .loop | .ender | .expire _ => inferInstanceAs (Decidable (_ → _))
  | .select .recvSignal | .select .callerDone | .connLost _ | .callEnd _ | .recvRawContext _
  | .callerDone _ | .recv => inferInstanceAs (Decidable True)

/-- The stream has the one answer `v`, and so have the reports. -/
structure Agreed (w : Reported) (v : GoError) : Prop where
  some : (View.of w.x.stream).verdicts ≠ []
  all : ∀ u ∈ (View.of w.x.stream).verdicts, u = v
  told : ∀ r ∈ w.told, r = .error v
  drained : w.told ≠ [] → w.x.stream.recvItems = [] ∧ inHand w.x.recv = []
  ctxPop : ∀ e, w.x.recv = .ctxPop e → v = .ctx e

theorem answering_iff : w.answering = true ↔
    w.told ≠ [] ∨ (deciding w.x.recv = true ∧ w.x.stream.recvItems = []) := by
  simp [answering]

theorem note_of_results_eq {a : InboundAct} (h : x'.results = w.x.results) :
    w.note a x' = w.told := by
  simp [note, h]

theorem note_of_result {a : InboundAct} {r : Except GoError Payload}
    (ha : a ≠ .select .callerDone) (h : x'.results = w.x.results ++ [r]) :
    w.note a x' = w.tell x' r := by
  simp [note, ha, h]

/-- Another party moves. -/
theorem Agreed.turn {v : GoError} {a : InboundAct} {new : List Frame} (hi : Agreed w v)
    (hp : Passes w.x x' new) (ht : Turn w.x x' (w.x.brings a))
    (hb : ∀ e ∈ w.x.brings a, v = e) (hnew : w.told ≠ [] → new = []) :
    Agreed { w with x := x' } v where
  some := ht.event.verdicts_ne_nil hi.some
  all u hu := by
    rcases ht.event.mem_verdicts hu with h | h
    · exact hi.all u h
    · exact (hb u h).symm
  told := hi.told
  drained h := by
    rw [hp.items, hp.recv, hnew h, List.append_nil]
    exact hi.drained h
  ctxPop e h := hi.ctxPop e (hp.recv ▸ h)

/-- The receiver moves, and returns nothing. -/
theorem Agreed.move {v : GoError} (hi : Agreed w v)
    (hev : View.Event (.of w.x.stream) (.of x'.stream) [])
    (hd : w.told ≠ [] → x'.stream.recvItems = [] ∧ inHand x'.recv = [])
    (hc : ∀ e, x'.recv = .ctxPop e → .ctx e ∈ (View.of w.x.stream).verdicts) :
    Agreed { w with x := x' } v where
  some := hev.verdicts_ne_nil hi.some
  all u hu := (hev.mem_verdicts hu).elim (hi.all u) (by simp)
  told := hi.told
  drained := hd
  ctxPop e h := (hi.all _ (hc e h)).symm

/-- The invariant. -/
structure Inv (w : Reported) : Prop where
  sound : Sound w.x
  agreed : w.answering = true → ∃ v, Agreed w v

theorem inv_start (server : Bool) (ctxErr : Option CtxErr) (id : UInt32) (method : Text) (W : ℤ) :
    Inv (start server ctxErr id method W) :=
  ⟨sound_start server ctxErr id method W, nofun⟩

/-! ## Ending once leaves one answer -/

section Brings

variable {v : GoError}

/-- Closing `ended` cleanly. -/
theorem Agreed.brings_close (hi : Agreed w v) (hok : ClosesCleanly w.x.stream) :
    ∀ e ∈ (if w.x.stream.ended then [] else [(View.of w.x.stream).endedError]), v = e := by
  intro e he
  split_ifs at he with hend
  · cases he
  · obtain ⟨hhalf, hclean⟩ := hok.resolve_left hend
    rw [List.mem_singleton.1 he, endedError_of_endsCleanly hclean]
    exact (hi.all _ (View.eof_mem hhalf)).symm

/-- A piece of `failWith`. -/
theorem Agreed.brings_fail (hi : Agreed w v) {err : GoError} {pc : FailPc}
    (hok : FailKeeps w.x.stream err pc) :
    ∀ e ∈ failBrings (.of w.x.stream) err pc, v = e := by
  cases pc with
  | record =>
      intro e he
      rw [failBrings] at he
      split_ifs at he with hcond
      · rw [Bool.and_eq_true, Option.isNone_iff_eq_none] at hcond
        have hst : (View.of w.x.stream).endSt = fromError (Option.some err) := hok hcond.1 hcond.2
        have hmem := View.endedError_mem hcond.1
        rw [View.endedError, hcond.2] at hmem
        rw [List.mem_singleton.1 he, ← hst]
        exact (hi.all _ hmem).symm
      · cases he
  | close => exact hi.brings_close hok
  | cancel => intro e he; cases he

/-- **What is brought is the answer that is being given.** -/
theorem Agreed.brings (hi : Agreed w v) {a : InboundAct} (hans : w.answering = true)
    (hok : w.EndsOnce a) : ∀ e ∈ w.x.brings a, v = e := by
  cases a with
  | route f =>
      intro e he
      simp only [Inbound.brings] at he
      split_ifs at he with hcond
      · rw [Bool.and_eq_true, decide_eq_true_eq] at hcond
        rw [List.mem_singleton.1 he]
        rcases hok.1 hans hcond.1 hcond.2 with hhalf | ⟨hend, hclean⟩
        · exact (hi.all _ (View.eof_mem hhalf)).symm
        · rw [← endedError_of_endsCleanly hclean]
          exact (hi.all _ (View.endedError_mem hend)).symm
      · cases he
  | loop =>
      have hkeep : LoopKeeps w.x.stream w.x.loop := hok hans
      unfold Inbound.brings
      cases hpc : w.x.loop with
      | close => rw [hpc] at hkeep; exact hi.brings_close hkeep
      | «over» pc => rw [hpc] at hkeep; exact hi.brings_fail hkeep
      | lost closed pc => rw [hpc] at hkeep; exact hi.brings_fail hkeep
      | read | signal | remove | exited => intro e he; cases he
  | ender =>
      have hkeep : EnderKeeps w.x.stream w.x.ender := hok hans
      unfold Inbound.brings
      cases hpc : w.x.ender with
      | fail st pc => rw [hpc] at hkeep; exact hi.brings_fail hkeep
      | idle | remove | done => intro e he; cases he
  | expire e =>
      intro e' he
      simp only [Inbound.brings] at he
      rcases hok hans with hend | hctx
      · simp [hend] at he
      · simp [Option.isSome_iff_ne_none.2 hctx] at he
  | connLost | callEnd | recvRawContext | callerDone | recv | select => intro e he; cases he

/-- The ready cases of a `select` agree. -/
theorem verdicts_agree {s : Stream} (h : s.halfClosed = true →
      if s.ended then endsCleanly s = true else s.ctxErr = none) :
    ∀ u ∈ (View.of s).verdicts, ∀ v ∈ (View.of s).verdicts, u = v := by
  have hone : ∃ e, ∀ u ∈ (View.of s).verdicts, u = e := by
    unfold View.verdicts
    cases hhalf : s.halfClosed with
    | true =>
        refine ⟨.eof, fun u hu => ?_⟩
        have hrest := h hhalf
        cases hend : s.ended with
        | true =>
            rw [hend, if_pos rfl] at hrest
            have heof := endedError_of_endsCleanly hrest
            simp only [View.of, hhalf, hend] at hu heof
            simpa [heof] using hu
        | false =>
            rw [hend] at hrest
            simpa [View.of, hhalf, hend, show s.ctxErr = none from hrest] using hu
    | false =>
        cases hend : s.ended with
        | true => exact ⟨_, fun u hu => by simpa [View.of, hhalf, hend] using hu⟩
        | false =>
            cases hctx : s.ctxErr with
            | none => exact ⟨.eof, fun u hu => by simp [View.of, hhalf, hend, hctx] at hu⟩
            | some e => exact ⟨.ctx e, fun u hu => by simpa [View.of, hhalf, hend, hctx] using hu⟩
  obtain ⟨e, he⟩ := hone
  intro u hu v hv
  rw [he u hu, he v hv]

end Brings

theorem inv_others {a : InboundAct} (hi : Inv w) (ha : byReceiver a = false)
    (hok : w.EndsOnce a) (h : w.x.step a = some x') : Inv { x := x', told := w.note a x' } := by
  have hp := passes_of_step ha h
  have ht := turn_of_step hi.sound ha h
  have hnew : w.told ≠ [] → w.x.appendedBy a = [] := by
    cases a with
    | route f => exact hok.2
    | _ => exact fun _ => rfl
  rw [note_of_results_eq hp.results]
  refine ⟨hi.sound.turn ht hp.recv, fun hans => ?_⟩
  have hans' : w.answering = true := by
    rw [answering_iff] at hans ⊢
    refine hans.imp_right fun hd => ⟨hp.recv ▸ hd.1, ?_⟩
    have hitems := hp.items ▸ hd.2
    exact (List.append_eq_nil_iff.1 hitems).1
  obtain ⟨v, hv⟩ := hi.agreed hans'
  exact ⟨v, hv.turn hp ht (hv.brings hans' hok) hnew⟩

theorem inv_enter (hi : Inv w) (ctx : Option CtxErr) :
    Inv { w with x := { w.x with recv := .pop, callerErr := ctx } } where
  sound := { hi.sound with recv := by trivial }
  agreed hans := by
    have htold : w.told ≠ [] := by simpa [answering_iff, deciding] using hans
    obtain ⟨v, hv⟩ := hi.agreed (answering_iff.2 (Or.inl htold))
    exact ⟨v, hv.move (.quiet []) (fun h => ⟨(hv.drained h).1, rfl⟩) nofun⟩

/-- A message is taken or returned only before the report begins. -/
theorem Inv.told_nil (hi : Inv w)
    (h : w.x.stream.recvItems ≠ [] ∨ inHand w.x.recv ≠ []) : w.told = [] := by
  by_contra htold
  obtain ⟨v, hv⟩ := hi.agreed (answering_iff.2 (Or.inl htold))
  obtain ⟨hitems, hhand⟩ := hv.drained htold
  exact h.elim (absurd hitems) (absurd hhand)

/-- A receive returns an error, which is the answer. -/
theorem inv_fail (hi : Inv w) (ht : OwnTurn w.x x') {e : GoError}
    (hitems : x'.stream.recvItems = w.x.stream.recvItems) (hrecv : x'.recv = .idle)
    (hres : x'.results = w.x.results ++ [.error e]) :
    Inv { x := x', told := w.tell x' (.error e) } := by
  obtain ⟨hd, hanswer⟩ := ht.answer e hres
  refine ⟨ht.sound hi.sound, fun hans => ?_⟩
  have hans' : w.answering = true := by
    rw [answering_iff] at hans ⊢
    by_cases htold : w.told = []
    · right
      refine ⟨hd, ?_⟩
      by_contra hne
      -- a result that leaves messages behind is not the first of the report
      simp [tell, htold, hitems, hne, hrecv, deciding] at hans
    · exact Or.inl htold
  obtain ⟨v, hv⟩ := hi.agreed hans'
  obtain rfl : e = v := by
    rcases hanswer with hmem | ⟨e', hpc, rfl⟩
    · exact hv.all e hmem
    · exact (hv.ctxPop e' hpc).symm
  have hdr : x'.stream.recvItems = [] := by
    rw [hitems]
    exact (answering_iff.1 hans').elim (fun h => (hv.drained h).1) And.right
  have hm := hv.move ht.event (fun _ => ⟨hdr, by rw [hrecv]; rfl⟩) (by simp [hrecv])
  have htell : w.tell x' (.error e) = w.told ++ [.error e] := by
    simp [tell, hdr, Except.isOk, Except.toBool]
  rw [htell]
  refine ⟨e, { hm with told := ?_, drained := fun _ => ⟨hdr, by simp [hrecv]⟩ }⟩
  intro r hr
  rcases List.mem_append.1 hr with h | h
  · exact hv.told r h
  · exact List.mem_singleton.1 h

theorem inv_recv (hi : Inv w) (h : w.x.recvStep = some x') :
    Inv { x := x', told := w.note .recv x' } := by
  have ht := ownTurn_recv hi.sound h
  have hsound := ht.sound hi.sound
  cases recvStep_cases h with
  | take f hpop hitems hrecv hres =>
      have htold := hi.told_nil (Or.inl (by simp [hitems]))
      rw [note_of_results_eq hres]
      exact ⟨hsound, by simp [answering, htold, hrecv, deciding]⟩
  | give f hpc hitems hrecv hres =>
      have htold := hi.told_nil (Or.inr (by simp [hpc]))
      rw [note_of_result (a := .recv) nofun hres]
      refine ⟨hsound, ?_⟩
      simp [answering, tell, htold, hrecv, deciding, Except.isOk, Except.toBool]
  | go hlook hnone hitems hrecv hres =>
      rw [note_of_results_eq hres]
      refine ⟨hsound, fun hans => ?_⟩
      have hans' : w.answering = true := by
        rw [answering_iff] at hans ⊢
        exact hans.imp_right fun hd => ⟨ht.deciding hd.1, hitems ▸ hd.2⟩
      obtain ⟨v, hv⟩ := hi.agreed hans'
      refine ⟨v, hv.move ht.event (fun htold => ?_) ht.ctxPop⟩
      exact ⟨hitems.trans (hv.drained htold).1, inHand_of_looking hrecv⟩
  | fail e hlook hnone hitems hrecv hres =>
      rw [note_of_result (a := .recv) nofun hres]
      exact inv_fail hi ht hitems hrecv hres

/-- The receiver leaves its `select` for a terminal case. -/
theorem inv_decide (hi : Inv w) {pc : RecvPc} (hplaced : (View.of w.x.stream).Placed pc)
    (hne : (View.of w.x.stream).verdicts ≠ []) (hpc : ∀ e, pc ≠ .ctxPop e)
    (hhand : inHand pc = [])
    (hok : w.x.stream.recvItems = [] → w.x.stream.halfClosed = true →
      if w.x.stream.ended then endsCleanly w.x.stream = true else w.x.stream.ctxErr = none) :
    Inv { w with x := { w.x with recv := pc } } where
  sound := { hi.sound with recv := hplaced }
  agreed hans := by
    by_cases htold : w.told = []
    · -- the first terminal case that is taken fixes the answer
      have hitems : w.x.stream.recvItems = [] := by
        simp only [answering_iff, htold, ne_eq, not_true_eq_false, false_or] at hans
        exact hans.2
      obtain ⟨v, hv⟩ := List.exists_mem_of_ne_nil _ hne
      refine ⟨v, hne, fun u hu => verdicts_agree (hok hitems) u hu v hv, ?_, ?_,
        fun e h => absurd h (hpc e)⟩
      · simp [htold]
      · simp [htold]
    · obtain ⟨v, hv⟩ := hi.agreed (answering_iff.2 (Or.inl htold))
      exact ⟨v, hv.move (.quiet []) (fun h => ⟨(hv.drained h).1, hhand⟩)
        fun e h => absurd h (hpc e)⟩

/-- The receiver leaves its `select` without a terminal case. -/
theorem inv_back (hi : Inv w) (hview : View.of x'.stream = View.of w.x.stream)
    (hitems : x'.stream.recvItems = w.x.stream.recvItems) (hloop : x'.loop = w.x.loop)
    (hender : x'.ender = w.x.ender) (hrecv : x'.recv = .idle ∨ x'.recv = .pop) :
    Inv { w with x := x' } := by
  have hframe : x'.stream.endFrame = w.x.stream.endFrame := congrArg View.endFrame hview
  have hended : x'.stream.ended = w.x.stream.ended := congrArg View.ended hview
  refine ⟨⟨?_, ?_, ?_, ?_⟩, fun hans => ?_⟩
  · rw [hloop, hended]; exact hi.sound.loop
  · rw [hender, hended]; exact hi.sound.ender
  · rw [hframe]; exact hi.sound.frame
  · rcases hrecv with h | h <;> rw [h] <;> trivial
  · have htold : w.told ≠ [] := by
      rcases hrecv with h | h <;> simpa [answering_iff, h, deciding] using hans
    obtain ⟨v, hv⟩ := hi.agreed (answering_iff.2 (Or.inl htold))
    refine ⟨v, hv.move (hview ▸ .quiet []) (fun h => ⟨hitems.trans (hv.drained h).1, ?_⟩) ?_⟩
    · rcases hrecv with h | h <;> rw [h] <;> rfl
    · rcases hrecv with h | h <;> simp [h]

theorem inv_select (hi : Inv w) {c : Case} (hok : w.EndsOnce (.select c))
    (h : w.x.selectStep c = some x') : Inv { x := x', told := w.note (.select c) x' } := by
  have hnote : w.note (.select c) x' = w.told := by
    obtain ⟨-, ⟨-, -, -, hres⟩ | ⟨rfl, -⟩⟩ := selectStep_cases h
    · exact note_of_results_eq hres
    · simp [note]
  rw [hnote]
  cases c with
  | recvSignal =>
      obtain ⟨-, ⟨⟩⟩ := Option.ite_none_right_eq_some.1 h
      exact inv_back hi rfl rfl rfl rfl (Or.inr rfl)
  | halfClosed =>
      obtain ⟨hh, ⟨⟩⟩ := Option.ite_none_right_eq_some.1 h
      exact inv_decide hi hh (List.ne_nil_of_mem (View.eof_mem hh)) nofun rfl hok
  | ended =>
      obtain ⟨he, ⟨⟩⟩ := Option.ite_none_right_eq_some.1 h
      exact inv_decide hi he (List.ne_nil_of_mem (View.endedError_mem he)) nofun rfl hok
  | ctxDone =>
      obtain ⟨e, he, rfl⟩ := Option.map_eq_some_iff.1 h
      refine inv_decide hi he (View.verdicts_ne_nil.2 (Or.inr (Or.inr ?_))) nofun rfl hok
      simp [View.of, he]
  | callerDone =>
      obtain ⟨e, -, rfl⟩ := Option.map_eq_some_iff.1 h
      exact inv_back hi rfl rfl rfl rfl (Or.inl rfl)

theorem inv_step {a : InboundAct} (hi : Inv w) (hok : w.EndsOnce a) (h : w.step a = some w') :
    Inv w' := by
  obtain ⟨x', hx, rfl⟩ := Option.map_eq_some_iff.1 h
  cases ha : byReceiver a with
  | false => exact inv_others hi ha hok hx
  | true =>
      cases a with
      | recvRawContext ctx =>
          obtain ⟨-, hx⟩ := Option.ite_none_right_eq_some.1 hx
          have hres : x'.results = w.x.results := by rw [← Option.some.inj hx]
          rw [note_of_results_eq hres, ← Option.some.inj hx]
          exact inv_enter hi ctx
      | recv => exact inv_recv hi hx
      | select c =>
          obtain ⟨-, hs⟩ := Option.ite_none_right_eq_some.1 hx
          exact inv_select hi hok hs
      | route | loop | connLost | callEnd | ender | expire | callerDone => cases ha

/-! ## Every run -/

/-- **The end is final.**  In every run in which the stream ends once, every receive after the
first terminal result that left the backlog drained returns that same result, unless its own
context ends it. -/
theorem outcome_stable (server : Bool) (ctxErr : Option CtxErr) (id : UInt32) (method : Text)
    (W : ℤ) {w : Reported} (h : Reach step EndsOnce (start server ctxErr id method W) w) :
    ∀ r ∈ w.told, ∀ r' ∈ w.told, r = r' := by
  have hi : Inv w := h.invariant (inv_start server ctxErr id method W)
    fun _ _ _ hi hok hs => inv_step hi hok hs
  intro r hr r' hr'
  obtain ⟨v, hv⟩ := hi.agreed (answering_iff.2 (Or.inl (List.ne_nil_of_mem hr)))
  rw [hv.told r hr, hv.told r' hr']

/-- A RST ends the stream and the context runs out; the handler returns OK between
two receives, and both return the status of the RST. -/
theorem outcome_stable_reset :
    ∃ w, Reach step EndsOnce (start true none 1 .empty 4) w ∧
      w.told = [.error (.status { code := 8 }), .error (.status { code := 8 })] ∧
      ∀ r ∈ w.told, ∀ r' ∈ w.told, r = r' := by
  obtain ⟨w, hw, hp⟩ := exists_reach_of_exec step EndsOnce (start true none 1 .empty 4)
    (fun w => decide
      (w.told = [.error (.status { code := 8 }), .error (.status { code := 8 })]))
    [.recvRawContext none, .recv,
      .route { streamId := 1, kind := .kindRst, status := some { code := 8 } }, .loop,
      .expire .deadlineExceeded, .select .ctxDone, .recv, .recv, .recv, .recv, .recv,
      .callEnd { code := Code.ok }, .ender, .recvRawContext none, .recv, .ender, .select .ended,
      .recv, .recv, .recv, .recv] (by decide)
  exact ⟨w, hw, by simpa using hp, outcome_stable true none 1 .empty 4 hw⟩

/-- **A status is replaced.**  A message is refused by the backlog's ceiling, the
receiver drains the backlog and is told ResourceExhausted; the handler returns
OK, and the next receive returns `io.EOF`. -/
theorem status_replaced :
    ∃ w, Reach step Always (start true none 1 .empty 1) w ∧
      w.told = [.error overflowErr, .error .eof] := by
  obtain ⟨w, hw, hp⟩ := exists_reach_of_exec step Always (start true none 1 .empty 1)
    (fun w => decide (w.told = [.error overflowErr, .error .eof]))
    [.route { streamId := 1, kind := .kindMsg, payload := [1, 2] }, .loop,
      .route { streamId := 1, kind := .kindMsg, payload := [3] }, .loop, .loop, .loop, .loop,
      .recvRawContext none, .recv, .recv, .recvRawContext none, .recv, .select .ended, .recv,
      .recv, .recv, .callEnd { code := Code.ok }, .ender, .recvRawContext none, .recv,
      .select .ended, .recv, .recv, .recv] (by decide)
  exact ⟨w, hw, by simpa using hp⟩

end Reported

end WsProto.Go.Inbound
