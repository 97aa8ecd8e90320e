import WsProto.Lib.Run
import WsProto.Go.Cancel

/-!
# The context of a stream and its terminal frame

`Stream.Context` is documented as cancelled on END and RST.  A mux of either side runs
here with everything that can happen to its streams; a ghost records the streams for
which `route` has processed a terminal frame.

* `follows_of_done` — the context of a recorded stream is done in every run in which
  the terminal frames only find streams whose context is done already, and a step that
  does not meet this breaks it at once;
* `live_after_rst` — `signalEnd` does not cancel: after an RST the handler's context is
  live.
-/

namespace WsProto.Go.StreamContext

open Machine

/-! ## The model -/

/-- A mux, and the streams whose END or RST it has routed. -/
structure Host where
  mux : Mux
  /-- Ghost: the streams registered under the id of a routed END or RST. -/
  terminated : List Ref := []
  deriving DecidableEq

inductive Act where
  | route (f : Frame)
  /-- `newClientStream`; a failed write of OPEN removes the stream again. -/
  | newClientStream (ctxErr : Option CtxErr) (method : Text) (written : Bool)
  | op (r : Ref) (o : StreamOp)
  /-- `end` of a server stream. -/
  | endStream (r : Ref) (st : Status)
  /-- The deferred `remove` of a handler or of a finished call. -/
  | remove (r : Ref)
  | close
  /-- `ReadFrame` fails: `failAll`, and the context of the mux ends. -/
  | readFail
  deriving DecidableEq

/-- END and RST. -/
def terminal : Kind → Bool
  | .kindEnd | .kindRst => true
  | _ => false

namespace Host

/-- The stream a terminal frame is for. -/
def target (x : Host) (f : Frame) : Option (Ref × Stream) :=
  if terminal f.kind then x.mux.find f.streamId else none

def step (x : Host) : Act → Option Host
  | .route f =>
      some
        { mux := (x.mux.route f).1
          terminated := x.terminated ++ ((x.target f).map (·.1)).toList }
  | .newClientStream ctxErr method written =>
      if x.mux.server then none
      else
        some { x with
          mux := { ClientStreams.Client.newClientStream x.mux ctxErr method with
            streams := Cancel.Pair.openStreams x.mux written } }
  | .op r o => (x.mux.objs[r]?).map fun s => { x with mux := x.mux.setObj r (o.run s).1 }
  | .endStream r st =>
      (x.mux.objs[r]?).map fun s =>
        { x with mux := x.mux.setObj r (s.failWith (some (.status st))) }
  | .remove r => (x.mux.objs[r]?).map fun s => { x with mux := x.mux.remove s.id }
  | .close => some { x with mux := { x.mux with closedFlag := true } }
  | .readFail =>
      some { x with
        mux := { x.mux.failAll x.mux.disconnectErr with ctxErr := some .canceled } }

/-- The stream a step brings the terminal frame of. -/
def ends (x : Host) : Act → Option (Ref × Stream)
  | .route f => x.target f
  | _ => none

/-- A fresh mux. -/
def start (server : Bool) (W maxStreams : ℤ) : Host := { mux := newMuxConfig server W maxStreams }

end Host

/-- The context of every stream whose terminal frame was routed is done. -/
def Follows (x : Host) : Prop :=
  ∀ r ∈ x.terminated, ∃ s, x.mux.objs[r]? = some s ∧ s.ctxErr ≠ none

/-- A terminal frame finds its stream with a done context. -/
def Done (x : Host) (a : Act) : Prop := ∀ p ∈ x.ends a, p.2.ctxErr ≠ none

instance (x : Host) (a : Act) : Decidable (Done x a) :=
  inferInstanceAs (Decidable (∀ p ∈ x.ends a, p.2.ctxErr ≠ none))

/-! ## One step -/

variable {x x' : Host}

theorem done_of_ends {a : Act} (h : x.ends a = none) : Done x a := by
  intro p hp
  rw [h] at hp
  cases hp

/-- A step that terminates no stream keeps the property: contexts stay done. -/
theorem follows_of_keeps (hx : Follows x) (hk : Mux.Keeps x.mux x'.mux)
    (ht : x'.terminated = x.terminated) : Follows x' := by
  intro r hr
  rw [ht] at hr
  obtain ⟨s, hs, hdone⟩ := hx r hr
  obtain ⟨s', hs', -, -, hctx⟩ := hk r s hs
  exact ⟨s', hs', hctx hdone⟩

/-- What `route` makes of the stream of a terminal frame. -/
theorem route_terminal {f : Frame} {r : Ref} {s : Stream} (h : x.target f = some (r, s)) :
    x.mux.objs[r]? = some s ∧ (x.mux.route f).1.objs[r]? = some (s.signalEnd f) := by
  rw [Host.target] at h
  split_ifs at h with hk
  have hs := (Mux.find_eq_some.1 h).2
  have hlt : r < x.mux.objs.length := (List.getElem?_eq_some_iff.1 hs).1
  refine ⟨hs, ?_⟩
  have hopen : f.kind ≠ .kindOpen := by
    intro ho
    rw [ho] at hk
    cases hk
  have hon : s.onFrame x.mux.server f = .removed (s.signalEnd f) := by
    unfold Stream.onFrame
    cases hkind : f.kind <;> simp_all [terminal]
  simp [Mux.route, hopen, Mux.routeFrame, h, hon, Mux.remove, Mux.setObj, hlt]

/-- `signalEnd` leaves the context alone. -/
theorem signalEnd_ctxErr (s : Stream) (f : Frame) : (s.signalEnd f).ctxErr = s.ctxErr := by
  rw [Stream.signalEnd]
  split <;> rfl

/-- **One routed frame**: the property is kept exactly if the frame is not terminal
or its stream's context is done. -/
theorem follows_route_iff {f : Frame} (hx : Follows x) (h : x.step (.route f) = some x') :
    Follows x' ↔ Done x (.route f) := by
  cases h
  constructor
  · rintro hx' ⟨r, s⟩ ht
    have ht : x.target f = some (r, s) := ht
    obtain ⟨-, hr⟩ := route_terminal ht
    obtain ⟨s', hs', hdone⟩ := hx' r (by simp [ht])
    obtain rfl : s.signalEnd f = s' := Option.some.inj (hr.symm.trans hs')
    rwa [signalEnd_ctxErr] at hdone
  · intro hd r hr
    rcases List.mem_append.1 hr with hr | hr
    · obtain ⟨s, hs, hdone⟩ := hx r hr
      obtain ⟨s', hs', -, -, hctx⟩ := Mux.keeps_route x.mux f r s hs
      exact ⟨s', hs', hctx hdone⟩
    · cases ht : x.target f with
      | none => simp [ht] at hr
      | some p =>
          obtain ⟨r', s⟩ := p
          obtain rfl : r = r' := by simpa [ht] using hr
          refine ⟨_, (route_terminal ht).2, ?_⟩
          rw [signalEnd_ctxErr]
          exact hd (r, s) ht

/-- One step, of any kind: the others bring no terminal frame and keep the property. -/
theorem follows_step_iff {a : Act} (hx : Follows x) (h : x.step a = some x') :
    Follows x' ↔ Done x a := by
  cases a with
  | route f => exact follows_route_iff hx h
  | newClientStream ctxErr method written =>
      simp only [Host.step] at h
      split_ifs at h
      cases h
      have hk : Mux.Keeps x.mux { ClientStreams.Client.newClientStream x.mux ctxErr method with
          streams := Cancel.Pair.openStreams x.mux written } :=
        (ClientStreams.Client.keeps_newClientStream x.mux ctxErr method).trans
          (Mux.keeps_of_objs rfl)
      exact iff_of_true (follows_of_keeps hx hk rfl) (done_of_ends rfl)
  | op r o =>
      obtain ⟨s, hs, rfl⟩ := Option.map_eq_some_iff.1 h
      exact iff_of_true (follows_of_keeps hx (Mux.keeps_op hs o) rfl)
        (done_of_ends rfl)
  | endStream r st =>
      obtain ⟨s, hs, rfl⟩ := Option.map_eq_some_iff.1 h
      exact iff_of_true (follows_of_keeps hx (Mux.keeps_failWith hs _) rfl) (done_of_ends rfl)
  | remove r =>
      obtain ⟨s, hs, rfl⟩ := Option.map_eq_some_iff.1 h
      exact iff_of_true (follows_of_keeps hx (Mux.keeps_of_objs rfl) rfl)
        (done_of_ends rfl)
  | close =>
      cases h
      exact iff_of_true (follows_of_keeps hx (Mux.keeps_of_objs rfl) rfl)
        (done_of_ends rfl)
  | readFail =>
      cases h
      have hk : Mux.Keeps x.mux { x.mux.failAll x.mux.disconnectErr with ctxErr := some .canceled } :=
        (Mux.keeps_failAll _ _).trans (Mux.keeps_of_objs rfl)
      exact iff_of_true (follows_of_keeps hx hk rfl) (done_of_ends rfl)

/-! ## Whole runs -/

/-- **The context follows the terminal frame exactly as long as every terminal frame
finds it done.**  In a run all of whose steps meet the condition the property holds in
every state, and the first step that does not meet it breaks the property. -/
theorem follows_of_done (server : Bool) (W maxStreams : ℤ) :
    ∀ x, Reach Host.step Done (Host.start server W maxStreams) x →
      Follows x ∧ ∀ a x', x.step a = some x' → (Follows x' ↔ Done x a) := by
  intro x hr
  have hx : Follows x := by
    refine hr.invariant ?_ fun s a s' hs ha hstep => (follows_step_iff hs hstep).2 ha
    intro r hr
    cases hr
  exact ⟨hx, fun a x' h => follows_step_iff hx h⟩

/-- The trace of an OPEN, the end of the handler's context, and the END of the peer. -/
theorem follows_of_done_expired :
    ∃ x, Reach Host.step Done (Host.start true 0 0) x ∧ x.terminated = [0] ∧ Follows x := by
  obtain ⟨x, hr, hp⟩ := exists_reach_of_exec Host.step Done (Host.start true 0 0)
    (fun x : Host => decide (x.terminated = [0]))
    [.route { streamId := 1, kind := .kindOpen }, .op 0 (.expire .deadlineExceeded),
      .route { streamId := 1, kind := .kindEnd }] (by decide)
  exact ⟨x, hr, of_decide_eq_true hp, (follows_of_done true 0 0 x hr).1⟩

/-- **After an RST the handler's context is live.** -/
theorem live_after_rst :
    ∃ x, Reach Host.step Always (Host.start true 0 0) x ∧
      x.terminated = [0] ∧ (x.mux.objs[0]?).map Stream.ctxErr = some none := by
  obtain ⟨x, hr, hp⟩ := exists_reach_of_exec Host.step Always (Host.start true 0 0)
    (fun x : Host => decide (x.terminated = [0] ∧ (x.mux.objs[0]?).map Stream.ctxErr = some none))
    [.route { streamId := 1, kind := .kindOpen }, .route { streamId := 1, kind := .kindRst }]
    (by decide)
  exact ⟨x, hr, of_decide_eq_true hp⟩

end WsProto.Go.StreamContext
