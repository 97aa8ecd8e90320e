import WsProto.Go.Serve
import WsProto.Lib.Run

/-!
# Statistics of a server connection

`ServerStats` (`wsrpc/stats.go`): callbacks that fire where a frame is routed and
where `serveStream` starts and ends a handler.  A callback only records; what it is
told is an `Event`, and the context it is given is named by the stream's reference.

The system is a server mux whose `onOpen` runs `serveStream` in a goroutine of its
own, one call for each stream the mux makes, cut where something else may come in
between: the lookup and the middleware, the handler chain, `StreamEnded`, the write of
END, the deferred calls.  What a handler does, and how it comes to its end, is any
choice at all.

* `started_eq` — in every state of every run, per method, the streams started are the
  streams ended, the chains that panicked and the ones still inside;
* `ended_answered` — `StreamEnded` is told the code of the END of its stream;
* `stats_balanced_iff` — so at rest the two callbacks balance exactly if no handler
  chain has panicked: the deferred `recover` answers the peer but fires no
  `StreamEnded`;
* `panic_leaks_stream` — a handler that panics: its stream was started and never ends.

`MsgSent` and the callbacks of the connection (`ConnOpened`, `ConnClosed`,
`ConnRejected`) are left out.
-/

namespace WsProto.Go.Stats

open Machine

/-! ## Callbacks -/

/-- A callback that fires, with what it is told. -/
inductive Event where
  | streamStarted (r : Ref) (method : Text)
  | streamEnded (r : Ref) (method : Text) (code : Code)
  | streamRejected (reason : String)
  | msgReceived (r : Ref) (method : Text) (bytes : ℕ)
  deriving DecidableEq

/-- `ServerStats`: which of the callbacks are set. -/
structure ServerStats where
  streamStarted : Bool := true
  streamEnded : Bool := true
  streamRejected : Bool := true
  msgReceived : Bool := true
  deriving DecidableEq

def statsReasonMaxStreams : String := "max_streams"
def statsReasonRecvOverflow : String := "recv_overflow"

/-- The callback of an event is set. -/
def ServerStats.has (st : ServerStats) : Event → Bool
  | .streamStarted .. => st.streamStarted
  | .streamEnded .. => st.streamEnded
  | .streamRejected .. => st.streamRejected
  | .msgReceived .. => st.msgReceived

/-- The dispatch helpers: nothing fires without stats, or where the callback is
nil. -/
def fire (st : Option ServerStats) (e : Event) : List Event :=
  if st.any (·.has e) then [e] else []

theorem fire_some {st : ServerStats} {e : Event} (h : st.has e = true) : fire (some st) e = [e] := by
  simp [fire, h]

/-- The event is neither the start nor the end of a stream. -/
def Event.IsOther : Event → Prop
  | .streamStarted .. | .streamEnded .. => False
  | .streamRejected .. | .msgReceived .. => True

/-- The event is the start of a stream of this method. -/
def Event.startOf (method : Text) : Event → Bool
  | .streamStarted _ m => decide (m = method)
  | _ => false

/-- The event is the end of a stream of this method. -/
def Event.endOf (method : Text) : Event → Bool
  | .streamEnded _ m _ => decide (m = method)
  | _ => false

/-- What `route` fires: a stream over the cap, a message taken into the backlog — or
dropped because the stream is ending — and a backlog that overflows. -/
def routed (st : Option ServerStats) (m : Mux) (f : Frame) : List Event :=
  if f.kind = .kindOpen then
    if m.server && !m.dupOpen f && m.overCap then fire st (.streamRejected statsReasonMaxStreams)
    else []
  else
    match m.find f.streamId with
    | none => []
    | some (r, s) =>
        if routesAsMsg f.kind then
          match s.tryDeliver f with
          | some _ => fire st (.msgReceived r s.method f.payload.length)
          | none => fire st (.streamRejected statsReasonRecvOverflow)
        else []

/-! ## The system -/

/-- Where a call of `serveStream` stands. -/
inductive ServePc where
  /-- The handler is not looked up yet. -/
  | start
  /-- `StreamStarted` has fired, and the handler chain runs. -/
  | running
  /-- The chain has returned; `StreamEnded` is next. -/
  | returned (st : Status)
  /-- In `end`, before the write of END. -/
  | ending (st : Status) (trailers : Option Headers)
  /-- In `end`, before the deferred `failWith`. -/
  | failing (st : Status)
  /-- The deferred `remove` is next. -/
  | removing
  | done
  deriving DecidableEq

/-- A call of `serveStream`; the method is that of its stream, which nothing
changes. -/
structure Task where
  method : Text
  pc : ServePc := .start
  deriving DecidableEq

/-- The call is between the two callbacks. -/
def Task.inside (method : Text) (t : Task) : Bool :=
  decide (t.method = method) &&
    match t.pc with
    | .running | .returned _ => true
    | _ => false

/-- What the lookup and the middleware come to. -/
inductive Wrapped where
  /-- No handler, and none for unknown methods. -/
  | unknown
  /-- A middleware panics while it wraps. -/
  | panics (text : Text)
  /-- A chain to call.  It may be nil, and then the call panics at once. -/
  | chain
  deriving DecidableEq

/-- What a call of `serveStream` does next. -/
inductive ServeAct where
  /-- The lookup and the middleware. -/
  | begin (w : Wrapped)
  /-- The handler chain returns. -/
  | returns (err : Option GoError)
  /-- The handler chain panics, in the handler or in a middleware. -/
  | panics (text : Text)
  /-- `StreamEnded`. -/
  | ended
  /-- `end` writes END. -/
  | write
  /-- `failWith`, deferred by `end`. -/
  | fail
  /-- `remove`, deferred by `serveStream`. -/
  | ret
  deriving DecidableEq

inductive Act where
  /-- The read loop routes a frame. -/
  | frame (f : Frame)
  | connLost
  /-- A handler works on its stream, or the stream's context ends. -/
  | op (r : Ref) (o : StreamOp)
  /-- The call of `serveStream` for a stream goes on. -/
  | serve (r : Ref) (a : ServeAct)
  deriving DecidableEq

/-- The act is a panic of a handler chain. -/
def Act.isPanic : Act → Bool
  | .serve _ (.panics _) => true
  | _ => false

/-- A server connection.  `tasks` are the calls of `serveStream`, by reference:
`onOpen` makes one for every stream of the mux. -/
structure Conn where
  mux : Mux
  tasks : List Task := []
  /-- The callbacks that have fired. -/
  fired : List Event := []
  /-- The END frames given to the connection. -/
  ends : List (Ref × Frame) := []
  /-- The methods of the handler chains that have panicked (not part of the
  program's state). -/
  panicked : List Text := []

/-- END has been written. -/
def ServePc.wrote : ServePc → Prop
  | .failing _ | .removing | .done => True
  | _ => False

/-- The answer to a method without a handler. -/
def unknownMethod (method : Text) : Status :=
  { code := Code.unimplemented, message := "unknown method ".toUTF8 ++ method }

namespace Conn

/-- The call for stream `r` goes on to `pc`. -/
def goto (x : Conn) (r : Ref) (t : Task) (pc : ServePc) : Conn :=
  { x with tasks := x.tasks.set r { t with pc := pc } }

section Model

variable (st : ServerStats)

/-- A callback fires. -/
def tell (x : Conn) (e : Event) : Conn := { x with fired := x.fired ++ fire (some st) e }

/-- The read loop routes a frame; `onOpen` starts a `serveStream`. -/
def takeFrame (x : Conn) (f : Frame) : Conn :=
  { x with
    mux := (x.mux.route f).1
    tasks := x.tasks ++ (x.mux.route f).2.toList.map fun _ => { method := f.method }
    fired := x.fired ++ routed (some st) x.mux f }

/-- The lookup, the middleware, and `StreamStarted`. -/
def beginWith (x : Conn) (r : Ref) (t : Task) : Wrapped → Conn
  | .unknown => x.goto r t (.ending (unknownMethod t.method) none)
  | .panics text => x.goto r t (.ending (Serve.panicStatus text) none)
  | .chain => (x.goto r t .running).tell st (.streamStarted r t.method)

/-- `serveStream` on the stream `s`, which has reference `r`. -/
def serveStream (x : Conn) (r : Ref) (t : Task) (s : Stream) : ServeAct → Option Conn
  | .begin w => if t.pc = .start then some (x.beginWith st r t w) else none
  | .returns err =>
      if t.pc = .running then
        some (x.goto r t (.returned ((fromError err).getD { code := Code.ok })))
      else none
  | .panics text =>
      if t.pc = .running then
        some { x.goto r t (.ending (Serve.panicStatus text) none) with
          panicked := x.panicked ++ [t.method] }
      else none
  | .ended =>
      match t.pc with
      | .returned e =>
          some ((x.goto r t (.ending e s.takeTrailer)).tell st (.streamEnded r t.method e.code))
      | _ => none
  | .write =>
      match t.pc with
      | .ending e trailers =>
          some { x.goto r t (.failing e) with ends := x.ends ++ [(r, s.endFrameOf e trailers)] }
      | _ => none
  | .fail =>
      match t.pc with
      | .failing e =>
          some { x.goto r t .removing with mux := x.mux.setObj r (s.failWith (some (.status e))) }
      | _ => none
  | .ret =>
      if t.pc = .removing then some { x.goto r t .done with mux := x.mux.remove s.id } else none

def step (x : Conn) : Act → Option Conn
  | .frame f => some (x.takeFrame st f)
  | .connLost => some { x with mux := x.mux.failAll x.mux.disconnectErr }
  | .op r o => (x.mux.objs[r]?).map fun s => { x with mux := x.mux.setObj r (o.run s).1 }
  | .serve r a =>
      (x.tasks[r]?).bind fun t => (x.mux.objs[r]?).bind fun s => x.serveStream st r t s a

end Model

/-- A fresh server connection with window `W` and cap `N`. -/
def start (W N : ℤ) : Conn := { mux := newMuxConfig true W N }

/-! ## What a step does -/

variable {st : ServerStats} {x x' : Conn}

/-- What a call of `serveStream` can do in one step: where it goes, the callbacks it
fires, the END it writes, and the method whose chain has panicked. -/
inductive Moves (st : ServerStats) (r : Ref) (t : Task) (s : Stream) :
    ServePc → List Event → List (Ref × Frame) → List Text → Prop
  /-- There is no handler, or a middleware has panicked while it wrapped. -/
  | refused (e : Status) : t.pc = .start → Moves st r t s (.ending e none) [] [] []
  | started : t.pc = .start →
      Moves st r t s .running (fire (some st) (.streamStarted r t.method)) [] []
  | returned (e : Status) : t.pc = .running → Moves st r t s (.returned e) [] [] []
  | panicked (e : Status) : t.pc = .running → Moves st r t s (.ending e none) [] [] [t.method]
  | told (e : Status) : t.pc = .returned e → Moves st r t s (.ending e s.takeTrailer)
      (fire (some st) (.streamEnded r t.method e.code)) [] []
  | wrote (e : Status) (trailers : Option Headers) : t.pc = .ending e trailers →
      Moves st r t s (.failing e) [] [(r, s.endFrameOf e trailers)] []
  | failed (e : Status) : t.pc = .failing e → Moves st r t s .removing [] [] []
  | gone : t.pc = .removing → Moves st r t s .done [] [] []

/-- **What `serveStream` does in one step.** -/
theorem serveStream_moves {r : Ref} {t : Task} {s : Stream} {a : ServeAct}
    (h : x.serveStream st r t s a = some x') :
    ∃ pc es fs ps, Moves st r t s pc es fs ps ∧ x'.tasks = x.tasks.set r { t with pc := pc } ∧
      x'.fired = x.fired ++ es ∧ x'.ends = x.ends ++ fs ∧ x'.panicked = x.panicked ++ ps ∧
      (ps = [] ↔ (Act.serve r a).isPanic = false) := by
  cases a with
  | begin w =>
      simp only [serveStream] at h
      split_ifs at h with hpc
      obtain rfl := Option.some.inj h
      cases w with
      | unknown => exact ⟨_, _, _, _, .refused _ hpc, rfl, by simp [beginWith, goto, Act.isPanic]⟩
      | panics text => exact ⟨_, _, _, _, .refused _ hpc, rfl, by simp [beginWith, goto, Act.isPanic]⟩
      | chain => exact ⟨_, _, _, _, .started hpc, rfl, rfl, by simp [beginWith, goto, tell, Act.isPanic]⟩
  | returns err =>
      simp only [serveStream] at h
      split_ifs at h with hpc
      obtain rfl := Option.some.inj h
      exact ⟨_, _, _, _, .returned _ hpc, rfl, by simp [goto, Act.isPanic]⟩
  | panics text =>
      simp only [serveStream] at h
      split_ifs at h with hpc
      obtain rfl := Option.some.inj h
      exact ⟨_, _, _, _, .panicked _ hpc, rfl, by simp [goto, Act.isPanic]⟩
  | ended =>
      simp only [serveStream] at h
      split at h
      · rename_i e hpc
        obtain rfl := Option.some.inj h
        exact ⟨_, _, _, _, .told e hpc, rfl, rfl, by simp [goto, tell, Act.isPanic]⟩
      · cases h
  | write =>
      simp only [serveStream] at h
      split at h
      · rename_i e trailers hpc
        obtain rfl := Option.some.inj h
        exact ⟨_, _, _, _, .wrote e trailers hpc, rfl, by simp [goto, Act.isPanic]⟩
      · cases h
  | fail =>
      simp only [serveStream] at h
      split at h
      · rename_i e hpc
        obtain rfl := Option.some.inj h
        exact ⟨_, _, _, _, .failed e hpc, rfl, by simp [goto, Act.isPanic]⟩
      · cases h
  | ret =>
      simp only [serveStream] at h
      split_ifs at h with hpc
      obtain rfl := Option.some.inj h
      exact ⟨_, _, _, _, .gone hpc, rfl, by simp [goto, Act.isPanic]⟩

theorem isOther_of_mem_fire {st : Option ServerStats} {e e' : Event} (he : e.IsOther)
    (h : e' ∈ fire st e) : e'.IsOther := by
  unfold fire at h
  split_ifs at h
  · rwa [List.mem_singleton.1 h]
  · cases h

/-- Routing starts and ends no stream. -/
theorem isOther_of_mem_routed {st : Option ServerStats} {m : Mux} {f : Frame} {e : Event}
    (h : e ∈ routed st m f) : e.IsOther := by
  unfold routed at h
  split at h
  · split_ifs at h
    · exact isOther_of_mem_fire (by trivial) h
    · cases h
  · split at h
    · cases h
    · split_ifs at h
      · split at h
        · exact isOther_of_mem_fire (by trivial) h
        · exact isOther_of_mem_fire (by trivial) h
      · cases h

/-- **What a step does**: a call of `serveStream` moves, or new calls may begin and
callbacks fire that are about no start and no end. -/
theorem step_cases {a : Act} (h : x.step st a = some x') :
    (a.isPanic = false ∧ ∃ fresh es, (∀ t ∈ fresh, t.pc = .start) ∧ (∀ e ∈ es, e.IsOther) ∧
      x'.tasks = x.tasks ++ fresh ∧ x'.fired = x.fired ++ es ∧ x'.ends = x.ends ∧
      x'.panicked = x.panicked) ∨
    ∃ r t s pc es fs ps, x.tasks[r]? = some t ∧ Moves st r t s pc es fs ps ∧
      x'.tasks = x.tasks.set r { t with pc := pc } ∧ x'.fired = x.fired ++ es ∧
      x'.ends = x.ends ++ fs ∧ x'.panicked = x.panicked ++ ps ∧ (ps = [] ↔ a.isPanic = false) := by
  cases a with
  | frame f =>
      obtain rfl := Option.some.inj h
      refine Or.inl ⟨rfl, (x.mux.route f).2.toList.map fun _ => { method := f.method },
        routed (some st) x.mux f, ?_, fun e he => isOther_of_mem_routed he, rfl, rfl, rfl, rfl⟩
      intro t ht
      obtain ⟨-, -, rfl⟩ := List.mem_map.1 ht
      rfl
  | connLost =>
      obtain rfl := Option.some.inj h
      exact Or.inl ⟨rfl, [], [], by simp⟩
  | op r o =>
      obtain ⟨s, -, rfl⟩ := Option.map_eq_some_iff.1 h
      exact Or.inl ⟨rfl, [], [], by simp⟩
  | serve r a =>
      obtain ⟨t, ht, h⟩ := Option.bind_eq_some_iff.1 h
      obtain ⟨s, -, h⟩ := Option.bind_eq_some_iff.1 h
      obtain ⟨pc, es, fs, ps, hm, hx⟩ := serveStream_moves h
      exact Or.inr ⟨r, t, s, pc, es, fs, ps, ht, hm, hx⟩

/-! ## Starts and ends, per method -/

/-- The streams of a method that were started are those that were ended, those whose
chain has panicked, and those still inside. -/
def Counts (x : Conn) : Prop :=
  ∀ method, x.fired.countP (Event.startOf method) = x.fired.countP (Event.endOf method) +
    x.panicked.countP (· = method) + x.tasks.countP (Task.inside method)

theorem countP_other {p : Event → Bool} (hp : ∀ e, e.IsOther → p e = false) {es : List Event}
    (h : ∀ e ∈ es, e.IsOther) : es.countP p = 0 :=
  List.countP_eq_zero.2 fun e he => by simp [hp e (h e he)]

theorem countP_set_task {l : List Task} {r : Ref} {t : Task} (h : l[r]? = some t) (t' : Task)
    (p : Task → Bool) :
    (l.set r t').countP p + (if p t then 1 else 0) = l.countP p + if p t' then 1 else 0 := by
  obtain ⟨hlt, rfl⟩ := List.getElem?_eq_some_iff.1 h
  have hpos : p l[r] = true → 0 < l.countP p :=
    fun hp => List.countP_pos_iff.2 ⟨_, List.getElem_mem hlt, hp⟩
  rw [List.countP_set hlt]
  split_ifs <;> simp_all

/-- One move keeps the books. -/
theorem Moves.counts {r : Ref} {t : Task} {s : Stream} {pc : ServePc} {es : List Event}
    {fs : List (Ref × Frame)} {ps : List Text} (hs : st.streamStarted = true)
    (he : st.streamEnded = true) (h : Moves st r t s pc es fs ps) (method : Text) :
    es.countP (Event.startOf method) + (if t.inside method then 1 else 0) =
      es.countP (Event.endOf method) + ps.countP (· = method) +
        if Task.inside method { t with pc := pc } then 1 else 0 := by
  cases h with
  | refused e hpc => simp [Task.inside, hpc]
  | started hpc =>
      rw [fire_some (by exact hs)]
      simp [Task.inside, hpc, Event.startOf, Event.endOf, List.countP_singleton]
  | returned e hpc => simp [Task.inside, hpc]
  | panicked e hpc =>
      by_cases hm : t.method = method <;> simp [Task.inside, hpc, hm]
  | told e hpc =>
      rw [fire_some (by exact he)]
      simp [Task.inside, hpc, Event.startOf, Event.endOf, List.countP_singleton]
  | wrote e trailers hpc => simp [Task.inside, hpc]
  | failed e hpc => simp [Task.inside, hpc]
  | gone hpc => simp [Task.inside, hpc]

theorem Counts.step (hs : st.streamStarted = true) (he : st.streamEnded = true) (hx : Counts x)
    {a : Act} (h : x.step st a = some x') : Counts x' := by
  intro method
  have hc := hx method
  rcases step_cases h with ⟨-, fresh, es, hfresh, hes, ht, hf, -, hp⟩ |
    ⟨r, t, s, pc, es, fs, ps, hr, hm, ht, hf, -, hp, -⟩
  · -- the new calls are not inside, and nothing started or ended
    have hin : fresh.countP (Task.inside method) = 0 :=
      List.countP_eq_zero.2 fun t ht => by simp [Task.inside, hfresh t ht]
    have hst : es.countP (Event.startOf method) = 0 :=
      countP_other (by rintro (_ | _ | _ | _) <;> simp [Event.IsOther, Event.startOf]) hes
    have hen : es.countP (Event.endOf method) = 0 :=
      countP_other (by rintro (_ | _ | _ | _) <;> simp [Event.IsOther, Event.endOf]) hes
    rw [ht, hf, hp]
    simp only [List.countP_append, hin, hst, hen]
    omega
  · have hmove := hm.counts hs he method
    have hset := countP_set_task hr { t with pc := pc } (Task.inside method)
    rw [ht, hf, hp]
    simp only [List.countP_append]
    omega

/-! ## The code of the answer -/

/-- The call for stream `r`, of which `StreamEnded` was told `c`, is about to answer
with that code, or has. -/
def Answers (ends : List (Ref × Frame)) (r : Ref) (c : Code) : ServePc → Prop
  | .start | .running | .returned _ => False
  | .ending e _ => e.code = c
  | .failing _ | .removing | .done =>
      (∃ f, (r, f) ∈ ends) ∧ ∀ f, (r, f) ∈ ends → (statusFromProto f.status).code = c

/-- What `StreamEnded` was told, and the END frames written, against the calls. -/
structure Answered (x : Conn) : Prop where
  told : ∀ r method c, .streamEnded r method c ∈ x.fired →
    ∃ t, x.tasks[r]? = some t ∧ Answers x.ends r c t.pc
  wrote : ∀ r f, (r, f) ∈ x.ends → ∃ t, x.tasks[r]? = some t ∧ t.pc.wrote

/-- What the others have written does not matter. -/
theorem Answers.append {ends fs : List (Ref × Frame)} {r : Ref} {c : Code} {pc : ServePc}
    (h : Answers ends r c pc) (hfs : ∀ f, (r, f) ∉ fs) : Answers (ends ++ fs) r c pc := by
  cases pc with
  | start | running | returned e => exact h
  | ending e trailers => exact h
  | failing e | removing | done =>
      obtain ⟨⟨f, hf⟩, hall⟩ := h
      refine ⟨⟨f, List.mem_append_left _ hf⟩, fun g hg => ?_⟩
      rcases List.mem_append.1 hg with hg | hg
      · exact hall g hg
      · exact absurd hg (hfs g)

/-- Only the stream that moves writes. -/
theorem Moves.of_mem {r : Ref} {t : Task} {s : Stream} {pc : ServePc} {es : List Event}
    {fs : List (Ref × Frame)} {ps : List Text} (h : Moves st r t s pc es fs ps) {p : Ref × Frame}
    (hp : p ∈ fs) : p.1 = r ∧ pc.wrote := by
  cases h with
  | wrote e trailers hpc => exact ⟨by rw [List.mem_singleton.1 hp], trivial⟩
  | refused | started | returned | panicked | told | failed | gone => cases hp

theorem Moves.wrote_mono {r : Ref} {t : Task} {s : Stream} {pc : ServePc} {es : List Event}
    {fs : List (Ref × Frame)} {ps : List Text} (h : Moves st r t s pc es fs ps)
    (ht : t.pc.wrote) : pc.wrote := by
  cases h with
  | refused e hpc | started hpc | returned e hpc | panicked e hpc | told e hpc =>
      rw [hpc] at ht; exact ht.elim
  | wrote e trailers hpc => trivial
  | failed e hpc => trivial
  | gone hpc => trivial

/-- The call that moves keeps to the code `StreamEnded` was told. -/
theorem Moves.answers {r : Ref} {t : Task} {s : Stream} {pc : ServePc} {es : List Event}
    {fs ends : List (Ref × Frame)} {ps : List Text} {c : Code} (h : Moves st r t s pc es fs ps)
    (hends : (∃ f, (r, f) ∈ ends) → t.pc.wrote) (ha : Answers ends r c t.pc) :
    Answers (ends ++ fs) r c pc := by
  cases h with
  | refused e hpc | started hpc | returned e hpc | panicked e hpc | told e hpc =>
      rw [hpc] at ha; exact ha.elim
  | wrote e trailers hpc =>
      rw [hpc] at ha hends
      refine ⟨⟨_, List.mem_append_right _ (List.mem_singleton_self _)⟩, fun f hf => ?_⟩
      rcases List.mem_append.1 hf with hf | hf
      · exact (hends ⟨f, hf⟩).elim
      · obtain rfl := (Prod.mk.inj (List.mem_singleton.1 hf)).2
        rw [Stream.endFrameOf, statusFromProto_statusToProto]
        exact ha
  | failed e hpc => rw [hpc] at ha; simpa [Answers] using ha
  | gone hpc => rw [hpc] at ha; simpa [Answers] using ha

/-- `StreamEnded` fires on the way to `end`, with the code of its status. -/
theorem Moves.of_told {r r' : Ref} {t : Task} {s : Stream} {pc : ServePc} {es : List Event}
    {fs : List (Ref × Frame)} {ps : List Text} {method : Text} {c : Code}
    (h : Moves st r t s pc es fs ps) (hm : .streamEnded r' method c ∈ es) (ends : List (Ref × Frame)) :
    r' = r ∧ Answers ends r c pc := by
  cases h with
  | refused | returned | panicked | wrote | failed | gone => cases hm
  | started hpc =>
      unfold fire at hm
      split_ifs at hm <;> simp at hm
  | told e hpc =>
      unfold fire at hm
      split_ifs at hm
      · obtain ⟨rfl, -, rfl⟩ : r' = r ∧ method = t.method ∧ c = e.code := by simpa using hm
        exact ⟨rfl, rfl⟩
      · cases hm

theorem Answered.step (hx : Answered x) {a : Act} (h : x.step st a = some x') : Answered x' := by
  rcases step_cases h with ⟨-, fresh, es, -, hes, ht, hf, he, -⟩ |
    ⟨r, t, s, pc, es, fs, ps, hr, hm, ht, hf, he, -, -⟩
  · -- calls are added at the end, so the others keep their place
    have hkeep : ∀ {r : Ref} {t : Task}, x.tasks[r]? = some t → x'.tasks[r]? = some t := by
      intro r t hr
      rw [ht, List.getElem?_append_left (List.getElem?_eq_some_iff.1 hr).1]
      exact hr
    constructor
    · intro r method c hmem
      rw [hf] at hmem
      rcases List.mem_append.1 hmem with hmem | hmem
      · obtain ⟨t, hr, ha⟩ := hx.told r method c hmem
        exact ⟨t, hkeep hr, he ▸ ha⟩
      · exact (hes _ hmem).elim
    · intro r f hmem
      obtain ⟨t, hr, hw⟩ := hx.wrote r f (he ▸ hmem)
      exact ⟨t, hkeep hr, hw⟩
  · have hset : x'.tasks[r]? = some { t with pc := pc } := by
      rw [ht, List.getElem?_set_self (List.getElem?_eq_some_iff.1 hr).1]
    have hkeep : ∀ {r' : Ref} {t' : Task}, r' ≠ r → x.tasks[r']? = some t' → x'.tasks[r']? = some t' := by
      intro r' t' hne hr'
      rw [ht, List.getElem?_set_ne hne.symm]
      exact hr'
    have hends : (∃ f, (r, f) ∈ x.ends) → t.pc.wrote := by
      rintro ⟨f, hmem⟩
      obtain ⟨t', hr', hw⟩ := hx.wrote r f hmem
      obtain rfl := Option.some.inj (hr.symm.trans hr')
      exact hw
    constructor
    · intro r' method c hmem
      rw [hf] at hmem
      rw [he]
      rcases List.mem_append.1 hmem with hmem | hmem
      · obtain ⟨t', hr', ha⟩ := hx.told r' method c hmem
        by_cases hrr : r' = r
        · subst hrr
          obtain rfl := Option.some.inj (hr.symm.trans hr')
          exact ⟨_, hset, hm.answers hends ha⟩
        · exact ⟨t', hkeep hrr hr', ha.append fun f hf => hrr (hm.of_mem hf).1⟩
      · obtain ⟨rfl, ha⟩ := hm.of_told hmem (x.ends ++ fs)
        exact ⟨_, hset, ha⟩
    · intro r' f hmem
      rw [he] at hmem
      by_cases hrr : r' = r
      · subst hrr
        refine ⟨_, hset, ?_⟩
        rcases List.mem_append.1 hmem with hmem | hmem
        · exact hm.wrote_mono (hends ⟨f, hmem⟩)
        · exact (hm.of_mem hmem).2
      · rcases List.mem_append.1 hmem with hmem | hmem
        · obtain ⟨t', hr', hw⟩ := hx.wrote r' f hmem
          exact ⟨t', hkeep hrr hr', hw⟩
        · exact absurd (hm.of_mem hmem).1 hrr

/-! ## Whole runs -/

/-- **The books of a run.**  In every state of every run, per method, the streams
started are the streams ended, the chains that have panicked and the streams inside. -/
theorem started_eq (hs : st.streamStarted = true) (he : st.streamEnded = true) (W N : ℤ)
    (h : Reach (step st) Always (start W N) x) : Counts x :=
  h.invariant (P := Counts) (fun _ => rfl) fun _ _ _ hx _ h => hx.step hs he h

/-- **`StreamEnded` is told the code of END**, or what `end` is about to write. -/
theorem ended_answered (W N : ℤ) (h : Reach (step st) Always (start W N) x) : Answered x := by
  refine h.invariant (P := Answered) ⟨?_, ?_⟩ fun _ _ _ hx _ h => hx.step h
  · intro r method c hmem; cases hmem
  · intro r f hmem; cases hmem

/-- The panics of a run are its acts that panic. -/
theorem panicked_eq_nil_iff {acts : List Act} :
    ∀ {x}, exec (step st) Always x acts = some x' →
      (x'.panicked = [] ↔ x.panicked = [] ∧ ∀ a ∈ acts, a.isPanic = false) := by
  induction acts with
  | nil => intro x h; cases h; simp
  | cons a acts ih =>
      intro x h
      rw [exec_always_cons] at h
      obtain ⟨y, hy, h⟩ := Option.bind_eq_some_iff.1 h
      have hstep : y.panicked = [] ↔ x.panicked = [] ∧ a.isPanic = false := by
        rcases step_cases hy with ⟨ha, _, _, _, _, _, _, _, hp⟩ |
          ⟨_, _, _, _, _, _, ps, _, _, _, _, _, hp, hps⟩
        · rw [hp, ha]; simp
        · rw [hp, List.append_eq_nil_iff, hps]
      rw [ih h, hstep, List.forall_mem_cons, and_assoc]

/-- The two callbacks balance, per method. -/
def Balanced (x : Conn) : Prop :=
  ∀ method, x.fired.countP (Event.startOf method) = x.fired.countP (Event.endOf method)

/-- Every `StreamEnded` was told the code of the END of its stream. -/
def CodesMatch (x : Conn) : Prop :=
  ∀ r method c, .streamEnded r method c ∈ x.fired →
    (∃ f, (r, f) ∈ x.ends) ∧ ∀ f, (r, f) ∈ x.ends → (statusFromProto f.status).code = c

/-- No call of `serveStream` is running. -/
def Idle (x : Conn) : Prop := ∀ t ∈ x.tasks, t.pc = .done

instance (x : Conn) : Decidable x.Idle := inferInstanceAs (Decidable (∀ t ∈ x.tasks, _))

theorem Counts.balanced_iff (hx : Counts x) (hidle : x.Idle) : x.Balanced ↔ x.panicked = [] := by
  have hin : ∀ method, x.tasks.countP (Task.inside method) = 0 := fun method =>
    List.countP_eq_zero.2 fun t ht => by simp [Task.inside, hidle t ht]
  constructor
  · intro hb
    -- the method of a chain that has panicked is out of balance
    cases hp : x.panicked with
    | nil => rfl
    | cons method rest =>
        have hc := hx method
        have hpos : 0 < x.panicked.countP (· = method) :=
          List.countP_pos_iff.2 ⟨method, by simp [hp], by simp⟩
        have hm := hb method
        have h0 := hin method
        omega
  · intro hp method
    have hc := hx method
    rw [hin method, hp] at hc
    simpa using hc

theorem Answered.codesMatch (hx : Answered x) (hidle : x.Idle) : x.CodesMatch := by
  intro r method c hmem
  obtain ⟨t, hr, ha⟩ := hx.told r method c hmem
  have hdone := hidle t (List.mem_of_getElem? hr)
  rw [hdone] at ha
  exact ha

/-- **The statistics balance exactly without panics.**  For every run of a server
connection that has come to rest, whatever was opened and however the handlers ended:
the streams started and ended are as many, per method, and every `StreamEnded` was told
the code of its END, if and only if no handler chain has panicked. -/
theorem stats_balanced_iff (hs : st.streamStarted = true) (he : st.streamEnded = true)
    (W N : ℤ) (acts : List Act) (h : exec (step st) Always (start W N) acts = some x)
    (hidle : x.Idle) : (x.Balanced ∧ x.CodesMatch) ↔ ∀ a ∈ acts, a.isPanic = false := by
  have hreach := reach_of_exec h
  have hp := panicked_eq_nil_iff h
  have hb := (started_eq hs he W N hreach).balanced_iff hidle
  have hc := (ended_answered W N hreach).codesMatch hidle
  rw [hb, hp, and_iff_left hc]
  simp [start]

/-- An OPEN of stream 1. -/
def openOne : Frame := { streamId := 1, kind := .kindOpen }

/-- The acts of a call that is over once its handler chain is. -/
def answer : List Act := [.serve 0 .write, .serve 0 .fail, .serve 0 .ret]

/-- An RPC whose handler returns. -/
def returning : List Act :=
  [.frame openOne, .serve 0 (.begin .chain), .serve 0 (.returns none), .serve 0 .ended] ++ answer

/-- An RPC whose handler panics. -/
def panicking : List Act :=
  [.frame openOne, .serve 0 (.begin .chain), .serve 0 (.panics .empty)] ++ answer

/-- An RPC whose handler returns: one start, one end. -/
theorem stats_balanced_iff_returns :
    ∃ x, exec (step {}) Always (start 4 0) returning = some x ∧ x.Idle ∧
      x.Balanced ∧ x.CodesMatch := by
  obtain ⟨x, hx⟩ : ∃ x, exec (step {}) Always (start 4 0) returning = some x := ⟨_, rfl⟩
  have hidle : x.Idle := by
    have : (exec (step {}) Always (start 4 0) returning).map (fun x => decide x.Idle) =
        some true := by decide
    rw [hx] at this
    simpa using this
  exact ⟨x, hx, hidle, (stats_balanced_iff rfl rfl 4 0 returning hx hidle).2 (by decide)⟩

/-- **A started stream that never ends.**  The handler panics; the peer gets its END
and the call is over, but `StreamStarted` stays without a `StreamEnded`. -/
theorem panic_leaks_stream :
    ∃ x, exec (step {}) Always (start 4 0) panicking = some x ∧ x.Idle ∧ x.ends.length = 1 ∧
      x.fired = [.streamStarted 0 .empty] ∧ ¬ x.Balanced := by
  refine ⟨_, rfl, by decide, rfl, rfl, ?_⟩
  intro hb
  exact absurd (hb .empty) (by decide)

end Conn

end WsProto.Go.Stats
