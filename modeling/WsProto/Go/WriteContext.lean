import WsProto.Lib.Run
import WsProto.Go.Ops

/-!
# Write contexts: one stream's end and its connection

Every write of a mux goes through `writeMu` to `WriteFrame`, with a context the
caller chooses: the operations of a stream pass the stream's own, `end` and the
control writer the mux's.  Of the connection the model assumes what its library
documents: if the context of a write is done when the write starts, or becomes
done before it completes, the whole connection may be closed, and every later
read and write fails.  The read loop then runs `failAll`.

* `not_failed_of_live` — as long as every write made with a stream's context
  starts and completes before that context is done, `failAll` does not run;
* `cancel_fails_neighbour` — a stream whose deadline has fired can still send, and
  takes the other streams of the connection with it.
-/

namespace WsProto.Go.WriteContext

open Machine

/-! ## The model -/

/-- The context a write is made with. -/
inductive WriteCtx where
  | stream (r : Ref)
  | mux
  deriving DecidableEq

/-- A call of `Mux.write`, and the `failWith` that follows it when it is the
write of `end`. -/
structure Write where
  ctx : WriteCtx
  frame : Frame
  thenEnd : Option (Ref × Status) := none
  deriving DecidableEq

/-- A mux and its connection. -/
structure Conn where
  mux : Mux
  /-- The calls of `write` that wait for `writeMu`. -/
  waiting : List Write := []
  /-- The call inside `WriteFrame`. -/
  writing : Option Write := none
  /-- What went out. -/
  socket : List Frame := []
  /-- The connection was closed under a write. -/
  broken : Bool := false
  /-- The streams `failAll` has failed; `none` until it runs. -/
  failed : Option (List Ref) := none
  deriving DecidableEq

inductive Act where
  | op (r : Ref) (o : StreamOp)
  /-- `end` begins: its write uses the mux's context. -/
  | callEnd (r : Ref) (st : Status) (trailers : Option Headers)
  /-- The control writer takes a frame. -/
  | ctrl
  /-- A waiting call gets `writeMu` and enters `WriteFrame`. -/
  | lock (i : ℕ)
  /-- The write in progress returns. -/
  | finish
  /-- The connection closes, because the context of the write in progress is done. -/
  | closeConn
  | route (f : Frame)
  /-- `ReadFrame` fails on the closed connection. -/
  | readFail
  deriving DecidableEq

namespace Conn

/-- The context is done. -/
def done (m : Mux) : WriteCtx → Bool
  | .stream r => (m.objs[r]?).any (·.ctxErr.isSome)
  | .mux => m.ctxErr.isSome

/-- Queue a call of `write`. -/
def enqueue (x : Conn) (ctx : WriteCtx) : Option Frame → Conn
  | some f => { x with waiting := x.waiting ++ [{ ctx, frame := f }] }
  | none => x

/-- The `failWith` after the write of `end`. -/
def afterWrite (m : Mux) : Option (Ref × Status) → Mux
  | some (r, st) =>
      match m.objs[r]? with
      | some s => m.setObj r (s.failWith (some (.status st)))
      | none => m
  | none => m

def step (x : Conn) : Act → Option Conn
  | .op r o =>
      (x.mux.objs[r]?).map fun s =>
        { x with mux := x.mux.setObj r (o.run s).1 }.enqueue (.stream r) (o.run s).2
  | .callEnd r st trailers =>
      (x.mux.objs[r]?).map fun s =>
        { x with waiting := x.waiting ++
          [{ ctx := .mux, frame := s.endFrameOf st trailers, thenEnd := some (r, st) }] }
  | .ctrl =>
      match x.mux.ctrlCh with
      | [] => none
      | f :: rest => some ({ x with mux := { x.mux with ctrlCh := rest } }.enqueue .mux (some f))
  | .lock i =>
      if x.writing = none then
        (x.waiting[i]?).map fun w =>
          { x with waiting := x.waiting.eraseIdx i, writing := some w }
      else none
  | .finish =>
      x.writing.map fun w =>
        { x with
          mux := afterWrite x.mux w.thenEnd
          writing := none
          socket := if x.broken then x.socket else x.socket ++ [w.frame] }
  | .closeConn =>
      if x.writing.any fun w => done x.mux w.ctx then some { x with broken := true } else none
  | .route f =>
      if x.broken = false ∧ x.failed = none then some { x with mux := (x.mux.route f).1 } else none
  | .readFail =>
      if x.broken = true ∧ x.failed = none then
        some { x with
          mux := { x.mux.failAll x.mux.disconnectErr with ctxErr := some .canceled }
          failed := some (x.mux.streams.entries.map (·.2)) }
      else none

/-! ## The condition and the invariant -/

variable {x x' : Conn}

/-- The condition on a step: a write enters `WriteFrame` with a live context, and
the context of a write in progress does not end. -/
def Live (x : Conn) : Act → Prop
  | .lock i => ∀ w ∈ x.waiting[i]?, done x.mux w.ctx = false
  | .op r o => o.endsCtx = true → ∀ w ∈ x.writing, w.ctx ≠ .stream r
  | .route f => ∀ y ∈ x.mux.find f.streamId, (y.2.onFrame x.mux.server f).overflows = true →
      ∀ w ∈ x.writing, w.ctx ≠ .stream y.1
  | _ => True

instance (x : Conn) : (a : Act) → Decidable (Live x a)
  | .lock _ => inferInstanceAs (Decidable (∀ w ∈ _, _))
  | .op _ _ => inferInstanceAs (Decidable (_ → ∀ w ∈ _, _))
  | .route _ => inferInstanceAs (Decidable (∀ y ∈ _, _))
  | .callEnd _ _ _ | .ctrl | .finish | .closeConn | .readFail => inferInstanceAs (Decidable True)

/-- The connection stands, and the write in progress has a live context. -/
structure Inv (x : Conn) : Prop where
  broken : x.broken = false
  failed : x.failed = none
  mux : x.mux.ctxErr = none
  writing : ∀ w ∈ x.writing, done x.mux w.ctx = false

/-- Replacing a stream object leaves a live context live, if it is another
stream's or the object's own context is as before. -/
theorem done_setObj {m : Mux} {r : Ref} {s s' : Stream} {c : WriteCtx} (hs : m.objs[r]? = some s)
    (h : done m c = false) (hc : c ≠ .stream r ∨ s'.ctxErr = s.ctxErr) :
    done (m.setObj r s') c = false := by
  cases c with
  | mux => exact h
  | stream r' =>
      by_cases hr : r' = r
      · subst hr
        have hlt : r' < m.objs.length := (List.getElem?_eq_some_iff.1 hs).1
        have hsame : s'.ctxErr = s.ctxErr := hc.resolve_left (by simp)
        have hlive : s.ctxErr = none := by simpa [done, hs] using h
        simp [done, Mux.setObj, hlt, hsame, hlive]
      · simpa [done, Mux.setObj, List.getElem?_set_ne (Ne.symm hr)] using h

/-- Routing a frame changes at most one stream object, or adds one whose context
is the mux's. -/
theorem done_route {m : Mux} {f : Frame} {c : WriteCtx} (hm : m.ctxErr = none)
    (h : done m c = false)
    (hc : ∀ y ∈ m.find f.streamId, (y.2.onFrame m.server f).overflows = true → c ≠ .stream y.1) :
    done (m.route f).1 c = false := by
  have hctrl : ∀ (m : Mux) g, done (m.writeCtrl g) c = done m c := by
    intro m g
    cases c <;> simp [done]
  unfold Mux.route
  split
  · unfold Mux.routeOpen
    split_ifs
    · exact h
    · rw [hctrl]; exact h
    · rw [hctrl]; exact h
    · -- a new object, under a fresh reference
      cases c with
      | mux => exact h
      | stream r =>
          by_cases hr : r < m.objs.length
          · simpa [done, Mux.register, List.getElem?_append_left hr] using h
          · by_cases hr' : r = m.objs.length
            · subst hr'; simp [done, Mux.register, newStream, hm]
            · have : m.objs.length + 1 ≤ r := by
                rcases Nat.lt_or_ge r m.objs.length with h1 | h1
                · exact absurd h1 hr
                · exact Nat.lt_of_le_of_ne h1 (Ne.symm hr')
              simp [done, Mux.register, List.getElem?_eq_none, this]
  · unfold Mux.routeFrame
    split
    · exact h
    · rename_i r s hfind
      have hs := (Mux.find_eq_some.1 hfind).2
      have hover := hc (r, s) hfind
      have hkeep : (s.onFrame m.server f).overflows = false →
          (s.onFrame m.server f).stream.ctxErr = s.ctxErr := Stream.onFrame_ctxErr
      split
      · rename_i s' hr
        simp only [hr, Routed.overflows, Routed.stream] at hkeep
        exact done_setObj hs h (Or.inr (hkeep trivial))
      · rename_i s' hr
        simp only [hr, Routed.overflows, Routed.stream] at hkeep
        exact done_setObj hs h (Or.inr (hkeep trivial))
      · rename_i s' hr
        simp only [hr, Routed.overflows] at hover
        have hd : done (m.setObj r s') c = false := done_setObj hs h (Or.inl (hover trivial))
        rw [← hctrl (m.setObj r s')] at hd
        exact hd

/-! ## Every run -/

/-- A mux with any number of streams, before any write. -/
def start (m : Mux) : Conn := { mux := m }

theorem inv_step {a : Act} (hi : Inv x) (hk : Live x a) (h : x.step a = some x') : Inv x' := by
  cases a with
  | op r o =>
      obtain ⟨s, hs, rfl⟩ := Option.map_eq_some_iff.1 h
      have hset : Inv { x with mux := x.mux.setObj r (o.run s).1 } := by
        refine { hi with writing := fun w hw => done_setObj hs (hi.writing w hw) ?_ }
        cases he : o.endsCtx with
        | false => exact Or.inr ((o.run_spec s).2.2.1 he)
        | true => exact Or.inl (hk he w hw)
      cases (o.run s).2 with
      | none => exact hset
      | some f => exact { hset with }
  | callEnd r st trailers =>
      obtain ⟨s, hs, rfl⟩ := Option.map_eq_some_iff.1 h
      exact { hi with }
  | ctrl =>
      simp only [step] at h
      split at h
      · cases h
      · cases h
        refine { hi with writing := fun w hw => ?_ }
        have := hi.writing w hw
        cases hc : w.ctx <;> simpa [enqueue, done, hc] using this
  | lock i =>
      obtain ⟨-, h⟩ := Option.ite_none_right_eq_some.1 h
      obtain ⟨w, hw, rfl⟩ := Option.map_eq_some_iff.1 h
      refine { hi with writing := fun w' hw' => ?_ }
      obtain rfl : w = w' := by simpa using hw'
      exact hk w hw
  | finish =>
      obtain ⟨w, hw, rfl⟩ := Option.map_eq_some_iff.1 h
      refine { hi with mux := ?_, writing := by simp }
      have hmux := hi.mux
      unfold afterWrite
      split
      · split <;> exact hmux
      · exact hmux
  | closeConn =>
      obtain ⟨hd, -⟩ := Option.ite_none_right_eq_some.1 h
      obtain ⟨w, hw, hdone⟩ := (Option.any_eq_true _ _).1 hd
      have := hi.writing w hw
      simp [hdone] at this
  | route f =>
      obtain ⟨-, ⟨⟩⟩ := Option.ite_none_right_eq_some.1 h
      refine { hi with
        mux := by rw [(x.mux.route_mux f).1]; exact hi.mux
        writing := fun w hw => done_route hi.mux (hi.writing w hw) ?_ }
      intro y hy hover
      exact hk y hy hover w hw
  | readFail =>
      obtain ⟨⟨hb, -⟩, -⟩ := Option.ite_none_right_eq_some.1 h
      simp [hi.broken] at hb

/-- **One stream's end leaves the others alone**, in every run in which each write
made with a stream's context enters `WriteFrame` with that context live, and the
context does not end before the write returns: the connection stands, and
`failAll` has failed no stream. -/
theorem not_failed_of_live (m : Mux) (hm : m.ctxErr = none) {x : Conn}
    (h : Reach step Live (start m) x) : x.failed = none ∧ x.broken = false := by
  have hi : Inv x := h.invariant ⟨rfl, rfl, hm, by simp [start]⟩
    fun _ _ _ hi hk hs => inv_step hi hk hs
  exact ⟨hi.failed, hi.broken⟩

/-- A mux with two live streams. -/
def twoStreams : Mux :=
  { server := false
    streams := (AList.insert 3 1 (AList.insert 1 0 ∅))
    objs := [newStream none 1 .empty 4, newStream none 3 .empty 4] }

/-- The first stream sends, and only then is it cancelled. -/
theorem not_failed_of_live_two :
    ∃ x, Reach step Live (start twoStreams) x ∧ x.socket.map (·.streamId) = [1] ∧
      (x.mux.objs.map (·.ctxErr.isSome)) = [true, false] ∧ x.failed = none ∧ x.broken = false := by
  obtain ⟨x, hx, hp⟩ := exists_reach_of_exec step Live (start twoStreams)
    (fun x => decide (x.socket.map (·.streamId) = [1] ∧
      (x.mux.objs.map (·.ctxErr.isSome)) = [true, false]))
    [.op 0 (.sendRaw [7]), .lock 0, .finish, .op 0 (.expire .canceled)] (by decide)
  simp only [decide_eq_true_eq] at hp
  exact ⟨x, hx, hp.1, hp.2, not_failed_of_live twoStreams rfl hx⟩

/-- **A cancelled stream takes its neighbours with it.**  The deadline of the
first stream fires; it sends, which an open window allows; its write starts with a
done context, the connection is closed, and `failAll` fails the second stream with
`Unavailable`, although its own context was never touched. -/
theorem cancel_fails_neighbour :
    ∃ x, Reach step Always (start twoStreams) x ∧ x.failed = some [1, 0] ∧
      (x.mux.objs[1]?).map (fun s => s.endSt.map (·.code)) = some (some Code.unavailable) := by
  obtain ⟨x, hx, hp⟩ := exists_reach_of_exec step Always (start twoStreams)
    (fun x => decide (x.failed = some [1, 0] ∧
      (x.mux.objs[1]?).map (fun s => s.endSt.map (·.code)) = some (some Code.unavailable)))
    [.op 0 (.expire .deadlineExceeded), .op 0 (.sendRaw [7]), .lock 0, .closeConn, .readFail]
    (by decide)
  simp only [decide_eq_true_eq] at hp
  exact ⟨x, hx, hp⟩

end Conn

end WsProto.Go.WriteContext
