import WsProto.Go.Stats
import WsProto.Ts.Mux

/-!
# Frames of an unknown kind

A frame whose kind is none of those the protocol defines, as a peer of a later version
might send.  The TypeScript mux ignores it.  The Go mux has no case for it, and its
`switch` falls to the branch of MSG.

* `Ts.Mux.route_unknown` — nothing happens in the TypeScript mux;
* `unknown_inert_iff` — the Go mux ignores the frame exactly if no stream is registered
  under its id, or that stream's context is done and nobody counts messages;
* `unknown_is_received` — otherwise the payload is received as a message.
-/

namespace WsProto

/-- None of the kinds the protocol defines. -/
def Kind.unknown : Kind → Bool
  | .kindUnspecified | .kindOther _ => true
  | .kindOpen | .kindMsg | .kindHalfClose | .kindEnd | .kindRst | .kindHeader
  | .kindWindowUpdate => false

/-! ## The TypeScript mux -/

namespace Ts.Mux

variable (size : Frame → ℕ)

theorem route_unknown (m : Mux) {f : Frame} (h : f.kind.unknown = true) :
    m.route size f = (m, none) := by
  unfold route
  split <;> simp_all [Kind.unknown]

end Ts.Mux

/-! ## The Go mux -/

namespace Go.Mux

variable {m : Mux} {f : Frame}

theorem routesAsMsg_of_unknown {k : Kind} (h : k.unknown = true) :
    routesAsMsg k = true ∧ k ≠ .kindOpen := by
  cases k <;> simp_all [Kind.unknown, routesAsMsg]

theorem onFrame_unknown (h : f.kind.unknown = true) (server : Bool) (s : Stream) :
    s.onFrame server f =
      (s.tryDeliver f).elim (.overflowed (s.failWith (some overflowErr))) .kept := by
  unfold Stream.onFrame
  split
  case h_6 => cases s.tryDeliver f <;> rfl
  all_goals simp_all [Kind.unknown]

/-- Nothing is registered under the frame's id. -/
theorem route_unregistered (h : f.kind.unknown = true) (hfind : m.find f.streamId = none) :
    m.route f = (m, none) := by
  rw [route, if_neg (routesAsMsg_of_unknown h).2, routeFrame, hfind]

theorem setObj_self {r : Ref} {s : Stream} (h : m.objs[r]? = some s) : m.setObj r s = m := by
  obtain ⟨hlt, rfl⟩ := List.getElem?_eq_some_iff.1 h
  rw [setObj, List.set_getElem_self]

/-- The stream's context is done: the frame is dropped. -/
theorem route_done (h : f.kind.unknown = true) {r : Ref} {s : Stream}
    (hfind : m.find f.streamId = some (r, s)) (hctx : s.ctxErr.isSome = true) :
    m.route f = (m, none) := by
  have hdeliver : s.tryDeliver f = some s := by simp [Stream.tryDeliver, Stream.deliver, hctx]
  rw [route, if_neg (routesAsMsg_of_unknown h).2, routeFrame, hfind]
  simp only [onFrame_unknown h, hdeliver, Option.elim_some, setObj_self (find_eq_some.1 hfind).2]

/-- The stream is live: its backlog grows, or it is reset. -/
theorem route_live (h : f.kind.unknown = true) {r : Ref} {s : Stream}
    (hfind : m.find f.streamId = some (r, s)) (hctx : s.ctxErr.isSome = false) :
    (m.route f).1 ≠ m := by
  obtain ⟨hlookup, hobj⟩ := find_eq_some.1 hfind
  have hlt : r < m.objs.length := (List.getElem?_eq_some_iff.1 hobj).1
  rw [route, if_neg (routesAsMsg_of_unknown h).2, routeFrame, hfind]
  simp only [onFrame_unknown h, Stream.tryDeliver, Stream.deliver, hctx, Bool.false_eq_true, if_false]
  intro heq
  split_ifs at heq
  · -- overflow: the stream has left the registry
    have hgone := congrArg (fun m : Mux => m.streams.lookup f.streamId) heq
    simp [Mux.remove, setObj, hlookup] at hgone
  · have hgrown := congrArg (fun m : Mux => m.objs[r]?) heq
    simp only [Option.elim_some, setObj, List.getElem?_set_self hlt, hobj] at hgrown
    have hitems := congrArg (fun s : Stream => s.recvItems.length) (Option.some.inj hgrown)
    simp [Stream.signalRecv] at hitems

/-- The frame meets no stream, or one that drops it and nobody counts it. -/
def Ignores (st : Option Stats.ServerStats) (m : Mux) (f : Frame) : Prop :=
  ∀ r s, m.find f.streamId = some (r, s) →
    s.ctxErr.isSome = true ∧ st.any (·.msgReceived) = false

theorem routed_unknown (st : Option Stats.ServerStats) (h : f.kind.unknown = true) {r : Ref}
    {s : Stream} (hfind : m.find f.streamId = some (r, s)) (hctx : s.ctxErr.isSome = true) :
    Stats.routed st m f = [] ↔ st.any (·.msgReceived) = false := by
  have hdeliver : s.tryDeliver f = some s := by simp [Stream.tryDeliver, Stream.deliver, hctx]
  rw [Stats.routed, if_neg (routesAsMsg_of_unknown h).2, hfind]
  simp only [(routesAsMsg_of_unknown h).1, if_true, hdeliver, Stats.fire, Stats.ServerStats.has]
  by_cases hany : st.any (·.msgReceived) = true <;> simp [hany]

end Go.Mux

/-! ## Both -/

/-- **Frames of an unknown kind are inert exactly where the Go mux has nobody to give them
to.**  For every Go mux and every TypeScript mux, and every frame of an unknown kind:
routing it changes neither mux, starts no handler and fires no callback, if and only if the
Go mux has no stream under the frame's id, or one whose context is done while no callback
counts messages. -/
theorem unknown_inert_iff (st : Option Go.Stats.ServerStats) (m : Go.Mux) (size : Frame → ℕ)
    (t : Ts.Mux) (f : Frame) (hf : f.kind.unknown = true) :
    (m.route f = (m, none) ∧ Go.Stats.routed st m f = [] ∧ t.route size f = (t, none)) ↔
      m.Ignores st f := by
  rw [and_iff_left (t.route_unknown size hf)]
  constructor
  · rintro ⟨hroute, hfired⟩ r s hfind
    cases hctx : s.ctxErr.isSome with
    | false => exact absurd (congrArg Prod.fst hroute) (Go.Mux.route_live hf hfind hctx)
    | true => exact ⟨rfl, (Go.Mux.routed_unknown st hf hfind hctx).1 hfired⟩
  · intro h
    cases hfind : m.find f.streamId with
    | none =>
        refine ⟨Go.Mux.route_unregistered hf hfind, ?_⟩
        rw [Go.Stats.routed, if_neg (Go.Mux.routesAsMsg_of_unknown hf).2, hfind]
    | some p =>
        obtain ⟨hctx, hnone⟩ := h p.1 p.2 hfind
        exact ⟨Go.Mux.route_done hf hfind hctx, (Go.Mux.routed_unknown st hf hfind hctx).2 hnone⟩

/-- A frame of kind 9. -/
def laterFrame : Frame := { streamId := 1, kind := .kindOther 9, payload := [7, 7, 7, 7, 7] }

/-- A server mux with one stream. -/
def oneStream : Go.Mux :=
  ((Go.newMuxConfig true 4 0).route { streamId := 1, kind := .kindOpen }).1

/-- On a mux without streams the frame is inert. -/
theorem unknown_inert_iff_empty :
    laterFrame.kind.unknown = true ∧
      (Go.newMuxConfig true 4 0).route laterFrame = (Go.newMuxConfig true 4 0, none) :=
  ⟨rfl, ((unknown_inert_iff (some {}) (Go.newMuxConfig true 4 0) (fun _ => 0)
    (Ts.Mux.new 4 4 0 true none) laterFrame rfl).2 fun _ _ h => by cases h).1⟩

/-- **A frame of kind 9 is received as a message**, and counted as one; the second resets
the stream. -/
theorem unknown_is_received :
    (((oneStream.route laterFrame).1.find 1).bind fun p => p.2.popRecv.map fun y => y.1.payload) =
        some laterFrame.payload ∧
      Go.Stats.routed (some {}) oneStream laterFrame = [.msgReceived 0 .empty 5] ∧
      ((oneStream.route laterFrame).1.route laterFrame).1.ctrlCh =
        [Go.rstFrame 1 Go.Code.resourceExhausted "receive buffer overflow"] :=
  ⟨rfl, rfl, rfl⟩

end WsProto
