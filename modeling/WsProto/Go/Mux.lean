import WsProto.Lib.Visit
import WsProto.Go.Stream

/-!
# The Go mux

`wsrpc/mux.go`: many streams over one connection.  A stream is a pointer in the
source — a handler keeps using it after the registry has let go of it — so the
mux keeps every stream it ever made in `objs`, a reference is a position there,
and the registry `streams` maps an id to a reference.

`route` is the read loop's treatment of one inbound frame, cut at its critical
sections: the two checks an OPEN has to pass (`dupOpen`, `overCap`), the
registration (`register`), and for every other kind the effect on the stream
registered under the frame's id (`Stream.onFrame`).
-/

namespace WsProto.Go

/-- A reference to a stream object of a mux. -/
abbrev Ref := ℕ

/-- What a reference can point to once an object has been added. -/
theorem of_getElem?_concat {α : Type} {l : List α} {a b : α} {i : ℕ}
    (h : (l ++ [a])[i]? = some b) : l[i]? = some b ∨ (i = l.length ∧ b = a) := by
  by_cases hlt : i < l.length
  · rw [List.getElem?_append_left hlt] at h
    exact Or.inl h
  · have hi := (List.getElem?_eq_some_iff.1 h).1
    rw [List.length_append, List.length_singleton] at hi
    obtain rfl : i = l.length := by omega
    rw [List.getElem?_concat_length] at h
    exact Or.inr ⟨rfl, (Option.some.inj h).symm⟩

/-- `ctrlBufferSize`. -/
def ctrlBufferSize : ℕ := 256

/-- `Mux`. -/
structure Mux where
  /-- `onOpen != nil`. -/
  server : Bool
  nextID : UInt32 := 1
  streams : AList (fun _ : UInt32 => Ref) := ∅
  /-- Every stream made so far; a `Ref` is a position here. -/
  objs : List Stream := []
  initialWindow : ℤ := defaultInitialWindow
  /-- Cap on concurrent server streams; `0` or less is unlimited. -/
  maxStreams : ℤ := 0
  ctrlCh : List Frame := []
  /-- `m.ctx.Err()`. -/
  ctxErr : Option CtxErr := none
  closedFlag : Bool := false
  deriving DecidableEq

/-- `newMuxConfig`. -/
def newMuxConfig (server : Bool) (initialWindow maxStreams : ℤ) : Mux :=
  { server, initialWindow := windowOr initialWindow, maxStreams }

/-- The error of a stream whose backlog overflowed. -/
def overflowErr : GoError := errorf Code.resourceExhausted "wsrpc: receive buffer overflow"

/-- What the streams of a lost connection are failed with, after a deliberate
`Close` and otherwise. -/
def connLostErr (closed : Bool) : GoError :=
  if closed then errorf Code.canceled "wsrpc: transport closed"
  else errorf Code.unavailable "wsrpc: connection lost"

/-- An RST frame with a status. -/
def rstFrame (id : UInt32) (c : Code) (message : String) : Frame :=
  { streamId := id, kind := .kindRst
    status := some (statusToProto { code := c, message := message.toUTF8 }) }

/-- What routing a frame did to its stream. -/
inductive Routed where
  /-- The stream stays registered. -/
  | kept (s : Stream)
  /-- END or RST: the stream leaves the registry. -/
  | removed (s : Stream)
  /-- Overflow: the stream is failed, leaves the registry, and the peer gets an
  RST. -/
  | overflowed (s : Stream)
  deriving DecidableEq

/-- The stream leaves the registry. -/
def Routed.leaves : Routed → Bool
  | .kept _ => false
  | .removed _ | .overflowed _ => true

/-- The stream's backlog has overflowed. -/
def Routed.overflows : Routed → Bool
  | .kept _ | .removed _ => false
  | .overflowed _ => true

/-- The stream afterwards. -/
def Routed.stream : Routed → Stream
  | .kept s | .removed s | .overflowed s => s

/-- The kinds the `default` branch of `route` takes: MSG and everything unknown. -/
def routesAsMsg : Kind → Bool
  | .kindOpen | .kindHalfClose | .kindHeader | .kindWindowUpdate | .kindEnd | .kindRst => false
  | .kindMsg | .kindUnspecified | .kindOther _ => true

/-- `route` for a frame that is not OPEN, on the stream registered under its
id.  The `default` branch of the source is the MSG branch. -/
def Stream.onFrame (server : Bool) (s : Stream) (f : Frame) : Routed :=
  match f.kind with
  | .kindHalfClose => .kept s.halfClose
  | .kindHeader => .kept (if server then s else s.setLeadingHeader f.headers)
  | .kindWindowUpdate => .kept (s.creditSend f.window.toNat)
  | .kindEnd | .kindRst => .removed (s.signalEnd f)
  | _ =>
      match s.tryDeliver f with
      | some s' => .kept s'
      | none => .overflowed (s.failWith (some overflowErr))

/-- A stream the registry lets go of has ended. -/
theorem Stream.onFrame_ended {server : Bool} {s s' : Stream} {f : Frame}
    (h : s.onFrame server f = .removed s' ∨ s.onFrame server f = .overflowed s') :
    s'.ended = true := by
  unfold Stream.onFrame at h
  split at h
  · simp at h
  · simp at h
  · simp at h
  · rcases h with h | h
    · cases h; exact s.signalEnd_ended f
    · cases h
  · rcases h with h | h
    · cases h; exact s.signalEnd_ended f
    · cases h
  · split at h
    · simp at h
    · rcases h with h | h
      · cases h
      · cases h; exact s.failWith_ended _

/-- A stream whose context is done drops messages; it does not overflow. -/
theorem Stream.onFrame_overflows {server : Bool} {s : Stream} {f : Frame} (h : s.ctxErr ≠ none) :
    (s.onFrame server f).overflows = false := by
  unfold Stream.onFrame
  split
  · rfl
  · rfl
  · rfl
  · rfl
  · rfl
  · simp [Stream.tryDeliver, Stream.deliver, Option.isSome_iff_ne_none.2 h, Routed.overflows]

/-- What routing a frame leaves of a stream; a server takes no headers from one. -/
structure Stream.Fixed (server : Bool) (s t : Stream) : Prop where
  id : t.id = s.id
  method : t.method = s.method
  outTrailer : t.outTrailer = s.outTrailer
  headerSent : t.headerSent = s.headerSent
  msgSent : t.msgSent = s.msgSent
  header : server = true → t.header = s.header

theorem Stream.onFrame_fixed (server : Bool) (s : Stream) (f : Frame) :
    s.Fixed server (s.onFrame server f).stream := by
  unfold Stream.onFrame
  split
  · exact ⟨rfl, rfl, rfl, rfl, rfl, fun _ => rfl⟩
  · cases server with
    | false => exact ⟨rfl, rfl, rfl, rfl, rfl, Bool.noConfusion⟩
    | true => exact ⟨rfl, rfl, rfl, rfl, rfl, fun _ => rfl⟩
  · simp only [Routed.stream, Stream.creditSend]
    split <;> exact ⟨rfl, rfl, rfl, rfl, rfl, fun _ => rfl⟩
  · simp only [Routed.stream, Stream.signalEnd]
    split <;> exact ⟨rfl, rfl, rfl, rfl, rfl, fun _ => rfl⟩
  · simp only [Routed.stream, Stream.signalEnd]
    split <;> exact ⟨rfl, rfl, rfl, rfl, rfl, fun _ => rfl⟩
  · unfold Stream.tryDeliver Stream.deliver
    split_ifs <;> exact ⟨rfl, rfl, rfl, rfl, rfl, fun _ => rfl⟩

/-- A stream that has ended stays so. -/
theorem Stream.onFrame_ended_mono {server : Bool} {s : Stream} {f : Frame} (h : s.ended = true) :
    (s.onFrame server f).stream.ended = true := by
  unfold Stream.onFrame
  split
  · exact h
  · cases server <;> exact h
  · simp only [Routed.stream, Stream.creditSend]
    split <;> exact h
  · exact s.signalEnd_ended f
  · exact s.signalEnd_ended f
  · unfold Stream.tryDeliver Stream.deliver
    split_ifs
    · exact h
    · rfl
    · exact h

/-- Only an overflow ends the stream's context. -/
theorem Stream.onFrame_ctxErr {server : Bool} {s : Stream} {f : Frame}
    (h : (s.onFrame server f).overflows = false) : (s.onFrame server f).stream.ctxErr = s.ctxErr := by
  unfold Stream.onFrame at h ⊢
  split
  · rfl
  · cases server <;> rfl
  · simp only [Routed.stream, Stream.creditSend]
    split <;> rfl
  · simp only [Routed.stream, Stream.signalEnd]
    split <;> rfl
  · simp only [Routed.stream, Stream.signalEnd]
    split <;> rfl
  · unfold Stream.tryDeliver Stream.deliver at h ⊢
    split_ifs at h ⊢ <;> simp_all [Routed.overflows, Routed.stream, Stream.signalRecv]

namespace Mux

/-- `writeCtrl`: a full buffer drops the frame. -/
def writeCtrl (m : Mux) (f : Frame) : Mux :=
  if m.ctrlCh.length < ctrlBufferSize then { m with ctrlCh := m.ctrlCh ++ [f] } else m

@[simp] theorem writeCtrl_streams (m : Mux) (f : Frame) : (m.writeCtrl f).streams = m.streams := by
  rw [writeCtrl]; split <;> rfl

@[simp] theorem writeCtrl_objs (m : Mux) (f : Frame) : (m.writeCtrl f).objs = m.objs := by
  rw [writeCtrl]; split <;> rfl

@[simp] theorem writeCtrl_maxStreams (m : Mux) (f : Frame) :
    (m.writeCtrl f).maxStreams = m.maxStreams := by
  rw [writeCtrl]; split <;> rfl

@[simp] theorem writeCtrl_server (m : Mux) (f : Frame) : (m.writeCtrl f).server = m.server := by
  rw [writeCtrl]; split <;> rfl

@[simp] theorem writeCtrl_ctxErr (m : Mux) (f : Frame) : (m.writeCtrl f).ctxErr = m.ctxErr := by
  rw [writeCtrl]; split <;> rfl

/-- `remove`. -/
def remove (m : Mux) (id : UInt32) : Mux := { m with streams := m.streams.erase id }

/-- The stream registered under an id, with its reference. -/
def find (m : Mux) (id : UInt32) : Option (Ref × Stream) :=
  (m.streams.lookup id).bind fun r => (m.objs[r]?).map fun s => (r, s)

theorem find_eq_some {m : Mux} {id : UInt32} {r : Ref} {s : Stream} :
    m.find id = some (r, s) ↔ m.streams.lookup id = some r ∧ m.objs[r]? = some s := by
  simp only [find, Option.bind_eq_some_iff, Option.map_eq_some_iff, Prod.mk.injEq]
  constructor
  · rintro ⟨r', hl, s', ho, rfl, rfl⟩; exact ⟨hl, ho⟩
  · rintro ⟨hl, ho⟩; exact ⟨r, hl, s, ho, rfl, rfl⟩

/-- Replace a stream object. -/
def setObj (m : Mux) (r : Ref) (s : Stream) : Mux := { m with objs := m.objs.set r s }

/-! ## Admission of an OPEN -/

/-- The id of an OPEN is already registered. -/
def dupOpen (m : Mux) (f : Frame) : Bool := (m.streams.lookup f.streamId).isSome

/-- The registry is at its cap. -/
def overCap (m : Mux) : Bool :=
  decide (0 < m.maxStreams) && decide (m.maxStreams ≤ m.streams.keys.length)

/-- Make the stream of an OPEN that passed the checks and register it. -/
def register (m : Mux) (f : Frame) : Mux × Ref :=
  ({ m with
      objs := m.objs ++
        [{ newStream m.ctxErr f.streamId f.method m.initialWindow with header := f.headers }]
      streams := m.streams.insert f.streamId m.objs.length },
    m.objs.length)

/-- `route` for an OPEN: the mux, and the stream given to `onOpen`. -/
def routeOpen (m : Mux) (f : Frame) : Mux × Option Ref :=
  if !m.server then (m, none)
  else if m.dupOpen f then
    (m.writeCtrl (rstFrame f.streamId Code.internal "duplicate stream id"), none)
  else if m.overCap then
    (m.writeCtrl (rstFrame f.streamId Code.resourceExhausted
      "max concurrent streams exceeded"), none)
  else ((m.register f).1, some (m.register f).2)

/-! ## The other frames -/

/-- `route` for a frame that is not OPEN. -/
def routeFrame (m : Mux) (f : Frame) : Mux :=
  match m.find f.streamId with
  | none => m
  | some (r, s) =>
      match s.onFrame m.server f with
      | .kept s' => m.setObj r s'
      | .removed s' => (m.setObj r s').remove f.streamId
      | .overflowed s' =>
          ((m.setObj r s').writeCtrl
            (rstFrame f.streamId Code.resourceExhausted "receive buffer overflow")).remove
              f.streamId

/-- `route`. -/
def route (m : Mux) (f : Frame) : Mux × Option Ref :=
  if f.kind = .kindOpen then m.routeOpen f else (m.routeFrame f, none)

/-- Routing leaves the mux itself as it is. -/
theorem route_mux (m : Mux) (f : Frame) :
    (m.route f).1.ctxErr = m.ctxErr ∧ (m.route f).1.server = m.server := by
  unfold route
  split
  · unfold routeOpen
    split_ifs <;> simp [register]
  · unfold routeFrame
    split
    · exact ⟨rfl, rfl⟩
    · split
      · exact ⟨rfl, rfl⟩
      · exact ⟨rfl, rfl⟩
      · simp [remove, setObj]

/-! ## The end of the connection -/

/-- `disconnectErr`. -/
def disconnectErr (m : Mux) : GoError := connLostErr m.closedFlag

/-- `failAll`: fail every registered stream and empty the registry. -/
def failAll (m : Mux) (err : GoError) : Mux :=
  { m with
    objs := m.streams.entries.foldl (fun o e => o.modify e.2 (·.failWith (some err))) m.objs
    streams := ∅ }

/-- `failAll` keeps the stream objects. -/
theorem length_failAll (m : Mux) (err : GoError) : (m.failAll err).objs.length = m.objs.length :=
  Visit.length_foldl_modify _ _ m.streams.entries m.objs

/-- What the loop of `failAll` does to a stream: it keeps its id, an end or a done
context stays, and a stream in the list ends. -/
theorem foldl_failWith (err : GoError) {r : Ref} (l : List ((_ : UInt32) × Ref)) :
    ∀ (o : List Stream) (s : Stream), o[r]? = some s →
      ∃ s', (l.foldl (fun o e => o.modify e.2 (·.failWith (some err))) o)[r]? = some s' ∧
        s'.id = s.id ∧ (s.ended = true → s'.ended = true) ∧
        (s.ctxErr ≠ none → s'.ctxErr ≠ none) ∧ (r ∈ l.map (·.2) → s'.ended = true) := by
  intro o s hs
  have hctxErr : ∀ t : Stream, (t.failWith (some err)).ctxErr ≠ none := fun t => by
    simp [Stream.failWith, Stream.cancel]
  obtain ⟨s', hs', ⟨hid, hend, hctx⟩, hmem⟩ := Visit.exists_foldl_modify
    (g := (·.failWith (some err))) (Q := fun t => t.ended = true)
    (P := fun t => t.id = s.id ∧ (s.ended = true → t.ended = true) ∧
      (s.ctxErr ≠ none → t.ctxErr ≠ none))
    (fun t ht => ⟨ht.1, fun _ => t.failWith_ended (some err), fun _ => hctxErr t⟩)
    (fun t => t.failWith_ended (some err)) l hs ⟨rfl, id, id⟩
  exact ⟨s', hs', hid, hend, hctx, hmem⟩

/-- A registered stream does not outlive `failAll`. -/
theorem failAll_objs (m : Mux) (err : GoError) {r : Ref} {s : Stream} (hs : m.objs[r]? = some s) :
    ∃ s', (m.failAll err).objs[r]? = some s' ∧ s'.id = s.id ∧ (s.ended = true → s'.ended = true) ∧
      (s.ctxErr ≠ none → s'.ctxErr ≠ none) ∧
      ((∃ id, m.streams.lookup id = some r) → s'.ended = true) := by
  obtain ⟨s', hs', hid, hend, hctx, hmem⟩ := foldl_failWith err m.streams.entries m.objs s hs
  refine ⟨s', hs', hid, hend, hctx, ?_⟩
  rintro ⟨id, hl⟩
  exact hmem (List.mem_map.2 ⟨⟨id, r⟩, AList.mem_lookup_iff.1 hl, rfl⟩)

end Mux

end WsProto.Go
