import WsProto.Lib.Utf8
import WsProto.Go.Ops

/-!
# Answering an RPC

`Server.serveStream` (`wsrpc/server.go`): find the handler, wrap it in the
middleware, run it, and end the stream with the status of its outcome — an error, a
panic, or none — and the trailers it has set.  The connection is a `wsConn` that is
live: `WriteFrame` marshals the frame, and what is marshaled reaches the socket.
`proto.Marshal` is not part of the repository; it is a parameter that fails exactly
on frames with a string field that is not valid UTF-8.

* `end_written_iff` — exactly one END is written if and only if the texts of that
  END are valid UTF-8: the error of `end` is discarded, and nothing is written in
  its place;
* `error_text_loses_end` — an error with a byte that is no UTF-8 is never answered.

The deferred `remove` and the deadline's cancel function are left to the systems
that have a mux, the stats hooks to `Go.Stats`.
-/

namespace WsProto.Go.Serve

/-! ## gRPC metadata -/

/-- `metadata.MD`. -/
abbrev MD := AList (fun _ : Text => List Text)

/-- `FlattenMD`: the values of each key joined with a comma. -/
def flattenMD (md : MD) : Option Headers :=
  if md.entries = [] then none
  else
    some
      ⟨md.entries.map fun e => ⟨e.1, Utf8.join ",".toUTF8 e.2⟩, by
        have h := md.nodupKeys
        rw [List.NodupKeys, List.keys] at h ⊢
        rwa [List.map_map]⟩

/-- Every key and every value of the metadata is valid UTF-8. -/
def MD.Utf8 (md : MD) : Prop :=
  ∀ e ∈ md.entries, e.1.IsValidUTF8 ∧ ∀ v ∈ e.2, v.IsValidUTF8

/-! ## Handlers and middleware -/

/-- What happens to a stream while its handler runs. -/
inductive Event where
  /-- A call of the handler. -/
  | op (o : StreamOp)
  /-- The read loop routes a frame to the stream. -/
  | routed (f : Frame)
  deriving DecidableEq

/-- How a handler comes to its end. -/
inductive Outcome where
  | returned (err : Option GoError)
  /-- A panic; `text` is its value in the format `%v`. -/
  | panicked (text : Text)
  deriving DecidableEq

/-- A run of a handler on its stream. -/
structure Run where
  events : List Event := []
  outcome : Outcome
  deriving DecidableEq

/-- `Handler`: what it does on a stream.  `none` stands for the nil function where a
`Handler` may be nil. -/
abbrev Handler := Stream → Run

/-- `Middleware`.  Wrapping may panic, and may yield a nil handler. -/
abbrev Middleware := Option Handler → Except Text (Option Handler)

/-- `chain`: the first middleware listed is the outermost. -/
def chain (h : Option Handler) (mw : List Middleware) : Except Text (Option Handler) :=
  mw.foldrM (fun m h => m h) h

/-- The text of the panic that calling a nil function raises. -/
def nilDeref : Text := "runtime error: invalid memory address or nil pointer dereference".toUTF8

/-- Calling what `chain` gives. -/
def call (h : Except Text (Option Handler)) (s : Stream) : Run :=
  match h with
  | .error text => { outcome := .panicked text }
  | .ok none => { outcome := .panicked nilDeref }
  | .ok (some h) => h s

/-- `Server`, as far as `serveStream` reads it. -/
structure Server where
  handlers : AList (fun _ : Text => Option Handler) := ∅
  unknownHandler : Option Handler := none
  middleware : List Middleware := []

/-- The handler of a method: registered, or the one for unknown methods. -/
def Server.handler (srv : Server) (method : Text) : Option Handler :=
  (srv.handlers.lookup method).join.or srv.unknownHandler

/-! ## The connection -/

section Connection

variable (marshalFrame : Frame → Option (List UInt8))

/-- `wsConn.WriteFrame` on a live connection: the frames that have reached the
socket. -/
def writeFrame (sock : List Frame) (f : Frame) : List Frame :=
  match marshalFrame f with
  | none => sock
  | some _ => sock ++ [f]

/-- An event: what it does to the stream, and the frame it writes. -/
def Event.run (s : Stream) : Event → Stream × Option Frame
  | .op o => o.run s
  | .routed f => ((s.onFrame true f).stream, none)

/-- The stream after some events. -/
def after (s : Stream) (events : List Event) : Stream :=
  events.foldl (fun s e => (e.run s).1) s

/-- The socket after some events. -/
def written (s : Stream) (sock : List Frame) : List Event → List Frame
  | [] => sock
  | e :: rest =>
      written (e.run s).1
        (match (e.run s).2 with
          | none => sock
          | some f => writeFrame marshalFrame sock f) rest

/-- `end`: write END and, whatever becomes of the write, fail the stream. -/
def endStream (s : Stream) (sock : List Frame) (st : Status) (trailers : Option Headers) :
    Stream × List Frame :=
  (s.failWith (some (.status st)), writeFrame marshalFrame sock (s.endFrameOf st trailers))

/-- The status of a panic. -/
def panicStatus (text : Text) : Status :=
  { code := Code.internal, message := "wsrpc: panic: ".toUTF8 ++ text }

/-- `serveStream`. -/
def Server.serveStream (srv : Server) (s : Stream) (sock : List Frame) : Stream × List Frame :=
  match srv.handler s.method with
  | none =>
      endStream marshalFrame s sock
        { code := Code.unimplemented, message := "unknown method ".toUTF8 ++ s.method } none
  | some h =>
      let run := call (chain (some h) srv.middleware) s
      let s' := after s run.events
      let sock' := written marshalFrame s sock run.events
      match run.outcome with
      | .returned err =>
          endStream marshalFrame s' sock' ((fromError err).getD { code := Code.ok }) s'.takeTrailer
      | .panicked text => endStream marshalFrame s' sock' (panicStatus text) none

end Connection

/-! ## The texts of END -/

/-- What the condition asks of a server and a stream: the method if no handler is
found, and otherwise the text of the outcome and, unless the handler panicked, the
trailers it leaves, are valid UTF-8. -/
def Server.EndTexts (srv : Server) (s : Stream) : Prop :=
  match srv.handler s.method with
  | none => s.method.IsValidUTF8
  | some h =>
      let run := call (chain (some h) srv.middleware) s
      match run.outcome with
      | .returned err =>
          (∀ st ∈ fromError err, st.message.IsValidUTF8) ∧
            ∀ h ∈ (after s run.events).takeTrailer, Headers.Utf8 h
      | .panicked text => text.IsValidUTF8

instance (srv : Server) (s : Stream) : Decidable (srv.EndTexts s) :=
  match hh : srv.handler s.method with
  | none => decidable_of_iff s.method.IsValidUTF8 (by simp [Server.EndTexts, hh])
  | some h =>
      match ho : (call (chain (some h) srv.middleware) s).outcome with
      | .returned err =>
          decidable_of_iff ((∀ st ∈ fromError err, st.message.IsValidUTF8) ∧
            ∀ t ∈ (after s (call (chain (some h) srv.middleware) s).events).takeTrailer,
              Headers.Utf8 t) (by simp [Server.EndTexts, hh, ho])
      | .panicked text => decidable_of_iff text.IsValidUTF8 (by simp [Server.EndTexts, hh, ho])

/-- An END frame of stream `id`. -/
def isEnd (id : UInt32) (f : Frame) : Bool := decide (f.kind = .kindEnd ∧ f.streamId = id)

/-- A literal in front of a text. -/
theorem utf8_literal_append (lit : String) (t : Text) :
    (lit.toByteArray ++ t).IsValidUTF8 ↔ t.IsValidUTF8 :=
  Utf8.append_iff lit.isValidUTF8

theorem endFrameOf_utf8 (s : Stream) (st : Status) (trailers : Option Headers) :
    (s.endFrameOf st trailers).Utf8 ↔
      st.message.IsValidUTF8 ∧ ∀ h ∈ trailers, Headers.Utf8 h := by
  simp [Frame.Utf8, Stream.endFrameOf, statusToProto, ByteArray.isValidUTF8_empty, and_comm]

/-- No event touches the id. -/
theorem Event.run_id (e : Event) (s : Stream) : (e.run s).1.id = s.id := by
  cases e with
  | op o => exact (o.run_spec s).1
  | routed f => exact (s.onFrame_fixed true f).id

theorem after_id (s : Stream) (events : List Event) : (after s events).id = s.id := by
  induction events generalizing s with
  | nil => rfl
  | cons e rest ih => exact (ih _).trans (e.run_id s)

section Proofs

variable {marshalFrame : Frame → Option (List UInt8)}

/-- A frame reaches the socket exactly if its texts are UTF-8. -/
theorem writeFrame_eq (hm : ∀ f, (marshalFrame f).isSome ↔ f.Utf8) (sock : List Frame)
    (f : Frame) : writeFrame marshalFrame sock f = sock ++ [f].filter fun f => f.Utf8 := by
  have hf := hm f
  unfold writeFrame
  split
  · rename_i hnone
    simp_all
  · rename_i hsome
    simp_all

/-- What a write adds to the count of END frames. -/
theorem countP_writeFrame (hm : ∀ f, (marshalFrame f).isSome ↔ f.Utf8) (id : UInt32)
    (sock : List Frame) (f : Frame) :
    (writeFrame marshalFrame sock f).countP (isEnd id) =
      sock.countP (isEnd id) + if isEnd id f ∧ f.Utf8 then 1 else 0 := by
  rw [writeFrame_eq hm, List.countP_append]
  by_cases hf : f.Utf8
  · simp [hf, List.countP_singleton]
  · simp [hf]

/-- While the handler runs no END is written. -/
theorem countP_written (hm : ∀ f, (marshalFrame f).isSome ↔ f.Utf8) (id : UInt32)
    (events : List Event) (s : Stream) (sock : List Frame) :
    (written marshalFrame s sock events).countP (isEnd id) = sock.countP (isEnd id) := by
  induction events generalizing s sock with
  | nil => rfl
  | cons e rest ih =>
      rw [written, ih]
      split
      · rfl
      · rename_i f hf
        have hno : isEnd id f = false := by
          cases e with
          | op o =>
              rcases (o.run_writes s hf).1 with h | h | h | h <;> simp [isEnd, h]
          | routed g => cases hf
        rw [countP_writeFrame hm, hno]
        simp

/-- What `end` adds to the count. -/
theorem countP_endStream (hm : ∀ f, (marshalFrame f).isSome ↔ f.Utf8) (s : Stream)
    (sock : List Frame) (st : Status) (trailers : Option Headers) :
    (endStream marshalFrame s sock st trailers).2.countP (isEnd s.id) =
      sock.countP (isEnd s.id) +
        if st.message.IsValidUTF8 ∧ ∀ h ∈ trailers, Headers.Utf8 h then 1 else 0 := by
  have hend : isEnd s.id (s.endFrameOf st trailers) = true := by simp [isEnd, Stream.endFrameOf]
  rw [endStream, countP_writeFrame hm]
  simp only [hend, true_and, endFrameOf_utf8]

/-- What `serveStream` adds to the count: one END, or nothing. -/
theorem countP_serveStream (hm : ∀ f, (marshalFrame f).isSome ↔ f.Utf8) (srv : Server)
    (s : Stream) (sock : List Frame) :
    (srv.serveStream marshalFrame s sock).2.countP (isEnd s.id) =
      sock.countP (isEnd s.id) + if srv.EndTexts s then 1 else 0 := by
  -- the stream and the socket `end` finds after the handler
  have hrun : ∀ (run : Run) (st : Status) (trailers : Option Headers),
      (endStream marshalFrame (after s run.events) (written marshalFrame s sock run.events)
        st trailers).2.countP (isEnd s.id) = sock.countP (isEnd s.id) +
          if st.message.IsValidUTF8 ∧ ∀ h ∈ trailers, Headers.Utf8 h then 1 else 0 := by
    intro run st trailers
    rw [← countP_written hm s.id run.events s sock, ← after_id s run.events]
    exact countP_endStream hm _ _ st trailers
  unfold Server.serveStream
  split
  · rename_i hh
    rw [countP_endStream hm]
    simp [Server.EndTexts, hh, utf8_literal_append]
  · rename_i h hh
    dsimp only
    split
    · rename_i err ho
      rw [hrun]
      have hmsg : ((fromError err).getD { code := Code.ok }).message.IsValidUTF8 ↔
          ∀ st ∈ fromError err, st.message.IsValidUTF8 := by
        cases fromError err <;> simp [ByteArray.isValidUTF8_empty]
      simp only [Server.EndTexts, hh, ho, hmsg]
    · rename_i text ho
      rw [hrun]
      simp [Server.EndTexts, hh, ho, panicStatus, utf8_literal_append]

/-- Only `SetTrailer` touches the trailers. -/
theorem Event.run_outTrailer (e : Event) (s : Stream) :
    (e.run s).1.outTrailer = s.outTrailer ∨
      ∃ md, e = .op (.setTrailer md) := by
  cases e with
  | routed f => exact Or.inl (s.onFrame_fixed true f).outTrailer
  | op o =>
      by_cases hset : ∃ md, o = .setTrailer md
      · obtain ⟨md, rfl⟩ := hset
        exact Or.inr ⟨md, rfl⟩
      · exact Or.inl ((o.run_spec s).2.2.2 fun md h => hset ⟨md, h⟩)

/-- **An RPC is answered exactly when the texts of its answer are UTF-8.**  For every
server, handler outcome, middleware and trailers, `serveStream` adds exactly one END
for its stream to what the socket has, if and only if the texts that go into that END
are valid UTF-8. -/
theorem end_written_iff (hm : ∀ f, (marshalFrame f).isSome ↔ f.Utf8) (srv : Server)
    (s : Stream) (sock : List Frame) :
    (srv.serveStream marshalFrame s sock).2.countP (isEnd s.id) =
        sock.countP (isEnd s.id) + 1 ↔ srv.EndTexts s := by
  rw [countP_serveStream hm]
  split <;> simp_all

end Proofs

/-- A marshaller that fails exactly on texts that are not UTF-8. -/
def strictMarshal (f : Frame) : Option (List UInt8) := if f.Utf8 then some [] else none

theorem strictMarshal_isSome (f : Frame) : (strictMarshal f).isSome ↔ f.Utf8 := by
  unfold strictMarshal
  split <;> simp_all

/-- A server whose only handler returns `err` at once. -/
def returning (err : Option GoError) : Server :=
  { unknownHandler := some fun _ => { outcome := .returned err } }

/-- A server whose only handler panics at once. -/
def panicking (text : Text) : Server :=
  { unknownHandler := some fun _ => { outcome := .panicked text } }

/-- A handler that returns no error is answered, and so is one that returns an error or
panics with a readable text. -/
theorem end_written_iff_ok :
    (∀ f, (strictMarshal f).isSome ↔ f.Utf8) ∧
      ∀ srv ∈ [returning none, returning (some (.other "disk full".toUTF8)),
          panicking "nil map".toUTF8],
        (srv.serveStream strictMarshal (newStream none 1 .empty 4) []).2.countP (isEnd 1) = 1 := by
  refine ⟨strictMarshal_isSome, fun srv hsrv => ?_⟩
  refine (end_written_iff strictMarshal_isSome srv (newStream none 1 .empty 4) []).2 ?_
  simp only [List.mem_cons, List.not_mem_nil, or_false] at hsrv
  rcases hsrv with rfl | rfl | rfl
  · decide
  · decide
  · decide

/-- **An RPC that is never answered.**  The handler returns an error whose text has
the byte `0xff`; `proto.Marshal` refuses the END, and nothing is written. -/
theorem error_text_loses_end :
    (∀ f, (strictMarshal f).isSome ↔ f.Utf8) ∧
      ((returning (some (.other ⟨#[0xff]⟩))).serveStream strictMarshal
        (newStream none 1 .empty 4) []).2 = [] :=
  ⟨strictMarshal_isSome, by decide⟩

end WsProto.Go.Serve
