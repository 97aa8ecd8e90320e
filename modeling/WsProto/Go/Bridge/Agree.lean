import WsProto.Go.Bridge.Reply

/-!
# Where the two bridges agree

The response of an RPC through `GRPCRegistrar` and through the generated bridge, for a
method of each kind, with or without an interceptor that passes calls through, and for
all requests.

* `agree_iff` — the same frames reach the socket exactly if `Method.Agrees`;
* a bidirectional method is always served alike, and a server-streaming one unless the
  client sends no request: the registrar fails with `EOF`, the bridge runs the method on
  an empty request;
* a unary method that sets metadata is served alike only with an interceptor, because the
  bridge lets gRPC's metadata functions find a stream only then, and only if its response
  can be marshaled, because the bridge sends the metadata first;
* a client-streaming method is served alike if what it announces with `SendHeader` is all
  it has set up to its message, and it sends one message and returns nil, or none and an
  error: the bridge keeps pending headers, and all messages but the last, to itself;
* `bridges_differ` — a method of each of these three kinds that is not.
-/

namespace WsProto.Go.Bridge

open Serve

variable {Req Res : Type} (lib : Library Req Res)

/-! ## The condition -/

/-- A unary method called without a `ServerTransportStream` in its context. -/
def bareCall (impl : UnaryImpl Req Res) (req : Req) : Except GoError Res :=
  ((impl req).run (fun c s => (s, lib.noStream c)) ({} : MdSink)).2

/-- No HEADER with this metadata reaches the socket. -/
def Unheard (header : Option Headers) : Prop := ∀ h ∈ header, ¬ Headers.Utf8 h

/-- A unary method and a request that both bridges decode: with an interceptor the
response can be marshaled or there is no metadata to be read; without, the method sets
none that can be read, and answers as it does if the calls that set it fail. -/
def UnaryAgrees (cfg : BridgeConfig) (impl : UnaryImpl Req Res) (req : Req) : Prop :=
  let call := (impl req).run transportStream {}
  if cfg.unary then
    ∀ res e, call.2 = .ok res → lib.marshal res = .error e →
      Unheard call.1.takeHeader ∧
        (call.1.takeTrailer = none ∨ ¬ (statusOf (some e)).message.IsValidUTF8)
  else
    match call.2.bind lib.marshal, (bareCall lib impl req).bind lib.marshal with
    | .ok b, .ok b' => b = b' ∧ Unheard call.1.takeHeader ∧ call.1.takeTrailer = none
    | .error e, .error e' => readEnd (statusOf (some e)) none = readEnd (statusOf (some e')) none
    | _, _ => False

/-- A server-streaming method that has made the calls `cs` on an empty request and returned
`err` gives just the END that `EOF` gives. -/
structure SilentEOF (cs : List (Call Res)) (err : Option GoError) : Prop where
  header : readHeader (flushed lib none cs) = none
  payloads : sent lib cs = []
  ending : readEnd (statusOf err) (trailersOf none cs) = readEnd (statusOf (some .eof)) none

/-- A client-streaming method that has made the calls `cs` and returned `err` on the
registrar's stream, and `cs'` and `err'` on the shim: what goes out with its first
`SendHeader` or `SendMsg` is what its first `SendHeader` announces, it sends what the shim
answers with its last message, and the status and the trailers are the same. -/
structure ClientStreamAgrees (name : Text) (cs : List (Call Res)) (err : Option GoError)
    (cs' : List (Call Res)) (err' : Option GoError) : Prop where
  header : readHeader (flushed lib none cs) = readHeader (announced none cs')
  payloads : sent lib cs = (answer lib name (lastMsg none cs') err').1
  ending : readEnd (statusOf err) (trailersOf none cs) =
    readEnd (statusOf (answer lib name (lastMsg none cs') err').2) (trailersOf none cs')

/-- The condition under which both bridges give the same response. -/
def Method.Agrees (cfg : BridgeConfig) (name : Text) (x : Rpc) : Method Req Res → Prop
  | .unary impl =>
      match x.inbox with
      | b :: _ => ∀ req, lib.unmarshal b = .ok req → UnaryAgrees lib cfg impl req
      | [] =>
          x.fin = .eof →
            match lib.unmarshal [] with
            | .ok req => UnaryAgrees lib cfg impl req
            -- a request with required fields cannot be read from nothing
            | .error e =>
                (failed e).Alike (bridgeReply lib (bridgeUnary lib cfg impl lib.new).1
                  (bridgeUnary lib cfg impl lib.new).2)
  | .serverStream impl =>
      x.inbox = [] → x.fin = .eof →
        SilentEOF lib ((impl lib.new).calls (GrpcServerStream.service lib) { rpc := x })
          ((impl lib.new).run (GrpcServerStream.service lib) { rpc := x }).2
  | .clientStream impl =>
      ClientStreamAgrees lib name (impl.calls (GrpcServerStream.service lib) { rpc := x })
        (impl.run (GrpcServerStream.service lib) { rpc := x }).2
        (impl.calls (GrpcStream.service lib) { rpc := x, capturing := true })
        (impl.run (GrpcStream.service lib) { rpc := x, capturing := true }).2
  | .bidi _ => True

/-! ## Metadata -/

theorem readHeader_eq_none_iff (header : Option Headers) :
    readHeader (header.map some) = none ↔ Unheard header := by
  cases header with
  | none => simp [readHeader, Unheard]
  | some h => simp [readHeader, Unheard, Readable, Option.filter_some]

theorem readEnd_eq_iff (st : Status) (t : Option Headers) :
    readEnd st none = readEnd st t ↔ t = none ∨ ¬ st.message.IsValidUTF8 := by
  have hnone : Readable none := fun _ h => by cases h
  by_cases hst : st.message.IsValidUTF8
  · by_cases ht : Readable t
    · simp [readEnd, hst, ht, hnone, eq_comm]
    · have hne : t ≠ none := by
        rintro rfl
        exact ht hnone
      simp [readEnd, hst, ht, hnone, hne]
  · simp [readEnd, hst]

theorem mergeInto_eq_none_iff (sink : MdSink) :
    mergeInto none (sink.takeTrailer.getD ∅) = none ↔ sink.takeTrailer = none := by
  cases h : sink.takeTrailer with
  | none => simp [mergeInto]
  | some t =>
      have ht : t.entries ≠ [] := by
        have := (Option.filter_eq_some_iff.1 h).2
        simpa using this
      simp [mergeInto, ht]

/-- An error with metadata reads as the error alone. -/
theorem failed_alike_metadataReply (sink : MdSink) (e : GoError) :
    (failed e).Alike (metadataReply sink [] (some e)) ↔
      Unheard sink.takeHeader ∧
        (sink.takeTrailer = none ∨ ¬ (statusOf (some e)).message.IsValidUTF8) := by
  rw [← readHeader_eq_none_iff, ← mergeInto_eq_none_iff, ← readEnd_eq_iff]
  constructor
  · intro h
    exact ⟨h.header.symm, h.ending⟩
  · rintro ⟨hheader, hend⟩
    exact ⟨hheader.symm, rfl, hend⟩

/-- A response with metadata reads as a response without. -/
theorem metadataReply_alike (sink : MdSink) (b b' : Payload) :
    (metadataReply sink [b] none).Alike (metadataReply {} [b'] none) ↔
      b = b' ∧ Unheard sink.takeHeader ∧ sink.takeTrailer = none := by
  have hvalid : (statusOf none).message.IsValidUTF8 := by
    simp [statusOf, fromError, ByteArray.isValidUTF8_empty]
  have hend : readEnd (statusOf none) none =
      readEnd (statusOf none) (mergeInto none (sink.takeTrailer.getD ∅)) ↔
        sink.takeTrailer = none := by
    rw [readEnd_eq_iff, mergeInto_eq_none_iff]
    simp [hvalid]
  rw [← readHeader_eq_none_iff, ← hend]
  constructor
  · intro h
    exact ⟨List.singleton_inj.1 h.payloads, h.header, h.ending.symm⟩
  · rintro ⟨rfl, hheader, hending⟩
    exact ⟨hheader, rfl, hending.symm⟩

/-! ## Streaming methods -/

theorem failed_alike_streamReply (cs : List (Call Res)) (err : Option GoError) :
    (failed .eof).Alike (streamReply lib cs err) ↔ SilentEOF lib cs err :=
  ⟨fun h => ⟨h.header.symm, h.payloads.symm, h.ending.symm⟩,
    fun h => ⟨h.header.symm, h.payloads.symm, h.ending.symm⟩⟩

theorem streamReply_alike_capturedReply (name : Text) (cs : List (Call Res))
    (err : Option GoError) (cs' : List (Call Res)) (err' : Option GoError) :
    (streamReply lib cs err).Alike (capturedReply lib name cs' err') ↔
      ClientStreamAgrees lib name cs err cs' err' :=
  ⟨fun h => ⟨h.header, h.payloads, h.ending⟩, fun h => ⟨h.header, h.payloads, h.ending⟩⟩

/-! ## Unary methods -/

/-- The replies of a unary method whose request both bridges decode. -/
theorem unary_alike_iff (cfg : BridgeConfig) (impl : UnaryImpl Req Res) (req : Req) :
    (registrarReply lib ((unaryHandler cfg.unary impl (.ok req)).run transportStream {}).1
        ((unaryHandler cfg.unary impl (.ok req)).run transportStream {}).2).Alike
      (bridgeReply lib (bridgeUnary lib cfg impl req).1 (bridgeUnary lib cfg impl req).2) ↔
      UnaryAgrees lib cfg impl req := by
  have hcall : unaryHandler cfg.unary impl (.ok req) = impl req := by
    simp [unaryHandler, passThrough]
  rw [hcall, UnaryAgrees]
  generalize hrun : (impl req).run transportStream {} = call
  obtain ⟨sink, ret⟩ := call
  cases hcfg : cfg.unary with
  | true =>
      have hbridge : bridgeUnary lib cfg impl req = (sink, ret) := by
        simp [bridgeUnary, hcfg, passThrough, hrun]
      simp only [hbridge, if_true]
      cases ret with
      | error e => simpa [registrarReply, bridgeReply, Except.bind] using Reply.Alike.refl (failed e)
      | ok res =>
          cases hm : lib.marshal res with
          | error e =>
              simp only [registrarReply, bridgeReply, Except.bind, hm, failed_alike_metadataReply]
              constructor
              · intro h res' e' hres he
                cases hres
                rw [hm] at he
                cases he
                exact h
              · intro h
                exact h res e rfl hm
          | ok b =>
              simp only [registrarReply, bridgeReply, Except.bind, hm]
              refine iff_of_true (.refl _) fun res' e hres he => ?_
              cases hres
              rw [hm] at he
              cases he
  | false =>
      have hstill := Dialogue.run_fst_of_still (fun c (s : MdSink) => (s, lib.noStream c))
        (fun _ _ => rfl) (impl req) {}
      have hbridge : bridgeUnary lib cfg impl req = ({}, bareCall lib impl req) := by
        rw [bridgeUnary, hcfg, if_neg Bool.false_ne_true]
        exact Prod.ext hstill rfl
      -- without metadata it does not matter when the response is marshaled
      have hbare : bridgeReply lib {} (bareCall lib impl req) =
          registrarReply lib {} (bareCall lib impl req) := by
        cases bareCall lib impl req with
        | error e => rfl
        | ok res =>
            simp only [bridgeReply, registrarReply, Except.bind]
            cases lib.marshal res <;> rfl
      simp only [hbridge, hbare, registrarReply, Bool.false_eq_true, if_false]
      cases ret.bind lib.marshal with
      | error e =>
          cases (bareCall lib impl req).bind lib.marshal with
          | error e' => exact ⟨fun h => h.ending, fun h => ⟨rfl, rfl, h⟩⟩
          | ok b' => exact iff_of_false (fun h => by cases h.payloads) id
      | ok b =>
          cases (bareCall lib impl req).bind lib.marshal with
          | error e' => exact iff_of_false (fun h => by cases h.payloads) id
          | ok b' => exact metadataReply_alike sink b b'

/-- The two answers to a unary call, from the received request on. -/
theorem answers_eq_iff (cfg : BridgeConfig) (impl : UnaryImpl Req Res) {raw : Payload} {req : Req}
    (hreq : lib.unmarshal raw = .ok req) {x : Rpc} (hx : Fresh x) :
    finish lib (registrarAnswer lib cfg impl x raw) = finish lib (handlerAnswer lib cfg impl x req) ↔
      UnaryAgrees lib cfg impl req := by
  rw [finish_registrarAnswer lib cfg impl raw hx, finish_handlerAnswer lib cfg impl req hx,
    filter_frames_eq_iff, hreq, unary_alike_iff]

/-- A request that cannot be decoded, in the registrar. -/
theorem registrarAnswer_of_error (cfg : BridgeConfig) (impl : UnaryImpl Req Res)
    {raw : Payload} {e : GoError} (he : lib.unmarshal raw = .error e) (x : Rpc) :
    registrarAnswer lib cfg impl x raw = (x, some e) := by
  rw [registrarAnswer, he]
  rfl

/-! ## The request -/

section Request

variable {s : Stream} {sock : List Frame} {b : Payload} {rest : List Payload} {fin : GoError}
  (run : Rpc → Req → Rpc × Option GoError)

theorem withRequest_ok {req : Req} (h : lib.unmarshal b = .ok req) :
    withRequest lib ⟨s, sock, b :: rest, fin⟩ run = run ⟨s, sock, rest, fin⟩ req := by
  simp [withRequest, Rpc.recv, Rpc.recvRaw, Except.bind, h]

theorem withRequest_error {e : GoError} (h : lib.unmarshal b = .error e) :
    withRequest lib ⟨s, sock, b :: rest, fin⟩ run = (⟨s, sock, rest, fin⟩, some e) := by
  have hne : e ≠ .eof := by
    rintro rfl
    exact lib.unmarshal_ne_eof b h
  simp [withRequest, Rpc.recv, Rpc.recvRaw, Except.bind, h, hne]

theorem withRequest_nil :
    withRequest lib ⟨s, sock, [], fin⟩ run =
      if fin = .eof then run ⟨s, sock, [], fin⟩ lib.new else (⟨s, sock, [], fin⟩, some fin) := by
  simp [withRequest, Rpc.recv, Rpc.recvRaw, Except.bind]

end Request

/-! ## The methods -/

theorem unary_agree_iff (cfg : BridgeConfig) (name : Text) (impl : UnaryImpl Req Res) {x : Rpc}
    (hx : Fresh x) :
    finish lib (registrar lib cfg (.unary impl) x) =
        finish lib (bridge lib cfg name (.unary impl) x) ↔
      (Method.unary impl).Agrees lib cfg name x := by
  obtain ⟨s, sock, inbox, fin⟩ := x
  cases inbox with
  | cons b rest =>
      have hy : Fresh ⟨s, sock, rest, fin⟩ := hx.recvRaw
      simp only [registrar, registrarUnary, Rpc.recvRaw, bridge, Method.Agrees]
      cases hb : lib.unmarshal b with
      | error e =>
          rw [registrarAnswer_of_error lib cfg impl hb, withRequest_error lib _ hb]
          exact iff_of_true rfl fun req hreq => by cases hreq
      | ok req =>
          rw [withRequest_ok lib _ hb, answers_eq_iff lib cfg impl hb hy]
          constructor
          · intro h req' hreq'
            cases hreq'
            exact h
          · intro h
            exact h req rfl
  | nil =>
      simp only [registrar, registrarUnary, Rpc.recvRaw, bridge, Method.Agrees, withRequest_nil]
      by_cases hfin : fin = .eof
      · simp only [hfin, if_true, true_imp_iff]
        subst hfin
        cases hnil : lib.unmarshal [] with
        | ok req =>
            obtain rfl := lib.unmarshal_nil req hnil
            exact answers_eq_iff lib cfg impl hnil hx
        | error e =>
            rw [registrarAnswer_of_error lib cfg impl hnil, finish_failed lib hx,
              finish_handlerAnswer lib cfg impl lib.new hx]
            exact filter_frames_eq_iff _ _ _
      · simp [hfin]

theorem serverStream_agree_iff (cfg : BridgeConfig) (name : Text)
    (impl : Req → StreamImpl Req Res) {x : Rpc} (hx : Fresh x) :
    finish lib (registrar lib cfg (.serverStream impl) x) =
        finish lib (bridge lib cfg name (.serverStream impl) x) ↔
      (Method.serverStream impl).Agrees lib cfg name x := by
  obtain ⟨s, sock, inbox, fin⟩ := x
  have hshim := fun y req => onShim_eq lib cfg (impl req) y
  simp only [bridge, hshim, Method.Agrees]
  cases inbox with
  | cons b rest =>
      refine iff_of_true ?_ fun h => by cases h
      cases hb : lib.unmarshal b with
      | error e =>
          rw [withRequest_error lib _ hb]
          simp [registrar, registrarStream, serverStreamHandler, Dialogue.run,
            GrpcServerStream.service, GrpcServerStream.recvMsg, Rpc.recvRaw, Except.bind, hb,
            passThrough]
      | ok req =>
          rw [withRequest_ok lib _ hb]
          simp [registrar, registrarStream, serverStreamHandler, Dialogue.run,
            GrpcServerStream.service, GrpcServerStream.recvMsg, Rpc.recvRaw, Except.bind, hb,
            passThrough]
  | nil =>
      have hreg : registrar lib cfg (.serverStream impl) ⟨s, sock, [], fin⟩ =
          (⟨s, sock, [], fin⟩, some fin) := by
        simp [registrar, registrarStream, serverStreamHandler, Dialogue.run,
          GrpcServerStream.service, GrpcServerStream.recvMsg, Rpc.recvRaw, Except.bind, passThrough]
      rw [hreg, withRequest_nil]
      by_cases hfin : fin = .eof
      · subst hfin
        simp only [if_true, true_imp_iff]
        rw [finish_failed lib hx, finish_registrarStream lib cfg _ hx, filter_frames_eq_iff,
          failed_alike_streamReply]
      · simp [hfin]

/-! ## Agreement -/

/-- A stream as the server accepts it, and the requests that will come. -/
def accepted (id : UInt32) (method : Text) (window : ℤ) (inbox : List Payload) (fin : GoError) :
    Rpc where
  stream := newStream none id method window
  inbox := inbox
  fin := fin

theorem fresh_accepted (id : UInt32) (method : Text) (window : ℤ) (inbox : List Payload)
    (fin : GoError) : Fresh (accepted id method window inbox fin) := ⟨rfl, rfl, rfl⟩

/-- **The bridges give the same response exactly if `Method.Agrees`.**  For every method of
every kind, however it reacts to what its calls return, with or without interceptors, and
for all requests, the frames that reach the socket are the same through `GRPCRegistrar` and
through the generated bridge if and only if the condition holds. -/
theorem agree_iff (cfg : BridgeConfig) (name : Text) (m : Method Req Res) (id : UInt32)
    (method : Text) (window : ℤ) (inbox : List Payload) (fin : GoError) :
    finish lib (registrar lib cfg m (accepted id method window inbox fin)) =
        finish lib (bridge lib cfg name m (accepted id method window inbox fin)) ↔
      m.Agrees lib cfg name (accepted id method window inbox fin) := by
  have hx := fresh_accepted id method window inbox fin
  generalize accepted id method window inbox fin = x at *
  cases m with
  | unary impl => exact unary_agree_iff lib cfg name impl hx
  | serverStream impl => exact serverStream_agree_iff lib cfg name impl hx
  | clientStream impl =>
      rw [registrar, bridge, finish_registrarStream lib cfg impl hx,
        finish_bridgeClientStream lib cfg name impl hx, filter_frames_eq_iff,
        streamReply_alike_capturedReply]
      rfl
  | bidi impl =>
      rw [registrar, bridge, onShim_eq]
      exact iff_of_true rfl trivial

/-- Messages that are their own encoding. -/
def plain : Library Payload Payload where
  marshal := .ok
  unmarshal := .ok
  new := []
  encode f := if f.Utf8 then .ok [] else .error (.other "invalid UTF-8".toUTF8)
  noStream _ := some (.grpc { code := Code.internal })
  unmarshal_nil _ h := (Except.ok.inj h).symm
  unmarshal_ne_eof _ h := by cases h
  encode_ok_iff f := by split <;> simp_all [Except.toOption]

/-- One key and one value. -/
def someMD : MD := AList.insert "k".toUTF8 ["v".toUTF8] ∅

/-- A unary method that sets a header. -/
def headerUnary : Method Payload Payload :=
  .unary fun _ => .call (.setHeader someMD) fun _ => .done (.ok [1])

/-- A server-streaming method that does nothing. -/
def idleServerStream : Method Payload Payload := .serverStream fun _ => .done none

/-- A client-streaming method that sets a header and answers. -/
def headerClientStream : Method Payload Payload :=
  .clientStream (.call (.setHeader someMD) fun _ => .call (.sendMsg [1]) fun err => .done err)

/-- **The bridges differ**, without interceptors.  The header of a unary method is lost by
the generated bridge, and so is that of a client-streaming method; a server-streaming
method whose client sends no request fails in the registrar and runs in the bridge. -/
theorem bridges_differ :
    finish plain (registrar plain {} headerUnary (accepted 1 .empty 4 [[]] .eof)) =
        [headerFrame 1 (flattenMD someMD), msgFrame 1 [1], endFrame 1 { code := Code.ok } none] ∧
      finish plain (bridge plain {} .empty headerUnary (accepted 1 .empty 4 [[]] .eof)) =
        [msgFrame 1 [1], endFrame 1 { code := Code.ok } none] ∧
      finish plain (registrar plain {} idleServerStream (accepted 1 .empty 4 [] .eof)) =
        [endFrame 1 { code := Code.unknown, message := "EOF".toUTF8 } none] ∧
      finish plain (bridge plain {} .empty idleServerStream (accepted 1 .empty 4 [] .eof)) =
        [endFrame 1 { code := Code.ok } none] ∧
      finish plain (registrar plain {} headerClientStream (accepted 1 .empty 4 [] .eof)) =
        [headerFrame 1 (flattenMD someMD), msgFrame 1 [1], endFrame 1 { code := Code.ok } none] ∧
      finish plain (bridge plain {} .empty headerClientStream (accepted 1 .empty 4 [] .eof)) =
        [msgFrame 1 [1], endFrame 1 { code := Code.ok } none] :=
  ⟨rfl, rfl, rfl, rfl, rfl, rfl⟩

end WsProto.Go.Bridge
