import WsProto.Lib.Dialogue
import WsProto.Go.Serve

/-!
# The two gRPC bridges

A protoc-gen-go-grpc service can be served in two ways: through `GRPCRegistrar`
(`wsrpc/grpc_registrar.go`), which drives the gRPC handlers of the service, and through
the code protoc-gen-go-ws generates (`generator/adapter.go`, `generator/service.go`;
`example/proto/echo/v1/echo_ws.pb.go` is what it generates), `XxxFromGRPC` registered
with `RegisterXxxHandler`.

A method of the service is a program that calls its stream, or, if unary, gRPC's
metadata functions, and goes on by what they return.  The connection is live, the
client returns credit, so that a `SendRaw` that waits goes on, and the requests are given:
the payloads of the client, and what a receive returns after the last.  What the two
libraries outside the repository do is the structure `Library`.  WINDOW_UPDATE frames,
which acknowledge requests, are no part of the response.
-/

namespace WsProto.Go.Bridge

open Serve

/-! ## The libraries -/

/-- The calls of a unary method: `grpc.SetHeader`, `grpc.SendHeader`, `grpc.SetTrailer`. -/
inductive UnaryCall where
  | setHeader (md : MD)
  | sendHeader (md : MD)
  | setTrailer (md : MD)

/-- Protobuf and gRPC, for a method with requests `Req` and responses `Res`.  A message
has one encoding, the same for gRPC's codec and for `proto.Marshal`, which it calls. -/
structure Library (Req Res : Type) where
  /-- `proto.Marshal` of a response. -/
  marshal : Res → Except GoError Payload
  /-- `proto.Unmarshal` into a new request. -/
  unmarshal : Payload → Except GoError Req
  /-- `new(Req)`. -/
  new : Req
  /-- `proto.Marshal` of a frame. -/
  encode : Frame → Except GoError (List UInt8)
  /-- What a metadata function returns if the context has no `ServerTransportStream`. -/
  noStream : UnaryCall → Option GoError
  /-- No bytes set no field; what can still be missing is a required one. -/
  unmarshal_nil : ∀ r, unmarshal [] = .ok r → r = new
  /-- `io.EOF` is not an error of `proto.Unmarshal`. -/
  unmarshal_ne_eof : ∀ b, unmarshal b ≠ .error .eof
  /-- `proto.Marshal` refuses strings that are not UTF-8, and nothing else in a frame. -/
  encode_ok_iff : ∀ f, (encode f).toOption.isSome ↔ f.Utf8

/-! ## Metadata -/

/-- `for k, v := range md { out[k] = append(out[k], v...) }`.  The keys of `md` are
distinct, so the order of the range does not matter. -/
def appendMD (out md : MD) : MD :=
  md.entries.foldr (fun e out => out.insert e.1 ((out.lookup e.1).getD [] ++ e.2)) out

/-- `metadata.Join(pending, md)`; the nil map has no entries. -/
def join (pending : Option MD) (md : MD) : MD := appendMD (appendMD ∅ (pending.getD ∅)) md

/-- `for k, v := range md { m[k] = v }`, which makes the map if there is anything to
put in. -/
def mergeInto (m : Option Headers) (md : Headers) : Option Headers :=
  if md.entries = [] then m
  else some (md.entries.foldl (fun m e => m.insert e.1 e.2) (m.getD ∅))

/-- `mdSink`. -/
structure MdSink where
  header : Option Headers := none
  trailer : Option Headers := none

namespace MdSink

/-- `mergeHeader`. -/
def mergeHeader (s : MdSink) (md : Option Headers) : MdSink :=
  { s with header := mergeInto s.header (md.getD ∅) }

/-- `mergeTrailer`. -/
def mergeTrailer (s : MdSink) (md : Option Headers) : MdSink :=
  { s with trailer := mergeInto s.trailer (md.getD ∅) }

/-- `takeHeader`. -/
def takeHeader (s : MdSink) : Option Headers := s.header.filter fun h => h.entries ≠ []

/-- `takeTrailer`. -/
def takeTrailer (s : MdSink) : Option Headers := s.trailer.filter fun h => h.entries ≠ []

end MdSink

/-- `unaryServerTransportStream`, which gRPC's metadata functions find in the context:
all three put what they are given into the sink. -/
def transportStream (c : UnaryCall) (s : MdSink) : MdSink × Option GoError :=
  match c with
  | .setHeader md => (s.mergeHeader (flattenMD md), none)
  | .sendHeader md => (s.mergeHeader (flattenMD md), none)
  | .setTrailer md => (s.mergeTrailer (flattenMD md), none)

/-! ## Methods -/

/-- The calls of a streaming method on its `grpc.ServerStream`. -/
inductive Call (Res : Type) where
  | setHeader (md : MD)
  | sendHeader (md : MD)
  | setTrailer (md : MD)
  | recvMsg
  /-- `SendMsg`; `Send` and `SendAndClose` of the generated stream types call it. -/
  | sendMsg (m : Res)

/-- What a call returns. -/
@[reducible] def Call.Answer {Res : Type} (Req : Type) : Call Res → Type
  | .setTrailer _ => Unit
  | .recvMsg => Except GoError Req
  | .setHeader _ | .sendHeader _ | .sendMsg _ => Option GoError

/-- A unary method, from its request on. -/
abbrev UnaryImpl (Req Res : Type) :=
  Req → Dialogue UnaryCall (fun _ => Option GoError) (Except GoError Res)

/-- A streaming method on its stream. -/
abbrev StreamImpl (Req Res : Type) := Dialogue (Call Res) (Call.Answer Req) (Option GoError)

/-- A method of the service, of each kind. -/
inductive Method (Req Res : Type) where
  | unary (impl : UnaryImpl Req Res)
  | serverStream (impl : Req → StreamImpl Req Res)
  | clientStream (impl : StreamImpl Req Res)
  | bidi (impl : StreamImpl Req Res)

/-- `BridgeConfig`: which interceptors are installed.  They pass the call through. -/
structure BridgeConfig where
  unary : Bool := false
  stream : Bool := false

/-- An interceptor that calls the handler with what it is given and returns what it
returns. -/
def passThrough {α β : Type} (handler : α → β) (x : α) : β := handler x

section Serving

variable {Req Res : Type} (lib : Library Req Res)

/-! ## A stream of the server -/

/-- One RPC: the stream, the frames that have reached the socket, the requests not yet
received, and what a receive returns after them. -/
structure Rpc where
  stream : Stream
  sock : List Frame := []
  inbox : List Payload
  fin : GoError

/-- The marshaller of `WriteFrame`. -/
def Library.marshalFrame (f : Frame) : Option (List UInt8) := (lib.encode f).toOption

/-- The error of a call that returns nothing else. -/
def errOf {α : Type} : Except GoError α → Option GoError
  | .ok _ => none
  | .error e => some e

namespace Rpc

/-- `s.mux.write`. -/
def write (x : Rpc) (f : Frame) : Rpc × Option GoError :=
  ({ x with sock := writeFrame lib.marshalFrame x.sock f }, errOf (lib.encode f))

/-- `SendHeader`. -/
def sendHeader (x : Rpc) (md : Option Headers) : Rpc × Option GoError :=
  match x.stream.sendHeader md with
  | .error e => (x, some e)
  | .ok (s, f) => write lib { x with stream := s } f

/-- `SetTrailer`. -/
def setTrailer (x : Rpc) (md : Option Headers) : Rpc :=
  { x with stream := x.stream.setTrailer (md.getD ∅) }

/-- `SendRaw`, once the window is open. -/
def sendRaw (x : Rpc) (b : Payload) : Rpc × Option GoError :=
  write lib { x with stream := x.stream.chargeSend b.length } (x.stream.msgFrame b)

/-- `Send`. -/
def send (x : Rpc) (m : Res) : Rpc × Option GoError :=
  match lib.marshal m with
  | .error e => (x, some e)
  | .ok b => x.sendRaw lib b

/-- `RecvRaw`. -/
def recvRaw (x : Rpc) : Rpc × Except GoError Payload :=
  match x.inbox with
  | [] => (x, .error x.fin)
  | b :: rest => ({ x with inbox := rest }, .ok b)

/-- `Recv` into a new request. -/
def recv (x : Rpc) : Rpc × Except GoError Req :=
  (x.recvRaw.1, x.recvRaw.2.bind lib.unmarshal)

/-- `if h := sink.Header(); h != nil { _ = s.SendHeader(h) }`. -/
def flushHeader (x : Rpc) (h : Option Headers) : Rpc :=
  match h with
  | none => x
  | some h => (x.sendHeader lib (some h)).1

end Rpc

/-- The rest of `serveStream`, after the handler has returned: the socket. -/
def finish (x : Rpc × Option GoError) : List Frame :=
  (endStream lib.marshalFrame x.1.stream x.1.sock ((fromError x.2).getD { code := Code.ok })
    x.1.stream.takeTrailer).2

/-! ## `GRPCRegistrar` -/

/-- The handler protoc-gen-go-grpc generates for a unary method. -/
def unaryHandler (interceptor : Bool) (impl : UnaryImpl Req Res) (dec : Except GoError Req) :
    Dialogue UnaryCall (fun _ => Option GoError) (Except GoError Res) :=
  match dec with
  | .error e => .done (.error e)
  | .ok req => if interceptor then passThrough impl req else impl req

/-- `grpcRegistrar.unary`, once the request is received. -/
def registrarAnswer (cfg : BridgeConfig) (impl : UnaryImpl Req Res) (x : Rpc) (raw : Payload) :
    Rpc × Option GoError :=
  let call := (unaryHandler cfg.unary impl (lib.unmarshal raw)).run transportStream {}
  match call.2 with
  | .error e => (x, some e)
  | .ok res =>
      match lib.marshal res with
      | .error e => (x, some e)
      | .ok out =>
          ((x.flushHeader lib call.1.takeHeader).setTrailer call.1.takeTrailer).sendRaw lib out

/-- `grpcRegistrar.unary`. -/
def registrarUnary (cfg : BridgeConfig) (impl : UnaryImpl Req Res) (x : Rpc) :
    Rpc × Option GoError :=
  match x.recvRaw with
  | (x, .ok raw) => registrarAnswer lib cfg impl x raw
  | (x, .error e) => if e = .eof then registrarAnswer lib cfg impl x [] else (x, some e)

/-- `grpcServerStream`. -/
structure GrpcServerStream where
  rpc : Rpc
  /-- Leading headers, flushed on `SendHeader` or the first `SendMsg`. -/
  pending : Option MD := none

namespace GrpcServerStream

/-- `SetHeader`. -/
def setHeader (x : GrpcServerStream) (md : MD) : GrpcServerStream × Option GoError :=
  ({ x with pending := some (join x.pending md) }, none)

/-- `SendHeader`. -/
def sendHeader (x : GrpcServerStream) (md : MD) : GrpcServerStream × Option GoError :=
  let sent := x.rpc.sendHeader lib (flattenMD (join x.pending md))
  ({ rpc := sent.1, pending := none }, sent.2)

/-- `SetTrailer`. -/
def setTrailer (x : GrpcServerStream) (md : MD) : GrpcServerStream :=
  { x with rpc := x.rpc.setTrailer (flattenMD md) }

/-- `SendMsg` up to the codec: pending headers are sent, the error ignored. -/
def flush (x : GrpcServerStream) : GrpcServerStream :=
  match x.pending with
  | none => x
  | some md => { rpc := (x.rpc.sendHeader lib (flattenMD md)).1, pending := none }

/-- `SendMsg`. -/
def sendMsg (x : GrpcServerStream) (m : Res) : GrpcServerStream × Option GoError :=
  match lib.marshal m with
  | .error e => (x.flush lib, some e)
  | .ok out =>
      let sent := (x.flush lib).rpc.sendRaw lib out
      ({ x.flush lib with rpc := sent.1 }, sent.2)

/-- `RecvMsg`. -/
def recvMsg (x : GrpcServerStream) : GrpcServerStream × Except GoError Req :=
  ({ x with rpc := x.rpc.recvRaw.1 }, x.rpc.recvRaw.2.bind lib.unmarshal)

/-- The calls of a method on this stream. -/
def service (c : Call Res) (x : GrpcServerStream) : GrpcServerStream × c.Answer Req :=
  match c with
  | .setHeader md => x.setHeader md
  | .sendHeader md => x.sendHeader lib md
  | .setTrailer md => (x.setTrailer md, ())
  | .recvMsg => x.recvMsg lib
  | .sendMsg m => x.sendMsg lib m

end GrpcServerStream

/-- The handler protoc-gen-go-grpc generates for a server-streaming method. -/
def serverStreamHandler (impl : Req → StreamImpl Req Res) : StreamImpl Req Res :=
  .call .recvMsg fun
    | .error e => .done (some e)
    | .ok m => impl m

/-- `grpcRegistrar.stream`. -/
def registrarStream (cfg : BridgeConfig) (handler : StreamImpl Req Res) (x : Rpc) :
    Rpc × Option GoError :=
  let call := handler.run (GrpcServerStream.service lib)
  let ended := if cfg.stream then passThrough call { rpc := x } else call { rpc := x }
  (ended.1.rpc, ended.2)

/-- The handler `GRPCRegistrar` registers for a method. -/
def registrar (cfg : BridgeConfig) : Method Req Res → Rpc → Rpc × Option GoError
  | .unary impl => registrarUnary lib cfg impl
  | .serverStream impl => registrarStream lib cfg (serverStreamHandler impl)
  | .clientStream impl => registrarStream lib cfg impl
  | .bidi impl => registrarStream lib cfg impl

/-! ## The generated bridge -/

/-- The generated `grpc.ServerStream` shim. -/
structure GrpcStream (Res : Type) where
  rpc : Rpc
  capturing : Bool := false
  captured : Option Res := none
  pendingHeader : Option MD := none

namespace GrpcStream

variable (x : GrpcStream Res)

/-- `SetHeader`. -/
def setHeader (md : MD) : GrpcStream Res :=
  { x with pendingHeader := some (appendMD (x.pendingHeader.getD ∅) md) }

/-- `SendHeader`. -/
def sendHeader (md : MD) : GrpcStream Res × Option GoError :=
  let sent := x.rpc.sendHeader lib (flattenMD (appendMD (x.pendingHeader.getD ∅) md))
  ({ x with rpc := sent.1, pendingHeader := none }, sent.2)

/-- `SetTrailer`. -/
def setTrailer (md : MD) : GrpcStream Res := { x with rpc := x.rpc.setTrailer (flattenMD md) }

/-- The part of `SendMsg` that sends pending headers. -/
def flush : GrpcStream Res :=
  match x.pendingHeader with
  | none => x
  | some md => { x with rpc := (x.rpc.sendHeader lib (flattenMD md)).1, pendingHeader := none }

/-- `SendMsg`. -/
def sendMsg (m : Res) : GrpcStream Res × Option GoError :=
  if x.capturing then ({ x with captured := some m }, none)
  else
    let sent := (x.flush lib).rpc.send lib m
    ({ x.flush lib with rpc := sent.1 }, sent.2)

/-- `RecvMsg`. -/
def recvMsg : GrpcStream Res × Except GoError Req :=
  ({ x with rpc := (x.rpc.recv lib).1 }, (x.rpc.recv lib).2)

/-- The calls of a method on this stream. -/
def service (c : Call Res) (x : GrpcStream Res) : GrpcStream Res × c.Answer Req :=
  match c with
  | .setHeader md => (x.setHeader md, none)
  | .sendHeader md => x.sendHeader lib md
  | .setTrailer md => (x.setTrailer md, ())
  | .recvMsg => x.recvMsg lib
  | .sendMsg m => x.sendMsg lib m

end GrpcStream

/-- The generated unary method: the context gets a `ServerTransportStream` only if there
is an interceptor.  The sink is there in any case. -/
def bridgeUnary (cfg : BridgeConfig) (impl : UnaryImpl Req Res) (req : Req) :
    MdSink × Except GoError Res :=
  if cfg.unary then (passThrough impl req).run transportStream {}
  else (impl req).run (fun c s => (s, lib.noStream c)) {}

/-- The unary handler of `RegisterXxxHandler`, once the request is received. -/
def handlerAnswer (cfg : BridgeConfig) (impl : UnaryImpl Req Res) (x : Rpc) (req : Req) :
    Rpc × Option GoError :=
  let call := bridgeUnary lib cfg impl req
  match call.2 with
  | .error e => (x, some e)
  | .ok res => ((x.flushHeader lib call.1.takeHeader).setTrailer call.1.takeTrailer).send lib res

/-- The request of a method that takes one: none at all counts as an empty one. -/
def withRequest (x : Rpc) (run : Rpc → Req → Rpc × Option GoError) : Rpc × Option GoError :=
  match x.recv lib with
  | (x, .ok req) => run x req
  | (x, .error e) => if e = .eof then run x lib.new else (x, some e)

/-- The generated streaming methods: run the method on the shim, through the interceptor
if there is one. -/
def onShim (cfg : BridgeConfig) (impl : StreamImpl Req Res) (base : GrpcStream Res) :
    GrpcStream Res × Option GoError :=
  let h := impl.run (GrpcStream.service lib)
  if cfg.stream then passThrough h base else h base

/-- The error of a client-streaming method that has not answered; `name` is
`Service.Method`. -/
def notAnswered (name : Text) : GoError :=
  .status
    { code := Code.internal
      message := "wsrpc: ".toUTF8 ++ name ++ " handler returned without SendAndClose".toUTF8 }

/-- The end of the generated client-streaming method and its handler: what was captured is
sent after the method has returned. -/
def sendCaptured (name : Text) (ended : GrpcStream Res × Option GoError) : Rpc × Option GoError :=
  match ended.2, ended.1.captured with
  | some e, _ => (ended.1.rpc, some e)
  | none, none => (ended.1.rpc, some (notAnswered name))
  | none, some res => ended.1.rpc.send lib res

/-- The generated client-streaming method and its handler. -/
def bridgeClientStream (cfg : BridgeConfig) (name : Text) (impl : StreamImpl Req Res) (x : Rpc) :
    Rpc × Option GoError :=
  sendCaptured lib name (onShim lib cfg impl { rpc := x, capturing := true })

/-- The handler `RegisterXxxHandler` registers for a method of `XxxFromGRPC`. -/
def bridge (cfg : BridgeConfig) (name : Text) : Method Req Res → Rpc → Rpc × Option GoError
  | .unary impl, x => withRequest lib x (handlerAnswer lib cfg impl)
  | .serverStream impl, x =>
      withRequest lib x fun x req =>
        let ended := onShim lib cfg (impl req) { rpc := x }
        (ended.1.rpc, ended.2)
  | .clientStream impl, x => bridgeClientStream lib cfg name impl x
  | .bidi impl, x =>
      let ended := onShim lib cfg impl { rpc := x }
      (ended.1.rpc, ended.2)

end Serving

end WsProto.Go.Bridge
