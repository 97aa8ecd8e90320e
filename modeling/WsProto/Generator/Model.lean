import WsProto.Lib.Emitter

/-!
# The generator of Go code

protoc-gen-go-ws (`generator/`): for each proto file with services, the text of a
`_ws.pb.go` file, printed line by line.  Identifiers of other packages go through
protogen's `QualifiedGoIdent`, which adds the import to the file and returns the
qualified name; a name of the file's own package needs neither.

The functions are those of the source, with its variables and its lines.  A line is the
list of what `P` is given.  Literal text is Go code; a string literal and a comment are
pieces of their own, since a name inside them refers to nothing.
-/

namespace WsProto.Generator

open Emitter

/-! ## protogen -/

/-- `protogen.GoImportPath`. -/
abbrev GoImportPath := String

/-- `protogen.GoIdent`. -/
structure GoIdent where
  goImportPath : GoImportPath
  goName : String
  deriving DecidableEq

/-- `protogen.Method`. -/
structure Method where
  goName : String
  /-- `Desc.Name()`. -/
  name : String
  isStreamingClient : Bool
  isStreamingServer : Bool
  /-- `Input.GoIdent`. -/
  input : GoIdent
  /-- `Output.GoIdent`. -/
  output : GoIdent
  deriving DecidableEq

/-- `protogen.Service`. -/
structure Service where
  goName : String
  /-- `Desc.FullName()`. -/
  fullName : String
  methods : List Method
  deriving DecidableEq

/-- `protogen.File`. -/
structure File where
  generate : Bool := true
  goImportPath : GoImportPath
  goPackageName : String
  generatedFilenamePrefix : String
  path : String
  services : List Service
  deriving DecidableEq

/-- What a printed line is made of. -/
inductive Piece where
  /-- Go code. -/
  | text (s : String)
  /-- A name of another package, with that package's name in front. -/
  | qualified (id : GoIdent)
  /-- A string literal. -/
  | quoted (s : String)
  /-- A comment, to the end of the line. -/
  | comment (s : String)
  deriving DecidableEq

instance : Coe String Piece := ⟨.text⟩

abbrev Line := List Piece

/-- The packages a line refers to. -/
def Line.refs : Line → List GoImportPath
  | [] => []
  | .comment _ :: _ => []
  | .qualified id :: rest => id.goImportPath :: Line.refs rest
  | .text _ :: rest | .quoted _ :: rest => Line.refs rest

abbrev Gen := Emit GoImportPath Line

/-- `GoImportPath.Ident`. -/
def ident (path : GoImportPath) (name : String) : GoIdent := ⟨path, name⟩

section GeneratedFile

-- the import path of the generated file
variable (gf : GoImportPath)

/-- `gf.QualifiedGoIdent`. -/
def qualifiedGoIdent (id : GoIdent) : Gen Piece :=
  if id.goImportPath = gf then { val := .text id.goName }
  else { val := .qualified id, imports := [id.goImportPath] }

/-- `gf.P`. -/
def P (l : Line) : Gen Unit := Emit.print l

/-! ## `qualify.go` -/

def wsrpcImport : GoImportPath := "github.com/gopherex/ws-proto/wsrpc"
def protoImport : GoImportPath := "google.golang.org/protobuf/proto"
def contextImport : GoImportPath := "context"
def ioImport : GoImportPath := "io"
def grpcImport : GoImportPath := "google.golang.org/grpc"
def metadataImport : GoImportPath := "google.golang.org/grpc/metadata"
def codesImport : GoImportPath := "google.golang.org/grpc/codes"

def methodRoute (svc : Service) (m : Method) : String := "/" ++ svc.fullName ++ "/" ++ m.name

/-- `rpcKind`. -/
inductive RpcKind where
  | kindUnary
  | kindServerStream
  | kindClientStream
  | kindBidi
  deriving DecidableEq

def methodKind (m : Method) : RpcKind :=
  match m.isStreamingClient, m.isStreamingServer with
  | false, false => .kindUnary
  | false, true => .kindServerStream
  | true, false => .kindClientStream
  | true, true => .kindBidi

def serverWrapperName (svc : Service) (m : Method) : String :=
  svc.goName ++ "_" ++ m.goName ++ "ServerWS"

def clientWrapperName (svc : Service) (m : Method) : String :=
  svc.goName ++ "_" ++ m.goName ++ "ClientWS"

def clientIfaceName (svc : Service) : String := svc.goName ++ "WSClient"

def clientCtorName (svc : Service) : String := "New" ++ svc.goName ++ "WSClient"

-- `unicode.ToLower`
variable (toLower : Char → Char)

/-- `unexport`. -/
def unexport (s : String) : String :=
  match s.toList with
  | [] => s
  | r :: rest => String.ofList (toLower r :: rest)

def clientImplName (svc : Service) : String := unexport toLower svc.goName ++ "WSClient"

/-! ## `service.go` -/

/-- A method of the handler interface. -/
def genHandlerMethod (svc : Service) (m : Method) : Gen Unit := do
  let req ← qualifiedGoIdent gf m.input
  let res ← qualifiedGoIdent gf m.output
  let ctx ← qualifiedGoIdent gf (ident contextImport "Context")
  match methodKind m with
  | .kindUnary => P ["\t", m.goName, "(ctx ", ctx, ", req *", req, ") (*", res, ", error)"]
  | .kindServerStream =>
      P ["\t", m.goName, "(ctx ", ctx, ", req *", req, ", stream *", serverWrapperName svc m,
        ") error"]
  | .kindClientStream =>
      P ["\t", m.goName, "(ctx ", ctx, ", stream *", serverWrapperName svc m, ") (*", res,
        ", error)"]
  | .kindBidi => P ["\t", m.goName, "(ctx ", ctx, ", stream *", serverWrapperName svc m, ") error"]

/-- `genServerStreamWrapper`. -/
def genServerStreamWrapper (svc : Service) (m : Method) : Gen Unit := do
  let name := serverWrapperName svc m
  let req ← qualifiedGoIdent gf m.input
  let res ← qualifiedGoIdent gf m.output
  let stream ← qualifiedGoIdent gf (ident wsrpcImport "Stream")
  P [.comment ("// " ++ name ++ " is the typed server stream for " ++ svc.goName ++ "." ++
    m.goName ++ ".")]
  P ["type ", name, " struct \x7b"]
  P ["\tstream *", stream]
  P ["\x7d"]
  P []
  -- Send (server -> client response)
  P ["func (x *", name, ") Send(msg *", res, ") error \x7b"]
  P ["\treturn x.stream.Send(msg)"]
  P ["\x7d"]
  P []
  -- Recv (client -> server request), uniform for all streaming kinds
  P ["func (x *", name, ") Recv() (*", req, ", error) \x7b"]
  P ["\tmsg := new(", req, ")"]
  P ["\tif err := x.stream.Recv(msg); err != nil \x7b"]
  P ["\t\treturn nil, err"]
  P ["\t\x7d"]
  P ["\treturn msg, nil"]
  P ["\x7d"]
  P []
  let ctx ← qualifiedGoIdent gf (ident contextImport "Context")
  P [.comment "// RecvContext is Recv that also returns ctx.Err() when ctx ends; a buffered"]
  P [.comment "// request is delivered first, and an ended receive leaves the stream as it was."]
  P ["func (x *", name, ") RecvContext(ctx ", ctx, ") (*", req, ", error) \x7b"]
  P ["\tmsg := new(", req, ")"]
  P ["\tif err := x.stream.RecvContext(ctx, msg); err != nil \x7b"]
  P ["\t\treturn nil, err"]
  P ["\t\x7d"]
  P ["\treturn msg, nil"]
  P ["\x7d"]
  P []
  P ["func (x *", name, ") Context() ", ctx, " \x7b"]
  P ["\treturn x.stream.Context()"]
  P ["\x7d"]
  P []

/-- The body of the adapter `genRegistrar` registers for a method. -/
def genAdapterBody (svc : Service) (m : Method) (req : Piece) : Gen Unit := do
  let wrapper := serverWrapperName svc m
  match methodKind m with
  | .kindUnary =>
      let withUnaryMD ← qualifiedGoIdent gf (ident wsrpcImport "WithUnaryMetadata")
      P ["\t\treq := new(", req, ")"]
      let ioEOF ← qualifiedGoIdent gf (ident ioImport "EOF")
      P ["\t\tif err := s.Recv(req); err != nil && err != ", ioEOF, " \x7b"]
      P ["\t\t\treturn err"]
      P ["\t\t\x7d"]
      P ["\t\tctx, umd := ", withUnaryMD, "(ctx)"]
      P ["\t\tres, err := impl.", m.goName, "(ctx, req)"]
      P ["\t\tif err != nil \x7b"]
      P ["\t\t\treturn err"]
      P ["\t\t\x7d"]
      P ["\t\tif h := umd.Header(); h != nil \x7b"]
      P ["\t\t\t_ = s.SendHeader(h)"]
      P ["\t\t\x7d"]
      P ["\t\ts.SetTrailer(umd.Trailer())"]
      P ["\t\treturn s.Send(res)"]
  | .kindServerStream =>
      P ["\t\treq := new(", req, ")"]
      let ioEOF ← qualifiedGoIdent gf (ident ioImport "EOF")
      P ["\t\tif err := s.Recv(req); err != nil && err != ", ioEOF, " \x7b"]
      P ["\t\t\treturn err"]
      P ["\t\t\x7d"]
      P ["\t\treturn impl.", m.goName, "(ctx, req, &", wrapper, "\x7bstream: s\x7d)"]
  | .kindClientStream =>
      P ["\t\tres, err := impl.", m.goName, "(ctx, &", wrapper, "\x7bstream: s\x7d)"]
      P ["\t\tif err != nil \x7b"]
      P ["\t\t\treturn err"]
      P ["\t\t\x7d"]
      P ["\t\treturn s.Send(res)"]
  | .kindBidi => P ["\t\treturn impl.", m.goName, "(ctx, &", wrapper, "\x7bstream: s\x7d)"]

/-- `genRegistrar`. -/
def genRegistrar (svc : Service) : Gen Unit := do
  let srvType ← qualifiedGoIdent gf (ident wsrpcImport "Server")
  let streamType ← qualifiedGoIdent gf (ident wsrpcImport "Stream")
  let ctx ← qualifiedGoIdent gf (ident contextImport "Context")
  P [.comment ("// Register" ++ svc.goName ++ "Handler registers impl on srv for all " ++
    svc.goName ++ " methods.")]
  P ["func Register", svc.goName, "Handler(srv *", srvType, ", impl ", svc.goName, "Handler) \x7b"]
  Emit.each svc.methods fun m => do
    let req ← qualifiedGoIdent gf m.input
    P ["\tsrv.Register(", .quoted (methodRoute svc m), ", func(ctx ", ctx, ", s *", streamType,
      ") error \x7b"]
    genAdapterBody gf svc m req
    P ["\t\x7d)"]
  P ["\x7d"]
  P []

/-- `genService`. -/
def genService (svc : Service) : Gen Unit := do
  P [.comment ("// " ++ svc.goName ++ "Handler is the server API for the " ++ svc.goName ++
    " service.")]
  P ["type ", svc.goName, "Handler interface \x7b"]
  Emit.each svc.methods (genHandlerMethod gf svc)
  P ["\x7d"]
  P []
  Emit.each svc.methods fun m =>
    if methodKind m = .kindUnary then pure () else genServerStreamWrapper gf svc m
  genRegistrar gf svc

/-! ## `client.go` -/

/-- `streamKindIdent`. -/
def streamKindIdent (m : Method) : Gen Piece :=
  match methodKind m with
  | .kindServerStream => qualifiedGoIdent gf (ident wsrpcImport "StreamKindServerStream")
  | .kindClientStream => qualifiedGoIdent gf (ident wsrpcImport "StreamKindClientStream")
  | .kindUnary | .kindBidi => qualifiedGoIdent gf (ident wsrpcImport "StreamKindBidiStream")

/-- A method of the client interface. -/
def genClientIfaceMethod (svc : Service) (ctx callOpt : Piece) (m : Method) : Gen Unit := do
  let req ← qualifiedGoIdent gf m.input
  let res ← qualifiedGoIdent gf m.output
  match methodKind m with
  | .kindUnary =>
      P ["\t", m.goName, "(ctx ", ctx, ", req *", req, ", opts ...", callOpt, ") (*", res,
        ", error)"]
  | .kindServerStream =>
      P ["\t", m.goName, "(ctx ", ctx, ", req *", req, ", opts ...", callOpt, ") (*",
        clientWrapperName svc m, ", error)"]
  | .kindClientStream | .kindBidi =>
      P ["\t", m.goName, "(ctx ", ctx, ", opts ...", callOpt, ") (*", clientWrapperName svc m,
        ", error)"]

/-- `genClientStreamWrapper`. -/
def genClientStreamWrapper (svc : Service) (m : Method) : Gen Unit := do
  let name := clientWrapperName svc m
  let req ← qualifiedGoIdent gf m.input
  let res ← qualifiedGoIdent gf m.output
  let connType ← qualifiedGoIdent gf (ident wsrpcImport "StreamingClientConn")
  P [.comment ("// " ++ name ++ " is the typed client stream for " ++ svc.goName ++ "." ++
    m.goName ++ ".")]
  P ["type ", name, " struct \x7b"]
  P ["\tconn ", connType]
  P ["\x7d"]
  P []
  P ["func (x *", name, ") Send(msg *", req, ") error \x7b"]
  P ["\treturn x.conn.Send(msg)"]
  P ["\x7d"]
  P []
  P ["func (x *", name, ") Recv() (*", res, ", error) \x7b"]
  P ["\tmsg := new(", res, ")"]
  P ["\tif err := x.conn.Receive(msg); err != nil \x7b"]
  P ["\t\treturn nil, err"]
  P ["\t\x7d"]
  P ["\treturn msg, nil"]
  P ["\x7d"]
  P []
  P ["func (x *", name, ") CloseSend() error \x7b"]
  P ["\treturn x.conn.CloseRequest()"]
  P ["\x7d"]
  P []
  P [.comment "// Header returns the leading response headers (KIND_HEADER), if the server sent any."]
  P ["func (x *", name, ") Header() map[string]string \x7b"]
  P ["\treturn x.conn.ResponseHeader()"]
  P ["\x7d"]
  P []
  P [.comment "// Trailer returns the response trailers carried on the END frame."]
  P ["func (x *", name, ") Trailer() map[string]string \x7b"]
  P ["\treturn x.conn.ResponseTrailer()"]
  P ["\x7d"]
  P []
  -- for client-stream, the response is collected by CloseAndRecv
  if methodKind m = .kindClientStream then
    P ["func (x *", name, ") CloseAndRecv() (*", res, ", error) \x7b"]
    P ["\tif err := x.conn.CloseRequest(); err != nil \x7b"]
    P ["\t\treturn nil, err"]
    P ["\t\x7d"]
    P ["\treturn x.Recv()"]
    P ["\x7d"]
    P []

/-- `genClientMethod`. -/
def genClientMethod (svc : Service) (impl : String) (m : Method) : Gen Unit := do
  let ctx ← qualifiedGoIdent gf (ident contextImport "Context")
  let callOpt ← qualifiedGoIdent gf (ident wsrpcImport "CallOption")
  let callHeaders ← qualifiedGoIdent gf (ident wsrpcImport "CallHeaders")
  let methodSpec ← qualifiedGoIdent gf (ident wsrpcImport "MethodSpec")
  let req ← qualifiedGoIdent gf m.input
  let res ← qualifiedGoIdent gf m.output
  let route := methodRoute svc m
  let wrapper := clientWrapperName svc m
  match methodKind m with
  | .kindUnary =>
      let invokeUnary ← qualifiedGoIdent gf (ident wsrpcImport "InvokeUnary")
      let protoMsg ← qualifiedGoIdent gf (ident protoImport "Message")
      let unaryKind ← qualifiedGoIdent gf (ident wsrpcImport "StreamKindUnary")
      P ["func (c *", impl, ") ", m.goName, "(ctx ", ctx, ", req *", req, ", opts ...", callOpt,
        ") (*", res, ", error) \x7b"]
      P ["\tout, err := ", invokeUnary, "(ctx, c.cc, ", methodSpec, "\x7bRoute: ", .quoted route,
        ", Kind: ", unaryKind, "\x7d, req, func() ", protoMsg, " \x7b return new(", res, ") \x7d, ",
        callHeaders, "(opts...))"]
      P ["\tif err != nil \x7b"]
      P ["\t\treturn nil, err"]
      P ["\t\x7d"]
      P ["\treturn out.(*", res, "), nil"]
      P ["\x7d"]
      P []
  | .kindServerStream =>
      let openStream ← qualifiedGoIdent gf (ident wsrpcImport "OpenStreamingClient")
      P ["func (c *", impl, ") ", m.goName, "(ctx ", ctx, ", req *", req, ", opts ...", callOpt,
        ") (*", wrapper, ", error) \x7b"]
      let streamKind ← streamKindIdent gf m
      P ["\tconn, err := ", openStream, "(ctx, c.cc, ", methodSpec, "\x7bRoute: ", .quoted route,
        ", Kind: ", streamKind, "\x7d, ", callHeaders, "(opts...))"]
      P ["\tif err != nil \x7b"]
      P ["\t\treturn nil, err"]
      P ["\t\x7d"]
      P ["\tif err := conn.Send(req); err != nil \x7b"]
      P ["\t\treturn nil, err"]
      P ["\t\x7d"]
      P ["\tif err := conn.CloseRequest(); err != nil \x7b"]
      P ["\t\treturn nil, err"]
      P ["\t\x7d"]
      P ["\treturn &", wrapper, "\x7bconn: conn\x7d, nil"]
      P ["\x7d"]
      P []
  | .kindClientStream | .kindBidi =>
      let openStream ← qualifiedGoIdent gf (ident wsrpcImport "OpenStreamingClient")
      P ["func (c *", impl, ") ", m.goName, "(ctx ", ctx, ", opts ...", callOpt, ") (*", wrapper,
        ", error) \x7b"]
      let streamKind ← streamKindIdent gf m
      P ["\tconn, err := ", openStream, "(ctx, c.cc, ", methodSpec, "\x7bRoute: ", .quoted route,
        ", Kind: ", streamKind, "\x7d, ", callHeaders, "(opts...))"]
      P ["\tif err != nil \x7b"]
      P ["\t\treturn nil, err"]
      P ["\t\x7d"]
      P ["\treturn &", wrapper, "\x7bconn: conn\x7d, nil"]
      P ["\x7d"]
      P []

/-- `genClient`. -/
def genClient (svc : Service) : Gen Unit := do
  let ctx ← qualifiedGoIdent gf (ident contextImport "Context")
  let ccType ← qualifiedGoIdent gf (ident wsrpcImport "ClientConn")
  let callOpt ← qualifiedGoIdent gf (ident wsrpcImport "CallOption")
  let iface := clientIfaceName svc
  P [.comment ("// " ++ iface ++ " is the client API for the " ++ svc.goName ++ " service.")]
  P ["type ", iface, " interface \x7b"]
  Emit.each svc.methods (genClientIfaceMethod gf svc ctx callOpt)
  P ["\x7d"]
  P []
  let impl := clientImplName toLower svc
  P ["type ", impl, " struct \x7b"]
  P ["\tcc *", ccType]
  P ["\x7d"]
  P []
  P [.comment ("// " ++ clientCtorName svc ++ " returns a " ++ iface ++ " backed by cc.")]
  P ["func ", clientCtorName svc, "(cc *", ccType, ") ", iface, " \x7b"]
  P ["\treturn &", impl, "\x7bcc: cc\x7d"]
  P ["\x7d"]
  P []
  Emit.each svc.methods fun m =>
    if methodKind m = .kindUnary then pure () else genClientStreamWrapper gf svc m
  Emit.each svc.methods (genClientMethod gf svc impl)

/-- `errorfRef`. -/
def errorfRef : Gen Piece := qualifiedGoIdent gf (ident wsrpcImport "Errorf")

/-! ## `adapter.go` -/

/-- `grpcStreamName`. -/
def grpcStreamName (svc : Service) : String := unexport toLower svc.goName ++ "GRPCStream"

/-- `genGRPCStreamShim`. -/
def genGRPCStreamShim (svc : Service) : Gen Unit := do
  let shim := grpcStreamName toLower svc
  let streamType ← qualifiedGoIdent gf (ident wsrpcImport "Stream")
  let ctx ← qualifiedGoIdent gf (ident contextImport "Context")
  let mdType ← qualifiedGoIdent gf (ident metadataImport "MD")
  let protoMsg ← qualifiedGoIdent gf (ident protoImport "Message")
  let codeInternal ← qualifiedGoIdent gf (ident codesImport "Internal")
  P [.comment ("// " ++ shim ++
    " adapts *wsrpc.Stream to grpc.ServerStream. When capturing is set")]
  P [.comment "// (client-streaming), SendMsg captures the response instead of sending it, so"]
  P [.comment "// the bridge can return it through the wsrpc handler contract."]
  let flattenMD ← qualifiedGoIdent gf (ident wsrpcImport "FlattenMD")
  P ["type ", shim, " struct \x7b"]
  P ["\tstream        *", streamType]
  P ["\tctx           ", ctx]
  P ["\tcapturing     bool"]
  P ["\tcaptured      ", protoMsg]
  P ["\tpendingHeader ", mdType,
    .comment " // buffered leading headers, flushed on SendHeader or first SendMsg"]
  P ["\x7d"]
  P []
  P ["func (x *", shim, ") Context() ", ctx, " \x7b return x.ctx \x7d"]
  P []
  P [.comment "// SetHeader buffers leading header metadata; it is sent on the first"]
  P [.comment "// SendMsg or an explicit SendHeader (gRPC ServerStream semantics)."]
  P ["func (x *", shim, ") SetHeader(md ", mdType, ") error \x7b"]
  P ["\tif x.pendingHeader == nil \x7b"]
  P ["\t\tx.pendingHeader = ", mdType, "\x7b\x7d"]
  P ["\t\x7d"]
  P ["\tfor k, v := range md \x7b"]
  P ["\t\tx.pendingHeader[k] = append(x.pendingHeader[k], v...)"]
  P ["\t\x7d"]
  P ["\treturn nil"]
  P ["\x7d"]
  P []
  P [.comment "// SendHeader merges md into the pending headers and flushes them as a"]
  P [.comment "// leading KIND_HEADER frame on the underlying wsrpc stream."]
  P ["func (x *", shim, ") SendHeader(md ", mdType, ") error \x7b"]
  P ["\tif err := x.SetHeader(md); err != nil \x7b"]
  P ["\t\treturn err"]
  P ["\t\x7d"]
  P ["\terr := x.stream.SendHeader(", flattenMD, "(x.pendingHeader))"]
  P ["\tx.pendingHeader = nil"]
  P ["\treturn err"]
  P ["\x7d"]
  P []
  P [.comment "// SetTrailer merges md into the trailers flushed with the END frame."]
  P ["func (x *", shim, ") SetTrailer(md ", mdType, ") \x7b"]
  P ["\tx.stream.SetTrailer(", flattenMD, "(md))"]
  P ["\x7d"]
  P []
  P ["func (x *", shim, ") SendMsg(m any) error \x7b"]
  P ["\tpm, ok := m.(", protoMsg, ")"]
  P ["\tif !ok \x7b"]
  let errorf ← errorfRef gf
  P ["\t\treturn ", errorf, "(", codeInternal, ", ",
    .quoted "wsrpc: SendMsg expected proto.Message", ")"]
  P ["\t\x7d"]
  P ["\tif x.capturing \x7b"]
  P ["\t\tx.captured = pm"]
  P ["\t\treturn nil"]
  P ["\t\x7d"]
  P [.comment "\t// Flush any buffered leading headers before the first response message"]
  P [.comment "\t// (best-effort: ignore FailedPrecondition if headers were already sent)."]
  P ["\tif x.pendingHeader != nil \x7b"]
  P ["\t\t_ = x.stream.SendHeader(", flattenMD, "(x.pendingHeader))"]
  P ["\t\tx.pendingHeader = nil"]
  P ["\t\x7d"]
  P ["\treturn x.stream.Send(pm)"]
  P ["\x7d"]
  P []
  P ["func (x *", shim, ") RecvMsg(m any) error \x7b"]
  P ["\tpm, ok := m.(", protoMsg, ")"]
  P ["\tif !ok \x7b"]
  let errorf ← errorfRef gf
  P ["\t\treturn ", errorf, "(", codeInternal, ", ",
    .quoted "wsrpc: RecvMsg expected proto.Message", ")"]
  P ["\t\x7d"]
  P ["\treturn x.stream.Recv(pm)"]
  P ["\x7d"]
  P []

/-- `genBridgeMethod`. -/
def genBridgeMethod (svc : Service) (bridge : String) (m : Method) : Gen Unit := do
  let ctx ← qualifiedGoIdent gf (ident contextImport "Context")
  let req ← qualifiedGoIdent gf m.input
  let res ← qualifiedGoIdent gf m.output
  let wrapper := serverWrapperName svc m
  let shim := grpcStreamName toLower svc
  let route : Piece := .quoted (methodRoute svc m)
  let grpcServerStream ← qualifiedGoIdent gf (ident grpcImport "ServerStream")
  let genericStream ← qualifiedGoIdent gf (ident grpcImport "GenericServerStream")
  let unaryInfo ← qualifiedGoIdent gf (ident grpcImport "UnaryServerInfo")
  let streamInfo ← qualifiedGoIdent gf (ident grpcImport "StreamServerInfo")
  let codeInternal ← qualifiedGoIdent gf (ident codesImport "Internal")
  match methodKind m with
  | .kindUnary =>
      let newCtxWithTS ← qualifiedGoIdent gf
        (ident grpcImport "NewContextWithServerTransportStream")
      let unaryTS ← qualifiedGoIdent gf (ident wsrpcImport "UnaryServerTransportStream")
      P ["func (b *", bridge, ") ", m.goName, "(ctx ", ctx, ", req *", req, ") (*", res,
        ", error) \x7b"]
      P ["\tif b.cfg.Unary == nil \x7b"]
      P ["\t\treturn b.impl.", m.goName, "(ctx, req)"]
      P ["\t\x7d"]
      P ["\tctx = ", newCtxWithTS, "(ctx, ", unaryTS, "(ctx, ", route, "))"]
      P ["\tinfo := &", unaryInfo, "\x7bServer: b.impl, FullMethod: ", route, "\x7d"]
      P ["\tresp, err := b.cfg.Unary(ctx, req, info, func(ctx ", ctx, ", r any) (any, error) \x7b"]
      P ["\t\treturn b.impl.", m.goName, "(ctx, r.(*", req, "))"]
      P ["\t\x7d)"]
      P ["\tif err != nil \x7b"]
      P ["\t\treturn nil, err"]
      P ["\t\x7d"]
      P ["\tout, ok := resp.(*", res, ")"]
      P ["\tif !ok \x7b"]
      let errorf ← errorfRef gf
      P ["\t\treturn nil, ", errorf, "(", codeInternal, ", ",
        .quoted ("wsrpc: " ++ svc.goName ++ "." ++ m.goName ++
          " interceptor returned unexpected response type"), ")"]
      P ["\t\x7d"]
      P ["\treturn out, nil"]
      P ["\x7d"]
      P []
  | .kindServerStream =>
      P ["func (b *", bridge, ") ", m.goName, "(ctx ", ctx, ", req *", req, ", stream *", wrapper,
        ") error \x7b"]
      P ["\tbase := &", shim, "\x7bstream: stream.stream, ctx: ctx\x7d"]
      P ["\th := func(_ any, ss ", grpcServerStream, ") error \x7b"]
      P ["\t\treturn b.impl.", m.goName, "(req, &", genericStream, "[", req, ", ", res,
        "]\x7bServerStream: ss\x7d)"]
      P ["\t\x7d"]
      P ["\tif b.cfg.Stream == nil \x7b"]
      P ["\t\treturn h(b.impl, base)"]
      P ["\t\x7d"]
      P ["\tinfo := &", streamInfo, "\x7bFullMethod: ", route, ", IsServerStream: true\x7d"]
      P ["\treturn b.cfg.Stream(b.impl, base, info, h)"]
      P ["\x7d"]
      P []
  | .kindClientStream =>
      P ["func (b *", bridge, ") ", m.goName, "(ctx ", ctx, ", stream *", wrapper, ") (*", res,
        ", error) \x7b"]
      P ["\tbase := &", shim, "\x7bstream: stream.stream, ctx: ctx, capturing: true\x7d"]
      P ["\th := func(_ any, ss ", grpcServerStream, ") error \x7b"]
      P ["\t\treturn b.impl.", m.goName, "(&", genericStream, "[", req, ", ", res,
        "]\x7bServerStream: ss\x7d)"]
      P ["\t\x7d"]
      P ["\tvar err error"]
      P ["\tif b.cfg.Stream == nil \x7b"]
      P ["\t\terr = h(b.impl, base)"]
      P ["\t\x7d else \x7b"]
      P ["\t\tinfo := &", streamInfo, "\x7bFullMethod: ", route, ", IsClientStream: true\x7d"]
      P ["\t\terr = b.cfg.Stream(b.impl, base, info, h)"]
      P ["\t\x7d"]
      P ["\tif err != nil \x7b"]
      P ["\t\treturn nil, err"]
      P ["\t\x7d"]
      P ["\tif base.captured == nil \x7b"]
      let errorf ← errorfRef gf
      P ["\t\treturn nil, ", errorf, "(", codeInternal, ", ",
        .quoted ("wsrpc: " ++ svc.goName ++ "." ++ m.goName ++
          " handler returned without SendAndClose"), ")"]
      P ["\t\x7d"]
      P ["\treturn base.captured.(*", res, "), nil"]
      P ["\x7d"]
      P []
  | .kindBidi =>
      P ["func (b *", bridge, ") ", m.goName, "(ctx ", ctx, ", stream *", wrapper, ") error \x7b"]
      P ["\tbase := &", shim, "\x7bstream: stream.stream, ctx: ctx\x7d"]
      P ["\th := func(_ any, ss ", grpcServerStream, ") error \x7b"]
      P ["\t\treturn b.impl.", m.goName, "(&", genericStream, "[", req, ", ", res,
        "]\x7bServerStream: ss\x7d)"]
      P ["\t\x7d"]
      P ["\tif b.cfg.Stream == nil \x7b"]
      P ["\t\treturn h(b.impl, base)"]
      P ["\t\x7d"]
      P ["\tinfo := &", streamInfo, "\x7bFullMethod: ", route,
        ", IsClientStream: true, IsServerStream: true\x7d"]
      P ["\treturn b.cfg.Stream(b.impl, base, info, h)"]
      P ["\x7d"]
      P []

/-- `genGRPCBridge`. -/
def genGRPCBridge (svc : Service) : Gen Unit := do
  let bridge := unexport toLower svc.goName ++ "GRPCBridge"
  let cfgType ← qualifiedGoIdent gf (ident wsrpcImport "BridgeConfig")
  let optType ← qualifiedGoIdent gf (ident wsrpcImport "BridgeOption")
  let applyOpts ← qualifiedGoIdent gf (ident wsrpcImport "ApplyBridgeOptions")
  P [.comment ("// " ++ bridge ++ " adapts a gRPC " ++ svc.goName ++ "Server to a " ++
    svc.goName ++ "Handler.")]
  P ["type ", bridge, " struct \x7b"]
  P ["\timpl ", svc.goName, "Server"]
  P ["\tcfg  ", cfgType]
  P ["\x7d"]
  P []
  P [.comment ("// " ++ svc.goName ++
    "FromGRPC wraps a protoc-gen-go-grpc server so it can be")]
  P [.comment ("// registered on a wsrpc.Server via Register" ++ svc.goName ++
    "Handler. Optional")]
  P [.comment "// wsrpc.BridgeOption values install gRPC server interceptors run around RPCs."]
  P ["func ", svc.goName, "FromGRPC(impl ", svc.goName, "Server, opts ...", optType, ") ",
    svc.goName, "Handler \x7b"]
  P ["\treturn &", bridge, "\x7bimpl: impl, cfg: ", applyOpts, "(opts...)\x7d"]
  P ["\x7d"]
  P []
  genGRPCStreamShim gf toLower svc
  Emit.each svc.methods (genBridgeMethod gf toLower svc bridge)

end GeneratedFile

/-! ## `generator.go` -/

/-- One service of a file. -/
def genFileService (toLower : Char → Char) (gf : GoImportPath) (svc : Service) : Gen Unit := do
  genService gf svc
  genClient gf toLower svc
  genGRPCBridge gf toLower svc

/-- What is emitted for a file with services. -/
def genFile (toLower : Char → Char) (file : File) : Gen Unit := do
  P [.comment "// Code generated by protoc-gen-go-ws. DO NOT EDIT."]
  P [.comment ("// source: " ++ file.path)]
  P []
  P ["package ", file.goPackageName]
  P []
  Emit.each file.services (genFileService toLower file.goImportPath)

/-- A file protoc is given back. -/
structure GeneratedFile where
  filename : String
  content : Gen Unit

/-- `Generate`: one file for each proto file that is to be generated and has services. -/
def generate (toLower : Char → Char) (files : List File) : List GeneratedFile :=
  (files.filter fun file => file.generate && !file.services.isEmpty).map fun file =>
    { filename := file.generatedFilenamePrefix ++ "_ws.pb.go"
      content := genFile toLower file }

end WsProto.Generator
