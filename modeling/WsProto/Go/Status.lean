import WsProto.Wire

/-!
# Status and errors of the Go runtime

`wsrpc/status.go`: the transport-level status, the errors a handler or an
operation can return, and `FromError`, which turns the one into the other.
-/

namespace WsProto.Go

/-! ## Codes -/

/-- `codes.Code` of gRPC: a `uint32`. -/
abbrev Code := UInt32

namespace Code

def ok : Code := 0
def canceled : Code := 1
def unknown : Code := 2
def deadlineExceeded : Code := 4
def resourceExhausted : Code := 8
def failedPrecondition : Code := 9
def unimplemented : Code := 12
def internal : Code := 13
def unavailable : Code := 14

end Code

/-- `Status`. -/
structure Status where
  code : Code
  message : Text := .empty
  details : List (List UInt8) := []
  deriving DecidableEq

/-- The error of a context that is done. -/
inductive CtxErr where
  | canceled
  | deadlineExceeded
  deriving DecidableEq

/-- `ctx.Err().Error()`. -/
def CtxErr.text : CtxErr → Text
  | .canceled => "context canceled".toUTF8
  | .deadlineExceeded => "context deadline exceeded".toUTF8

/-- A non-nil Go `error`, as far as `FromError` tells errors apart. -/
inductive GoError where
  /-- A `*Status`. -/
  | status (st : Status)
  /-- A nil `*Status` stored in an `error`. -/
  | nilStatus
  /-- An error in which gRPC's `status.FromError` finds a status. -/
  | grpc (st : Status)
  /-- `io.EOF`. -/
  | eof
  /-- A context error. -/
  | ctx (e : CtxErr)
  /-- Any other error, given by its `Error()` text. -/
  | other (text : Text)
  deriving DecidableEq

/-- `Errorf`. -/
def errorf (c : Code) (message : String) : GoError :=
  .status { code := c, message := message.toUTF8 }

/-- `FromError`: nil for nil (and for a nil `*Status`), the status itself for a
`*Status`, gRPC's status where it finds one, and `Unknown` for the rest. -/
def fromError : Option GoError → Option Status
  | none => none
  | some (.status st) => some st
  | some .nilStatus => none
  | some (.grpc st) => some st
  | some .eof => some { code := Code.unknown, message := "EOF".toUTF8 }
  | some (.ctx e) => some { code := Code.unknown, message := e.text }
  | some (.other text) => some { code := Code.unknown, message := text }

/-- `statusToProto`. -/
def statusToProto (st : Status) : ProtoStatus :=
  { code := st.code.toInt32, message := st.message, details := st.details }

/-- `statusFromProto`; an absent status is OK. -/
def statusFromProto : Option ProtoStatus → Status
  | none => { code := Code.ok }
  | some p => { code := p.code.toUInt32, message := p.message, details := p.details }

/-- A status survives the wire. -/
@[simp] theorem statusFromProto_statusToProto (st : Status) :
    statusFromProto (some (statusToProto st)) = st := by
  simp [statusFromProto, statusToProto]

end WsProto.Go
