import Mathlib

/-!
# The wire format: frames

The single unit multiplexed over one WebSocket connection, as
`transport/transport.proto` declares it.  Strings are byte arrays, because a Go
string need not be valid UTF-8; what proto3 demands of a string field is stated
separately (`Frame.Utf8`), where it matters.
-/

namespace WsProto

/-- The bytes of a string.  Valid UTF-8 is a property of it, not of the type. -/
abbrev Text := ByteArray

/-- One marshaled request or response message. -/
abbrev Payload := List UInt8

/-- A `map<string, string>`: metadata on OPEN and HEADER, trailers on END. -/
abbrev Headers := AList (fun _ : Text => Text)

/-- `Kind`.  A decoded frame may carry any `int32`, so the values outside the
enumeration are kept. -/
inductive Kind where
  | kindUnspecified
  | kindOpen
  | kindMsg
  | kindHalfClose
  | kindEnd
  | kindRst
  | kindHeader
  | kindWindowUpdate
  | kindOther (n : Int32)
  deriving DecidableEq

/-- `transport.Status`, the status carried on END and RST. -/
structure ProtoStatus where
  /-- A gRPC status code. -/
  code : Int32 := 0
  message : Text := .empty
  /-- Marshaled `google.protobuf.Any` payloads. -/
  details : List (List UInt8) := []
  deriving DecidableEq

/-- `transport.Frame`.  `none` is the nil map and the absent status. -/
structure Frame where
  streamId : UInt32 := 0
  kind : Kind := .kindUnspecified
  headers : Option Headers := none
  payload : Payload := []
  status : Option ProtoStatus := none
  method : Text := .empty
  window : UInt32 := 0
  deriving DecidableEq

/-! ## Payloads -/

/-- The bytes of some payloads. -/
def bytes (l : List Payload) : ℤ := (l.map fun p => (p.length : ℤ)).sum

@[simp] theorem bytes_nil : bytes [] = 0 := rfl

@[simp] theorem bytes_cons (p : Payload) (l : List Payload) : bytes (p :: l) = p.length + bytes l :=
  List.sum_cons

@[simp] theorem bytes_append (l l' : List Payload) : bytes (l ++ l') = bytes l + bytes l' := by
  rw [bytes, List.map_append, List.sum_append]
  rfl

/-! ## The string fields -/

/-- Every key and value of the map is valid UTF-8. -/
def Headers.Utf8 (h : Headers) : Prop :=
  ∀ e ∈ h.entries, e.1.IsValidUTF8 ∧ e.2.IsValidUTF8

instance (h : Headers) : Decidable h.Utf8 := inferInstanceAs (Decidable (∀ e ∈ h.entries, _))

/-- The proto3 string fields of a frame — the header map, the method and the
status message — are all valid UTF-8. -/
def Frame.Utf8 (f : Frame) : Prop :=
  (∀ h ∈ f.headers, Headers.Utf8 h) ∧ (∀ st ∈ f.status, st.message.IsValidUTF8) ∧
    f.method.IsValidUTF8

instance (f : Frame) : Decidable f.Utf8 := inferInstanceAs (Decidable (_ ∧ _ ∧ _))

end WsProto
