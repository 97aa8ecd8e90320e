import WsProto.Agree.Flow
import WsProto.Agree.SingleResponse
import WsProto.Go.Bridge.Agree

/-!
# A unary call, from its method to its caller

A unary method of a gRPC service, served through `GRPCRegistrar` or through the generated
bridge, and a client that calls it with `InvokeUnary` or with `unaryTerminal`.  The server's
frames reach the client in order, with WINDOW_UPDATEs between them, and come in between the
client's receive calls in any way.

* `messages_of_reply`, `terminal_of_reply` — what a client sees of a reply;
* `unary_call_iff` — the call returns what the method has returned exactly if the texts of
  the END frame are UTF-8: the response, or an error with the method's status.  Otherwise
  END is never written, and the call waits for it.
-/

namespace WsProto.Agree.UnaryCall

open Go.Bridge

variable {Req Res : Type} (lib : Library Req Res)

/-! ## The server -/

/-- The two ways to serve a method. -/
inductive Served where
  | registrar
  | generated
  deriving DecidableEq

namespace Served

variable (served : Served) (cfg : BridgeConfig)

def serve (name : Text) (m : Method Req Res) (x : Rpc) : Rpc × Option Go.GoError :=
  match served with
  | .registrar => Go.Bridge.registrar lib cfg m x
  | .generated => bridge lib cfg name m x

/-- A unary method is called: what it has set, and what it returns. -/
def call (impl : UnaryImpl Req Res) (req : Req) : MdSink × Except Go.GoError Res :=
  match served with
  | .registrar => (impl req).run transportStream {}
  | .generated => bridgeUnary lib cfg impl req

/-- The reply to the call. -/
def reply (impl : UnaryImpl Req Res) (req : Req) : Reply :=
  match served with
  | .registrar => registrarReply lib (call lib .registrar cfg impl req).1
      (call lib .registrar cfg impl req).2
  | .generated => bridgeReply lib (call lib .generated cfg impl req).1
      (call lib .generated cfg impl req).2

/-- What the method returns, where a response that cannot be marshaled is an error. -/
def result (impl : UnaryImpl Req Res) (req : Req) : Except Go.GoError Res :=
  (served.call lib cfg impl req).2.bind fun res => (lib.marshal res).map fun _ => res

/-- The frames of the call. -/
theorem finish_serve (name : Text) (impl : UnaryImpl Req Res) (raw : Payload) (req : Req)
    (hreq : lib.unmarshal raw = .ok req) (id : UInt32) (method : Text) (W : ℤ)
    (fin : Go.GoError) :
    finish lib (served.serve lib cfg name (.unary impl) (accepted id method W [raw] fin)) =
      ((served.reply lib cfg impl req).frames id).filter fun f => f.Utf8 := by
  have hx := (fresh_accepted id method W [raw] fin).recvRaw
  cases served with
  | registrar =>
      have hcall : (unaryHandler cfg.unary impl (lib.unmarshal raw)).run transportStream {} =
          call lib .registrar cfg impl req := by
        simp only [unaryHandler, hreq, passThrough, ite_self, call]
      have h := finish_registrarAnswer lib cfg impl raw hx
      rw [hcall] at h
      exact h
  | generated =>
      have h := finish_handlerAnswer lib cfg impl req hx
      have hserve : serve lib .generated cfg name (.unary impl) (accepted id method W [raw] fin) =
          handlerAnswer lib cfg impl (accepted id method W [raw] fin).recvRaw.1 req := by
        simp only [serve, bridge, withRequest, Rpc.recv, Rpc.recvRaw, accepted, Except.bind, hreq]
      rw [hserve]
      exact h

/-- A reply is the response and OK, or no message and the status of the error. -/
theorem reply_cases (impl : UnaryImpl Req Res) (req : Req) :
    (∃ res b, served.result lib cfg impl req = .ok res ∧ lib.marshal res = .ok b ∧
      (served.reply lib cfg impl req).payloads = [b] ∧
      (served.reply lib cfg impl req).status = statusOf none) ∨
    ∃ e, served.result lib cfg impl req = .error e ∧
      (served.reply lib cfg impl req).payloads = [] ∧
      (served.reply lib cfg impl req).status = statusOf (some e) := by
  cases served with
  | registrar =>
      simp only [result, reply]
      generalize call lib .registrar cfg impl req = y
      obtain ⟨sink, e | res⟩ := y
      · exact .inr ⟨e, rfl, rfl, rfl⟩
      · simp only [registrarReply, Except.bind]
        cases hb : lib.marshal res with
        | error e => exact .inr ⟨e, rfl, rfl, rfl⟩
        | ok b => exact .inl ⟨res, b, rfl, hb, rfl, rfl⟩
  | generated =>
      simp only [result, reply]
      generalize call lib .generated cfg impl req = y
      obtain ⟨sink, e | res⟩ := y
      · exact .inr ⟨e, rfl, rfl, rfl⟩
      · simp only [bridgeReply, Except.bind]
        cases hb : lib.marshal res with
        | error e => exact .inr ⟨e, rfl, rfl, rfl⟩
        | ok b => exact .inl ⟨res, b, rfl, hb, rfl, rfl⟩

end Served

/-! ## What the client sees -/

/-- WINDOW_UPDATEs apart. -/
def response (fs : List Frame) : List Frame := fs.filter fun f => f.kind ≠ .kindWindowUpdate

theorem terminal_response (fs : List Frame) : terminal (response fs) = terminal fs := by
  rw [terminal, response, List.find?_filter, terminal]
  congr 1
  funext f
  by_cases hk : f.kind = .kindWindowUpdate
  · simp [isTerminal, hk]
  · simp [hk]

theorem messages_response (fs : List Frame) : messages (response fs) = messages fs := by
  induction fs with
  | nil => rfl
  | cons f fs ih =>
      by_cases hk : f.kind = .kindWindowUpdate
      · have hterm : isTerminal f = false := by simp [isTerminal, hk]
        have hskip : response (f :: fs) = response fs := by simp [response, hk]
        rw [hskip, ih]
        simp [messages, hterm, hk]
      · have hkeep : response (f :: fs) = f :: response fs := by simp [response, hk]
        rw [hkeep]
        cases hterm : isTerminal f with
        | true => simp [messages, hterm]
        | false =>
            by_cases hm : f.kind = .kindMsg
            · simpa [messages, hterm, hm] using ih
            · simpa [messages, hterm, hm] using ih

/-- The END of a reply can be written. -/
def Ends (r : Reply) : Prop := Readable r.trailers ∧ r.status.message.IsValidUTF8

instance (r : Reply) : Decidable (Ends r) :=
  inferInstanceAs (Decidable (Readable r.trailers ∧ r.status.message.IsValidUTF8))

section Reply

variable {fs : List Frame} {r : Reply}
  (h : response fs = (r.frames 1).filter fun f => f.Utf8)

include h

/-- The frames in front of END are the header and the messages. -/
theorem response_eq : response fs = body 1 (readHeader r.header) r.payloads ++
    (if Ends r then [endFrame 1 r.status r.trailers] else []) := by
  rw [h, filter_frames, readEnd]
  by_cases he : Ends r
  · rw [if_pos (by exact he), if_pos he]
    rfl
  · rw [if_neg (by exact he), if_neg he]
    rfl

omit h in
theorem not_isTerminal_body (header : Option (Option Headers)) (payloads : List Payload) :
    ∀ f ∈ body 1 header payloads, isTerminal f = false := by
  intro f hf
  rcases List.mem_append.1 hf with hf | hf
  · obtain ⟨md, -, rfl⟩ := Option.map_eq_some_iff.1 (Option.mem_toList.1 hf)
    rfl
  · obtain ⟨b, -, rfl⟩ := List.mem_map.1 hf
    rfl

omit h in
theorem messages_body (header : Option (Option Headers)) (payloads : List Payload) :
    ((body 1 header payloads).filter fun f => f.kind = .kindMsg).map Frame.payload = payloads := by
  have hmsgs : (payloads.map (msgFrame 1)).filter (fun f => f.kind = .kindMsg) =
      payloads.map (msgFrame 1) := by
    refine List.filter_eq_self.2 fun f hf => ?_
    obtain ⟨b, -, rfl⟩ := List.mem_map.1 hf
    rfl
  rw [body, List.filter_append, hmsgs, List.map_append, List.map_map]
  cases header with
  | none => exact List.map_id _
  | some md => exact List.map_id _

theorem messages_of_reply : messages fs = r.payloads := by
  have hbody := not_isTerminal_body (readHeader r.header) r.payloads
  rw [← messages_response, response_eq h, messages, List.takeWhile_append_of_pos (by
    intro f hf
    simp [hbody f hf]), List.filter_append, List.map_append, messages_body]
  have hlast : (if Ends r then [endFrame 1 r.status r.trailers] else []).takeWhile
      (fun f => !isTerminal f) = [] := by
    split <;> rfl
  rw [hlast]
  exact List.append_nil _

theorem terminal_of_reply :
    terminal fs = if Ends r then some (endFrame 1 r.status r.trailers) else none := by
  have hbody := not_isTerminal_body (readHeader r.header) r.payloads
  have hnone : (body 1 (readHeader r.header) r.payloads).find? isTerminal = none := by
    refine List.find?_eq_none.2 fun f hf => ?_
    rw [hbody f hf]
    decide
  rw [← terminal_response, response_eq h, terminal, List.find?_append, hnone, Option.none_or]
  split <;> rfl

end Reply

/-! ## What the call returns -/

/-- What `InvokeUnary` makes of what the method returns: an error without a status, or whose
status is OK, arrives as an end of file. -/
def goOutcome : Except Go.GoError Res → Except Go.CallError Res
  | .ok res => .ok res
  | .error e => .error (.recv (Go.Inbound.statusError (Go.fromError (some e))))

/-- What `unaryTerminal` makes of it. -/
def tsOutcome (label : Text) : Except Go.GoError Res → Except Ts.CallError Res
  | .ok res => .ok res
  | .error e =>
      .error (((Ts.statusErrorFromProto (some (Go.statusToProto (statusOf (some e))))).map
        Ts.CallError.status).getD (Ts.withoutResponse label))

/-- END carries the status of the error. -/
theorem causeError_endFrame (e : Go.GoError) (t : Option Headers) :
    Go.causeError (.frame (endFrame 1 (statusOf (some e)) t)) =
      Go.Inbound.statusError (Go.fromError (some e)) := by
  simp only [Go.causeError, Go.Inbound.endError, endFrame, Go.statusFromProto_statusToProto,
    Go.Inbound.statusError, statusOf]
  cases Go.fromError (some e) with
  | none => rfl
  | some st => rfl

theorem cleanEnd_endFrame (t : Option Headers) : cleanEnd (endFrame 1 (statusOf none) t) = true :=
  rfl

/-- **A unary call returns what its method has returned**, exactly if END can be written;
otherwise it has not returned when all the frames have come, in no run.
For every method, however it reacts to the metadata calls it makes, with or without
interceptors, through either bridge; for every window of the client; and in every
interleaving of the frames, WINDOW_UPDATEs among them, with the client's receive calls.  The
client's decoder is the inverse of the server's marshaler. -/
theorem unary_call_iff (decode : Payload → Option Res)
    (hdecode : ∀ res b, lib.marshal res = .ok b → decode b = some res) (served : Served)
    (cfg : BridgeConfig) (name : Text) (impl : UnaryImpl Req Res) (raw : Payload) (req : Req)
    (hreq : lib.unmarshal raw = .ok req) (method : Text) (W : ℤ) (size : Frame → ℕ)
    (headers : Headers) (W' maxSendBuffer : ℤ) (label : Text) (fs : List Frame)
    (hfs : ∀ f ∈ fs, Inbox.Addressed f)
    (hsock : response fs =
      finish lib (served.serve lib cfg name (.unary impl) (accepted 1 method W [raw] .eof))) :
    (Returns (Go.runtime method W') (Go.invokeUnary decode) fs
        (· = goOutcome (served.result lib cfg impl req)) ↔ Ends (served.reply lib cfg impl req)) ∧
      (Returns (Ts.runtime size method headers W' maxSendBuffer) (Ts.unaryTerminal decode label) fs
        (· = tsOutcome label (served.result lib cfg impl req)) ↔
          Ends (served.reply lib cfg impl req)) ∧
      (¬ Ends (served.reply lib cfg impl req) →
        Waits (Go.runtime method W') (Go.invokeUnary decode) fs ∧
          Waits (Ts.runtime size method headers W' maxSendBuffer)
            (Ts.unaryTerminal decode label) fs) := by
  rw [served.finish_serve lib cfg name impl raw req hreq] at hsock
  have hm := messages_of_reply hsock
  have ht := terminal_of_reply hsock
  have hgo := Go.refines method W'
  have hts := Ts.refines size method headers W' maxSendBuffer
  rcases served.reply_cases lib cfg impl req with
    ⟨res, b, hres, hb, hpay, hst⟩ | ⟨e, hres, hpay, hst⟩
  · -- the method has returned a response
    have hd := hdecode res b hb
    rw [hpay] at hm
    have hfirst : (Ts.unaryTerminal decode label).step none (.value b) = .inl (some res) :=
      (unaryTerminal_first label b).trans (by rw [hd]; rfl)
    rw [hres]
    by_cases he : Ends (served.reply lib cfg impl req)
    · rw [if_pos he, hst] at ht
      have hclean := cleanEnd_endFrame (served.reply lib cfg impl req).trailers
      refine ⟨iff_of_true ?_ he, iff_of_true ?_ he, absurd he⟩
      · refine (returns_pair hgo invokeUnary_stops hfs hm ht (invokeUnary_first hd) ?_).2 rfl
        show Sum.inr (Go.drainEnd res (.error (.recv (Go.causeError (.frame _))))) = _
        rw [go_eof_of_cleanEnd hclean]
        rfl
      · refine (returns_pair hts (unaryTerminal_stops label) hfs hm ht hfirst ?_).2 rfl
        rw [Ts.toPull, ts_done_of_cleanEnd hclean]
        rfl
    · rw [if_neg he] at ht
      have hgo' := waits_open hgo hfs hm ht (invokeUnary_first hd)
      have hts' := waits_open hts hfs hm ht hfirst
      exact ⟨iff_of_false hgo'.not_returns he, iff_of_false hts'.not_returns he,
        fun _ => ⟨hgo', hts'⟩⟩
  · -- it has failed
    rw [hpay] at hm
    rw [hres]
    by_cases he : Ends (served.reply lib cfg impl req)
    · rw [if_pos he, hst] at ht
      refine ⟨iff_of_true ?_ he, iff_of_true ?_ he, absurd he⟩
      · refine (returns_terminal hgo invokeUnary_stops hfs hm ht rfl).2 ?_
        rw [causeError_endFrame]
        rfl
      · refine (returns_terminal hts (unaryTerminal_stops label) hfs hm ht ?_).2 rfl
        rw [Ts.toPull]
        show (Ts.unaryTerminal decode label).step none ((Ts.statusErrorFromProto
          (some (Go.statusToProto (statusOf (some e))))).elim .done .rejected) = _
        rw [tsOutcome]
        cases Ts.statusErrorFromProto (some (Go.statusToProto (statusOf (some e)))) with
        | none => rfl
        | some se => rfl
    · rw [if_neg he] at ht
      have hgo' : Waits (Go.runtime method W') (Go.invokeUnary decode) fs :=
        waits_silent hgo hfs hm ht
      have hts' : Waits (Ts.runtime size method headers W' maxSendBuffer)
          (Ts.unaryTerminal decode label) fs := waits_silent hts hfs hm ht
      exact ⟨iff_of_false hgo'.not_returns he, iff_of_false hts'.not_returns he,
        fun _ => ⟨hgo', hts'⟩⟩

/-- A method that returns its request, and a WINDOW_UPDATE in front of its response. -/
theorem unary_call_iff_echo :
    Returns (Go.runtime .empty 0) (Go.invokeUnary some)
        [Flow.update 1, msgFrame 1 [7], endFrame 1 (statusOf none) none] (· = .ok [7]) ∧
      Returns (Ts.runtime (fun _ => 0) .empty ∅ 0 0) (Ts.unaryTerminal some .empty)
        [Flow.update 1, msgFrame 1 [7], endFrame 1 (statusOf none) none] (· = .ok [7]) := by
  have hends : Ends (Served.reply plain .registrar {} (fun r => .done (.ok r)) [7]) := by decide
  have hsock : response [Flow.update 1, msgFrame 1 [7], endFrame 1 (statusOf none) none] =
      finish plain (Served.serve plain .registrar {} .empty (.unary fun r => .done (.ok r))
        (accepted 1 .empty 0 [[7]] .eof)) := by
    rw [Served.finish_serve plain .registrar {} .empty _ [7] [7] rfl, filter_frames, readEnd,
      if_pos (by exact hends)]
    rfl
  have h := unary_call_iff plain some (by rintro res b ⟨⟩; rfl) .registrar {} .empty
    (fun r => .done (.ok r)) [7] [7] rfl .empty 0 (fun _ => 0) ∅ 0 0 .empty _
    (by simp [Inbox.Addressed, Flow.update, msgFrame, endFrame, Inbox.inbound]) hsock
  exact ⟨h.1.2 hends, h.2.1.2 hends⟩

end WsProto.Agree.UnaryCall
