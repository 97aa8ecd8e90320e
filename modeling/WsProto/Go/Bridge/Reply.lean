import WsProto.Go.Bridge.Model

/-!
# What a method's calls put on the wire

The response of an RPC as its client reads it: the metadata of HEADER or none, the
payloads, and the status and the trailers of END.  Either bridge writes the frames of a
reply that the calls of the method determine; the frames whose texts are not UTF-8 do
not reach the socket.

* `filter_frames_eq_iff` — two replies leave the same socket exactly if they read the same;
* `finish_registrarStream` — the reply of a streaming method on the registrar's stream: pending
  headers go out with the first `SendHeader` or `SendMsg`, every message goes out;
* `finish_bridgeClientStream` — the reply on the shim that captures: headers go out with the first
  `SendHeader` only, and the last message after the return, if that was nil;
* `service_sim` — a shim that does not capture cannot be told from the registrar's stream.
-/

namespace WsProto.Go.Bridge

open Serve

/-! ## Replies -/

/-- The response of an RPC. -/
structure Reply where
  /-- The metadata of HEADER, if there is one. -/
  header : Option (Option Headers) := none
  payloads : List Payload := []
  status : Status
  trailers : Option Headers := none

/-- The HEADER frame. -/
def headerFrame (id : UInt32) (md : Option Headers) : Frame :=
  { streamId := id, kind := .kindHeader, headers := md }

/-- A MSG frame. -/
def msgFrame (id : UInt32) (b : Payload) : Frame :=
  { streamId := id, kind := .kindMsg, payload := b }

/-- The END frame. -/
def endFrame (id : UInt32) (st : Status) (trailers : Option Headers) : Frame :=
  { streamId := id, kind := .kindEnd, headers := trailers, status := some (statusToProto st) }

/-- The frames that come before END. -/
def body (id : UInt32) (header : Option (Option Headers)) (payloads : List Payload) : List Frame :=
  (header.map (headerFrame id)).toList ++ payloads.map (msgFrame id)

/-- The metadata is UTF-8. -/
def Readable (md : Option Headers) : Prop := ∀ h ∈ md, Headers.Utf8 h

instance (md : Option Headers) : Decidable (Readable md) :=
  inferInstanceAs (Decidable (∀ h ∈ md, Headers.Utf8 h))

/-- The HEADER that reaches the socket. -/
def readHeader (header : Option (Option Headers)) : Option (Option Headers) :=
  header.filter fun md => Readable md

/-- The END that reaches the socket. -/
def readEnd (st : Status) (trailers : Option Headers) : Option (Status × Option Headers) :=
  if Readable trailers ∧ st.message.IsValidUTF8 then some (st, trailers) else none

namespace Reply

/-- The frames of a reply. -/
def frames (id : UInt32) (r : Reply) : List Frame :=
  body id r.header r.payloads ++ [endFrame id r.status r.trailers]

/-- The replies read the same: HEADER metadata or none, payloads, END status and
trailers. -/
structure Alike (r r' : Reply) : Prop where
  header : readHeader r.header = readHeader r'.header
  payloads : r.payloads = r'.payloads
  ending : readEnd r.status r.trailers = readEnd r'.status r'.trailers

theorem Alike.refl (r : Reply) : r.Alike r := ⟨rfl, rfl, rfl⟩

end Reply

/-! ## What reaches the socket -/

@[simp] theorem headerFrame_utf8 (id : UInt32) (md : Option Headers) :
    (headerFrame id md).Utf8 ↔ Readable md := by
  simp [Frame.Utf8, headerFrame, Readable, ByteArray.isValidUTF8_empty]

@[simp] theorem msgFrame_utf8 (id : UInt32) (b : Payload) : (msgFrame id b).Utf8 := by
  simp [Frame.Utf8, msgFrame, ByteArray.isValidUTF8_empty]

@[simp] theorem endFrame_utf8 (id : UInt32) (st : Status) (trailers : Option Headers) :
    (endFrame id st trailers).Utf8 ↔ Readable trailers ∧ st.message.IsValidUTF8 := by
  simp [Frame.Utf8, endFrame, Readable, statusToProto, ByteArray.isValidUTF8_empty]

theorem filter_body (id : UInt32) (header : Option (Option Headers)) (payloads : List Payload) :
    (body id header payloads).filter (fun f => f.Utf8) = body id (readHeader header) payloads := by
  have hmsgs : (payloads.map (msgFrame id)).filter (fun f => f.Utf8) =
      payloads.map (msgFrame id) := by
    refine List.filter_eq_self.2 fun f hf => ?_
    obtain ⟨b, -, rfl⟩ := List.mem_map.1 hf
    simp
  rw [body, List.filter_append, hmsgs, body]
  cases header with
  | none => rfl
  | some md => by_cases hmd : Readable md <;> simp [readHeader, Option.filter_some, hmd]

theorem filter_frames (id : UInt32) (r : Reply) :
    (r.frames id).filter (fun f => f.Utf8) =
      body id (readHeader r.header) r.payloads ++
        ((readEnd r.status r.trailers).map fun e => endFrame id e.1 e.2).toList := by
  rw [Reply.frames, List.filter_append, filter_body, readEnd]
  by_cases hend : Readable r.trailers ∧ r.status.message.IsValidUTF8 <;> simp [hend]

theorem headerFrame_injective (id : UInt32) : Function.Injective (headerFrame id) := by
  intro md md' h
  exact congrArg Frame.headers h

theorem msgFrame_injective (id : UInt32) : Function.Injective (msgFrame id) := by
  intro b b' h
  exact congrArg Frame.payload h

theorem endFrame_injective (id : UInt32) :
    Function.Injective fun e : Status × Option Headers => endFrame id e.1 e.2 := by
  rintro ⟨st, t⟩ ⟨st', t'⟩ h
  have ht : t = t' := congrArg Frame.headers h
  have hst : statusFromProto (some (statusToProto st)) = statusFromProto (some (statusToProto st')) :=
    congrArg (fun f : Frame => statusFromProto f.status) h
  rw [statusFromProto_statusToProto, statusFromProto_statusToProto] at hst
  rw [ht, hst]

/-- A frame of each kind can be read off the frames. -/
theorem filter_kind (id : UInt32) (header : Option (Option Headers)) (payloads : List Payload)
    (ending : Option (Status × Option Headers)) (k : Kind) :
    (body id header payloads ++ (ending.map fun e => endFrame id e.1 e.2).toList).filter
        (fun f => f.kind = k) =
      (if k = .kindHeader then (header.map (headerFrame id)).toList else []) ++
      (if k = .kindMsg then payloads.map (msgFrame id) else []) ++
      (if k = .kindEnd then (ending.map fun e => endFrame id e.1 e.2).toList else []) := by
  have hheader : (header.map (headerFrame id)).toList.filter (fun f => f.kind = k) =
      if k = .kindHeader then (header.map (headerFrame id)).toList else [] := by
    cases header with
    | none => simp
    | some md => by_cases hk : k = .kindHeader <;> simp [headerFrame, hk, eq_comm]
  have hmsgs : (payloads.map (msgFrame id)).filter (fun f => f.kind = k) =
      if k = .kindMsg then payloads.map (msgFrame id) else [] := by
    induction payloads with
    | nil => simp
    | cons b rest ih =>
        rw [List.map_cons, List.filter_cons, ih]
        by_cases hk : k = .kindMsg <;> simp [msgFrame, hk, eq_comm]
  have hend : (ending.map fun e => endFrame id e.1 e.2).toList.filter (fun f => f.kind = k) =
      if k = .kindEnd then (ending.map fun e => endFrame id e.1 e.2).toList else [] := by
    cases ending with
    | none => simp
    | some e => by_cases hk : k = .kindEnd <;> simp [endFrame, hk, eq_comm]
  rw [List.filter_append, body, List.filter_append, hheader, hmsgs, hend]

/-- **The socket tells replies apart exactly by what can be read.** -/
theorem filter_frames_eq_iff (id : UInt32) (r r' : Reply) :
    (r.frames id).filter (fun f => f.Utf8) = (r'.frames id).filter (fun f => f.Utf8) ↔
      r.Alike r' := by
  rw [filter_frames, filter_frames]
  constructor
  · intro h
    have hkind := fun k => congrArg (List.filter fun f : Frame => f.kind = k) h
    simp only [filter_kind] at hkind
    refine ⟨?_, ?_, ?_⟩
    · refine Option.map_injective (headerFrame_injective id) ?_
      simpa using congrArg List.head? (hkind .kindHeader)
    · refine List.map_injective_iff.2 (msgFrame_injective id) ?_
      simpa using hkind .kindMsg
    · refine Option.map_injective (endFrame_injective id) ?_
      simpa using congrArg List.head? (hkind .kindEnd)
  · rintro ⟨hheader, hpayloads, hend⟩
    rw [hheader, hpayloads, hend]

theorem body_append (id : UInt32) (header : Option (Option Headers)) (bs bs' : List Payload) :
    body id header bs ++ body id none bs' = body id header (bs ++ bs') := by
  simp [body]

/-! ## What the calls determine -/

section Calls

variable {Req Res : Type} (lib : Library Req Res)

/-- The metadata of HEADER if pending headers go out with the first `SendHeader` or
`SendMsg`, and none go out after a message. -/
def flushed (pending : Option MD) : List (Call Res) → Option (Option Headers)
  | [] => none
  | .setHeader md :: cs => flushed (some (join pending md)) cs
  | .sendHeader md :: _ => some (flattenMD (join pending md))
  | .setTrailer _ :: cs => flushed pending cs
  | .recvMsg :: cs => flushed pending cs
  | .sendMsg m :: cs =>
      match pending, lib.marshal m with
      | some md, _ => some (flattenMD md)
      | none, .ok _ => none
      | none, .error _ => flushed none cs

/-- The metadata of HEADER if pending headers go out with the first `SendHeader` only. -/
def announced (pending : Option MD) : List (Call Res) → Option (Option Headers)
  | [] => none
  | .setHeader md :: cs => announced (some (join pending md)) cs
  | .sendHeader md :: _ => some (flattenMD (join pending md))
  | .setTrailer _ :: cs => announced pending cs
  | .recvMsg :: cs => announced pending cs
  | .sendMsg _ :: cs => announced pending cs

/-- The payloads of the messages that can be marshaled. -/
def sent : List (Call Res) → List Payload
  | [] => []
  | .sendMsg m :: cs => (lib.marshal m).toOption.toList ++ sent cs
  | _ :: cs => sent cs

/-- The last message. -/
def lastMsg (m : Option Res) : List (Call Res) → Option Res
  | [] => m
  | .sendMsg m' :: cs => lastMsg (some m') cs
  | _ :: cs => lastMsg m cs

/-- The trailers. -/
def trailersOf (t : Option Headers) : List (Call Res) → Option Headers
  | [] => t
  | .setTrailer md :: cs => trailersOf (mergeInto t ((flattenMD md).getD ∅)) cs
  | _ :: cs => trailersOf t cs

/-! ## One call -/

/-- HEADER can no longer be sent. -/
def Rpc.opened (x : Rpc) : Bool := x.stream.headerSent || x.stream.msgSent

/-- From `x` to `y` some frames were written, as far as they can be, and the trailers
became `t`. -/
structure Grown (x y : Rpc) (fs : List Frame) (t : Option Headers) : Prop where
  id : y.stream.id = x.stream.id
  sock : y.sock = x.sock ++ fs.filter fun f => f.Utf8
  trailer : y.stream.outTrailer = t

theorem Grown.trans {x y z : Rpc} {fs fs' : List Frame} {t t' : Option Headers}
    (h : Grown x y fs t) (h' : Grown y z fs' t') : Grown x z (fs ++ fs') t' where
  id := h'.id.trans h.id
  sock := by rw [h'.sock, h.sock, List.filter_append, List.append_assoc]
  trailer := h'.trailer

theorem Grown.refl (x : Rpc) : Grown x x [] x.stream.outTrailer := ⟨rfl, by simp, rfl⟩

theorem marshalFrame_isSome (f : Frame) : (lib.marshalFrame f).isSome ↔ f.Utf8 :=
  lib.encode_ok_iff f

theorem sendHeader_opened {x : Rpc} (h : x.opened = true) (md : Option Headers) :
    (x.sendHeader lib md).1 = x := by
  rw [Rpc.opened] at h
  simp [Rpc.sendHeader, Stream.sendHeader, h]

theorem grown_sendHeader {x : Rpc} (h : x.opened = false) (md : Option Headers) :
    Grown x (x.sendHeader lib md).1 [headerFrame x.stream.id md] x.stream.outTrailer ∧
      (x.sendHeader lib md).1.opened = true := by
  rw [Rpc.opened] at h
  simp only [Rpc.sendHeader, Stream.sendHeader, h, Bool.false_eq_true, if_false, Rpc.write]
  exact ⟨⟨rfl, writeFrame_eq (marshalFrame_isSome lib) _ _, rfl⟩, rfl⟩

theorem grown_sendRaw (x : Rpc) (b : Payload) :
    Grown x (x.sendRaw lib b).1 (body x.stream.id none [b]) x.stream.outTrailer ∧
      (x.sendRaw lib b).1.opened = true ∧ (x.sendRaw lib b).2 = none := by
  have hopened : (x.sendRaw lib b).1.opened = true := by
    simp [Rpc.opened, Rpc.sendRaw, Rpc.write, Stream.chargeSend]
  refine ⟨⟨rfl, writeFrame_eq (marshalFrame_isSome lib) _ _, rfl⟩, hopened, ?_⟩
  have hok : (lib.encode (x.stream.msgFrame b)).toOption.isSome :=
    (marshalFrame_isSome lib _).2 (msgFrame_utf8 _ _)
  simp only [Rpc.sendRaw, Rpc.write]
  cases henc : lib.encode (x.stream.msgFrame b) with
  | ok _ => rfl
  | error e => simp [henc, Except.toOption] at hok

theorem setTrailer_eq (s : Stream) (md : Headers) :
    s.setTrailer md = { s with outTrailer := mergeInto s.outTrailer md } := by
  unfold Stream.setTrailer mergeInto
  split <;> rfl

theorem grown_setTrailer (x : Rpc) (md : Option Headers) :
    Grown x (x.setTrailer md) [] (mergeInto x.stream.outTrailer (md.getD ∅)) ∧
      (x.setTrailer md).opened = x.opened := by
  simp only [Rpc.setTrailer, setTrailer_eq]
  exact ⟨⟨rfl, by simp, rfl⟩, rfl⟩

theorem grown_recvRaw (x : Rpc) :
    Grown x x.recvRaw.1 [] x.stream.outTrailer ∧ x.recvRaw.1.opened = x.opened := by
  unfold Rpc.recvRaw
  split
  · exact ⟨.refl x, rfl⟩
  · exact ⟨⟨rfl, by simp, rfl⟩, rfl⟩

theorem grown_flushHeader {x : Rpc} (h : x.opened = false) (md : Option Headers) :
    Grown x (x.flushHeader lib md) (body x.stream.id (md.map some) []) x.stream.outTrailer := by
  cases md with
  | none => exact .refl x
  | some md => exact (grown_sendHeader lib h (some md)).1

/-! ## The registrar's stream -/

theorem grown_flush (x : GrpcServerStream) :
    Grown x.rpc (x.flush lib).rpc
        (body x.rpc.stream.id (if x.rpc.opened then none else x.pending.map flattenMD) [])
        x.rpc.stream.outTrailer ∧
      (x.flush lib).rpc.opened = (x.rpc.opened || x.pending.isSome) ∧
      (x.flush lib).pending = none := by
  obtain ⟨rpc, pending⟩ := x
  cases pending with
  | none =>
      exact ⟨by simpa [body, GrpcServerStream.flush] using Grown.refl rpc,
        by simp [GrpcServerStream.flush], rfl⟩
  | some md =>
      cases hopened : rpc.opened with
      | true =>
          simp only [GrpcServerStream.flush, sendHeader_opened lib hopened]
          exact ⟨by simpa [body] using Grown.refl rpc, by simp [hopened], trivial⟩
      | false =>
          obtain ⟨hgrown, hnow⟩ := grown_sendHeader lib hopened (flattenMD md)
          exact ⟨hgrown, by simpa [GrpcServerStream.flush] using hnow, rfl⟩

/-- The calls on the registrar's stream: the headers they flush, if none were before, and
the messages they send. -/
theorem grown_after (cs : List (Call Res)) (x : GrpcServerStream) :
    Grown x.rpc (Dialogue.after (GrpcServerStream.service lib) x cs).rpc
      (body x.rpc.stream.id (if x.rpc.opened then none else flushed lib x.pending cs) (sent lib cs))
      (trailersOf x.rpc.stream.outTrailer cs) := by
  -- by induction on the calls; the state that matters is whether HEADER can still go out
  induction cs generalizing x with
  | nil => simpa [body, flushed, sent, trailersOf] using Grown.refl x.rpc
  | cons c cs ih =>
      rw [Dialogue.after_cons]
      cases c with
      | setHeader md => exact ih (x.setHeader md).1
      | sendHeader md =>
          have hrest := ih (x.sendHeader lib md).1
          cases hopened : x.rpc.opened with
          | true =>
              have hsame := sendHeader_opened lib hopened (flattenMD (join x.pending md))
              simp only [GrpcServerStream.sendHeader, hsame, hopened] at hrest
              simpa [GrpcServerStream.service, GrpcServerStream.sendHeader, hsame, sent,
                trailersOf] using hrest
          | false =>
              obtain ⟨hgrown, hnow⟩ :=
                grown_sendHeader lib hopened (flattenMD (join x.pending md))
              have hall := hgrown.trans hrest
              simpa [GrpcServerStream.service, GrpcServerStream.sendHeader, hnow, hgrown.id,
                hgrown.trailer, flushed, sent, trailersOf, body] using hall
      | setTrailer md =>
          obtain ⟨hgrown, hnow⟩ := grown_setTrailer x.rpc (flattenMD md)
          have hall := hgrown.trans (ih (x.setTrailer md))
          simpa [GrpcServerStream.service, GrpcServerStream.setTrailer, hnow, hgrown.id,
            hgrown.trailer, flushed, sent, trailersOf] using hall
      | recvMsg =>
          obtain ⟨hgrown, hnow⟩ := grown_recvRaw x.rpc
          have hall := hgrown.trans (ih (x.recvMsg lib).1)
          simpa [GrpcServerStream.service, GrpcServerStream.recvMsg, hnow, hgrown.id,
            hgrown.trailer, flushed, sent, trailersOf] using hall
      | sendMsg m =>
          obtain ⟨hflush, hnow, hpending⟩ := grown_flush lib x
          cases hm : lib.marshal m with
          | error e =>
              have hall := hflush.trans (ih (x.flush lib))
              cases hopened : x.rpc.opened <;> cases hp : x.pending <;>
                simpa [GrpcServerStream.service, GrpcServerStream.sendMsg, hm, hnow, hpending,
                  hflush.id, hflush.trailer, flushed, sent, trailersOf, hopened, hp, body,
                  Except.toOption] using hall
          | ok b =>
              obtain ⟨hraw, hopen, -⟩ := grown_sendRaw lib (x.flush lib).rpc b
              have hall := (hflush.trans hraw).trans
                (ih { x.flush lib with rpc := ((x.flush lib).rpc.sendRaw lib b).1 })
              cases hopened : x.rpc.opened <;> cases hp : x.pending <;>
                simpa [GrpcServerStream.service, GrpcServerStream.sendMsg, hm, hopen, hpending,
                  hflush.id, hflush.trailer, hraw.id, hraw.trailer, flushed, sent, trailersOf,
                  hopened, hp, body, Except.toOption] using hall

/-! ## The generated shim -/

theorem entries_foldr_insert (l : List ((_ : Text) × List Text)) (h : l.NodupKeys) :
    (l.foldr (fun e out => out.insert e.1 ((out.lookup e.1).getD [] ++ e.2)) (∅ : MD)).entries =
      l := by
  induction l with
  | nil => rfl
  | cons e rest ih =>
      rw [List.nodupKeys_cons] at h
      have hrest := ih h.2
      -- the key is new, so that it is put in front with its own values
      have hlookup : (rest.foldr (fun e out => out.insert e.1 ((out.lookup e.1).getD [] ++ e.2))
          (∅ : MD)).lookup e.1 = none := by
        rw [AList.lookup_eq_none, AList.mem_keys, AList.keys, hrest]
        exact h.1
      rw [List.foldr_cons, AList.entries_insert, hlookup, hrest,
        List.kerase_of_notMem_keys h.1]
      simp

theorem appendMD_empty (md : MD) : appendMD ∅ md = md :=
  AList.ext (entries_foldr_insert md.entries md.nodupKeys)

/-- `metadata.Join` and the loop of the shim build the same map. -/
theorem join_eq (pending : Option MD) (md : MD) :
    join pending md = appendMD (pending.getD ∅) md := by
  rw [join, appendMD_empty]

/-- The shim stands where the registrar's stream stands. -/
structure Matches (x : GrpcServerStream) (y : GrpcStream Res) : Prop where
  rpc : y.rpc = x.rpc
  pending : y.pendingHeader = x.pending

theorem matches_flush {x : GrpcServerStream} {y : GrpcStream Res} (h : Matches x y) :
    Matches (x.flush lib) (y.flush lib) ∧ (y.flush lib).capturing = y.capturing := by
  rw [GrpcServerStream.flush, GrpcStream.flush, h.pending]
  split
  · exact ⟨h, rfl⟩
  · exact ⟨⟨by rw [h.rpc], rfl⟩, rfl⟩

/-- A message aside, the shim answers every call as the registrar's stream does. -/
theorem service_sim_of_ne {c : Call Res} (hc : ∀ m, c ≠ .sendMsg m) {x : GrpcServerStream}
    {y : GrpcStream Res} (h : Matches x y) :
    (GrpcServerStream.service lib c x).2 = (GrpcStream.service lib c y).2 ∧
      Matches (GrpcServerStream.service lib c x).1 (GrpcStream.service lib c y).1 ∧
      (GrpcStream.service lib c y).1.capturing = y.capturing := by
  obtain ⟨hr, hp⟩ := h
  cases c with
  | setHeader md =>
      refine ⟨rfl, ⟨hr, ?_⟩, rfl⟩
      simp [GrpcServerStream.service, GrpcServerStream.setHeader, GrpcStream.service,
        GrpcStream.setHeader, join_eq, hp]
  | sendHeader md =>
      simp only [GrpcServerStream.service, GrpcServerStream.sendHeader, GrpcStream.service,
        GrpcStream.sendHeader, join_eq, hp, hr]
      exact ⟨trivial, ⟨rfl, rfl⟩, trivial⟩
  | setTrailer md =>
      refine ⟨rfl, ⟨?_, hp⟩, rfl⟩
      simp [GrpcServerStream.service, GrpcServerStream.setTrailer, GrpcStream.service,
        GrpcStream.setTrailer, hr]
  | recvMsg =>
      simp only [GrpcServerStream.service, GrpcServerStream.recvMsg, GrpcStream.service,
        GrpcStream.recvMsg, Rpc.recv, hr]
      exact ⟨trivial, ⟨rfl, hp⟩, trivial⟩
  | sendMsg m => exact absurd rfl (hc m)

/-- **A shim that does not capture answers every call as the registrar's stream does.** -/
theorem service_sim (c : Call Res) (x : GrpcServerStream) (y : GrpcStream Res)
    (h : Matches x y ∧ y.capturing = false) :
    (GrpcServerStream.service lib c x).2 = (GrpcStream.service lib c y).2 ∧
      Matches (GrpcServerStream.service lib c x).1 (GrpcStream.service lib c y).1 ∧
      (GrpcStream.service lib c y).1.capturing = false := by
  by_cases hc : ∀ m, c ≠ .sendMsg m
  · obtain ⟨hanswer, hmatches, hcapturing⟩ := service_sim_of_ne lib hc h.1
    exact ⟨hanswer, hmatches, hcapturing.trans h.2⟩
  · push Not at hc
    obtain ⟨m, rfl⟩ := hc
    obtain ⟨hf, hcapturing⟩ := matches_flush lib h.1
    rw [h.2] at hcapturing
    simp only [GrpcServerStream.service, GrpcServerStream.sendMsg, GrpcStream.service,
      GrpcStream.sendMsg, h.2, Bool.false_eq_true, if_false, Rpc.send, hf.rpc]
    cases lib.marshal m with
    | error e => exact ⟨rfl, ⟨rfl, hf.pending⟩, hcapturing⟩
    | ok b => exact ⟨rfl, ⟨rfl, hf.pending⟩, hcapturing⟩

/-- The calls on a shim that captures: only `SendHeader` writes, and the last message is
kept. -/
theorem grown_after_capturing (cs : List (Call Res)) (x : GrpcStream Res)
    (hx : x.capturing = true) :
    Grown x.rpc (Dialogue.after (GrpcStream.service lib) x cs).rpc
        (body x.rpc.stream.id (if x.rpc.opened then none else announced x.pendingHeader cs) [])
        (trailersOf x.rpc.stream.outTrailer cs) ∧
      (Dialogue.after (GrpcStream.service lib) x cs).captured = lastMsg x.captured cs := by
  induction cs generalizing x with
  | nil => exact ⟨by simpa [body, announced, trailersOf] using Grown.refl x.rpc, rfl⟩
  | cons c cs ih =>
      rw [Dialogue.after_cons]
      cases c with
      | setHeader md =>
          obtain ⟨hrest, hlast⟩ := ih (x.setHeader md) hx
          refine ⟨?_, hlast⟩
          rw [announced, join_eq]
          exact hrest
      | sendHeader md =>
          obtain ⟨hrest, hlast⟩ := ih (x.sendHeader lib md).1 hx
          refine ⟨?_, hlast⟩
          cases hopened : x.rpc.opened with
          | true =>
              have hsame := sendHeader_opened lib hopened
                (flattenMD (appendMD (x.pendingHeader.getD ∅) md))
              simp only [GrpcStream.sendHeader, hsame, hopened] at hrest
              simpa [GrpcStream.service, GrpcStream.sendHeader, hsame, trailersOf] using hrest
          | false =>
              obtain ⟨hgrown, hnow⟩ := grown_sendHeader lib hopened
                (flattenMD (appendMD (x.pendingHeader.getD ∅) md))
              have hall := hgrown.trans hrest
              simpa [GrpcStream.service, GrpcStream.sendHeader, hnow, hgrown.id, hgrown.trailer,
                announced, trailersOf, body, join_eq] using hall
      | setTrailer md =>
          obtain ⟨hgrown, hnow⟩ := grown_setTrailer x.rpc (flattenMD md)
          obtain ⟨hrest, hlast⟩ := ih (x.setTrailer md) hx
          have hall := hgrown.trans hrest
          refine ⟨?_, hlast⟩
          simpa [GrpcStream.service, GrpcStream.setTrailer, hnow, hgrown.id, hgrown.trailer,
            announced, trailersOf] using hall
      | recvMsg =>
          obtain ⟨hgrown, hnow⟩ := grown_recvRaw x.rpc
          obtain ⟨hrest, hlast⟩ := ih (x.recvMsg lib).1 hx
          have hall := hgrown.trans hrest
          refine ⟨?_, hlast⟩
          simpa [GrpcStream.service, GrpcStream.recvMsg, Rpc.recv, hnow, hgrown.id, hgrown.trailer,
            announced, trailersOf] using hall
      | sendMsg m =>
          have hrest := ih { x with captured := some m } hx
          simpa [GrpcStream.service, GrpcStream.sendMsg, hx, announced, trailersOf, lastMsg]
            using hrest

/-! ## The reply of an RPC -/

/-- The status of what a handler returns. -/
def statusOf (err : Option GoError) : Status := (fromError err).getD { code := Code.ok }

/-- A reply that is an error and nothing else. -/
def failed (e : GoError) : Reply := { status := statusOf (some e) }

/-- The stream is as it was opened. -/
structure Fresh (x : Rpc) : Prop where
  sock : x.sock = []
  opened : x.opened = false
  trailer : x.stream.outTrailer = none

theorem Fresh.recvRaw {x : Rpc} (h : Fresh x) : Fresh x.recvRaw.1 where
  sock := by simpa [h.sock] using (grown_recvRaw x).1.sock
  opened := by rw [(grown_recvRaw x).2, h.opened]
  trailer := by rw [(grown_recvRaw x).1.trailer, h.trailer]

/-- What `serveStream` adds to what the handler has written. -/
theorem finish_eq {x y : Rpc} (hx : Fresh x) {header : Option (Option Headers)}
    {bs : List Payload} {t : Option Headers} (h : Grown x y (body x.stream.id header bs) t)
    (err : Option GoError) :
    finish lib (y, err) =
      (Reply.frames x.stream.id ⟨header, bs, statusOf err, t⟩).filter fun f => f.Utf8 := by
  rw [finish, endStream, writeFrame_eq (marshalFrame_isSome lib), h.sock, hx.sock,
    Stream.takeTrailer, h.trailer, Reply.frames, List.filter_append, List.nil_append,
    Stream.endFrameOf, h.id]
  rfl

/-- The reply of a streaming method that has made calls on the registrar's stream. -/
def streamReply (cs : List (Call Res)) (err : Option GoError) : Reply where
  header := flushed lib none cs
  payloads := sent lib cs
  status := statusOf err
  trailers := trailersOf none cs

theorem finish_registrarStream (cfg : BridgeConfig) (impl : StreamImpl Req Res) {x : Rpc}
    (hx : Fresh x) :
    finish lib (registrarStream lib cfg impl x) =
      ((streamReply lib (impl.calls (GrpcServerStream.service lib) { rpc := x })
        (impl.run (GrpcServerStream.service lib) { rpc := x }).2).frames x.stream.id).filter
          fun f => f.Utf8 := by
  have hgrown := grown_after lib (impl.calls (GrpcServerStream.service lib) { rpc := x })
    { rpc := x }
  simp only [← Dialogue.run_fst, hx.opened, hx.trailer, Bool.false_eq_true, if_false] at hgrown
  simp only [registrarStream, passThrough, ite_self]
  exact finish_eq lib hx hgrown _

/-- What a client-streaming method on the shim answers in the end. -/
def answer (name : Text) (m : Option Res) (err : Option GoError) : List Payload × Option GoError :=
  match err, m with
  | some e, _ => ([], some e)
  | none, none => ([], some (notAnswered name))
  | none, some m =>
      match lib.marshal m with
      | .ok b => ([b], none)
      | .error e => ([], some e)

/-- The reply of a client-streaming method that has made calls on the shim. -/
def capturedReply (name : Text) (cs : List (Call Res)) (err : Option GoError) : Reply where
  header := announced none cs
  payloads := (answer lib name (lastMsg none cs) err).1
  status := statusOf (answer lib name (lastMsg none cs) err).2
  trailers := trailersOf none cs

theorem finish_bridgeClientStream (cfg : BridgeConfig) (name : Text) (impl : StreamImpl Req Res)
    {x : Rpc} (hx : Fresh x) :
    finish lib (bridgeClientStream lib cfg name impl x) =
      ((capturedReply lib name
        (impl.calls (GrpcStream.service lib) { rpc := x, capturing := true })
        (impl.run (GrpcStream.service lib) { rpc := x, capturing := true }).2).frames
          x.stream.id).filter fun f => f.Utf8 := by
  obtain ⟨hgrown, hlast⟩ := grown_after_capturing lib
    (impl.calls (GrpcStream.service lib) { rpc := x, capturing := true })
    { rpc := x, capturing := true } rfl
  have hshim : onShim lib cfg impl { rpc := x, capturing := true } =
      impl.run (GrpcStream.service lib) { rpc := x, capturing := true } := by
    simp [onShim, passThrough]
  simp only [← Dialogue.run_fst, hx.opened, hx.trailer, Bool.false_eq_true, if_false]
    at hgrown hlast
  generalize impl.calls (GrpcStream.service lib) { rpc := x, capturing := true } = cs at *
  generalize impl.run (GrpcStream.service lib) { rpc := x, capturing := true } = ended at *
  -- what was captured is sent now, behind all the method has written
  obtain ⟨⟨rpc, capturing, captured, pending⟩, err⟩ := ended
  rw [bridgeClientStream, sendCaptured, hshim, capturedReply, ← hlast]
  cases err with
  | some e => exact finish_eq lib hx hgrown (some e)
  | none =>
      cases captured with
      | none => exact finish_eq lib hx hgrown (some (notAnswered name))
      | some m =>
          simp only [Rpc.send, answer]
          cases lib.marshal m with
          | error e => exact finish_eq lib hx hgrown (some e)
          | ok b =>
              obtain ⟨hraw, -, herr⟩ := grown_sendRaw lib rpc b
              have hall := hgrown.trans hraw
              rw [hgrown.id, hgrown.trailer, body_append] at hall
              rw [← herr]
              exact finish_eq lib hx hall _

/-- The reply of a unary method that has set metadata. -/
def metadataReply (sink : MdSink) (bs : List Payload) (err : Option GoError) : Reply where
  header := sink.takeHeader.map some
  payloads := bs
  status := statusOf err
  trailers := mergeInto none (sink.takeTrailer.getD ∅)

/-- The reply of a unary method through the registrar: the response is marshaled before
anything is sent. -/
def registrarReply (sink : MdSink) (res : Except GoError Res) : Reply :=
  match res.bind lib.marshal with
  | .error e => failed e
  | .ok b => metadataReply sink [b] none

/-- The reply of a unary method through the bridge: the metadata is sent before the
response is marshaled. -/
def bridgeReply (sink : MdSink) (res : Except GoError Res) : Reply :=
  match res with
  | .error e => failed e
  | .ok res =>
      match lib.marshal res with
      | .error e => metadataReply sink [] (some e)
      | .ok b => metadataReply sink [b] none

/-- What a unary method has set, once it is sent. -/
theorem grown_metadata {x : Rpc} (hx : Fresh x) (sink : MdSink) :
    Grown x ((x.flushHeader lib sink.takeHeader).setTrailer sink.takeTrailer)
      (body x.stream.id (sink.takeHeader.map some) [])
      (mergeInto none (sink.takeTrailer.getD ∅)) := by
  have hheader := grown_flushHeader lib hx.opened sink.takeHeader
  have hall := hheader.trans (grown_setTrailer _ sink.takeTrailer).1
  rwa [List.append_nil, hheader.trailer, hx.trailer] at hall

/-- A unary method that is answered: its metadata and its response. -/
theorem finish_metadata {x : Rpc} (hx : Fresh x) (sink : MdSink) (b : Payload) :
    finish lib (((x.flushHeader lib sink.takeHeader).setTrailer sink.takeTrailer).sendRaw lib b) =
      ((metadataReply sink [b] none).frames x.stream.id).filter fun f => f.Utf8 := by
  have hmetadata := grown_metadata lib hx sink
  obtain ⟨hraw, -, herr⟩ := grown_sendRaw lib
    ((x.flushHeader lib sink.takeHeader).setTrailer sink.takeTrailer) b
  have hall := hmetadata.trans hraw
  rw [hmetadata.id, hmetadata.trailer, body_append] at hall
  rw [metadataReply, ← herr]
  exact finish_eq lib hx hall _

theorem finish_failed {x : Rpc} (hx : Fresh x) (e : GoError) :
    finish lib (x, some e) = ((failed e).frames x.stream.id).filter fun f => f.Utf8 := by
  have hgrown := Grown.refl x
  rw [hx.trailer] at hgrown
  exact finish_eq lib hx hgrown (some e)

theorem finish_registrarAnswer (cfg : BridgeConfig) (impl : UnaryImpl Req Res) (raw : Payload)
    {x : Rpc} (hx : Fresh x) :
    finish lib (registrarAnswer lib cfg impl x raw) =
      ((registrarReply lib
        ((unaryHandler cfg.unary impl (lib.unmarshal raw)).run transportStream {}).1
        ((unaryHandler cfg.unary impl (lib.unmarshal raw)).run transportStream {}).2).frames
          x.stream.id).filter fun f => f.Utf8 := by
  rw [registrarAnswer]
  generalize (unaryHandler cfg.unary impl (lib.unmarshal raw)).run transportStream {} = call
  obtain ⟨sink, res⟩ := call
  cases res with
  | error e => exact finish_failed lib hx e
  | ok res =>
      simp only [registrarReply, Except.bind]
      cases lib.marshal res with
      | error e => exact finish_failed lib hx e
      | ok b => exact finish_metadata lib hx sink b

theorem finish_handlerAnswer (cfg : BridgeConfig) (impl : UnaryImpl Req Res) (req : Req)
    {x : Rpc} (hx : Fresh x) :
    finish lib (handlerAnswer lib cfg impl x req) =
      ((bridgeReply lib (bridgeUnary lib cfg impl req).1 (bridgeUnary lib cfg impl req).2).frames
        x.stream.id).filter fun f => f.Utf8 := by
  rw [handlerAnswer]
  generalize bridgeUnary lib cfg impl req = call
  obtain ⟨sink, res⟩ := call
  cases res with
  | error e => exact finish_failed lib hx e
  | ok res =>
      simp only [bridgeReply, Rpc.send]
      cases lib.marshal res with
      | error e => exact finish_eq lib hx (grown_metadata lib hx sink) (some e)
      | ok b => exact finish_metadata lib hx sink b

/-- A method on a shim that does not capture is served as on the registrar's stream. -/
theorem onShim_eq (cfg : BridgeConfig) (impl : StreamImpl Req Res) (x : Rpc) :
    ((onShim lib cfg impl { rpc := x }).1.rpc, (onShim lib cfg impl { rpc := x }).2) =
      registrarStream lib cfg impl x := by
  obtain ⟨herr, hend⟩ := Dialogue.run_sim (service_sim lib) impl
    (s := { rpc := x }) (t := { rpc := x }) ⟨⟨rfl, rfl⟩, rfl⟩
  simp only [onShim, registrarStream, passThrough, ite_self, herr, hend.1.rpc]

end Calls

end WsProto.Go.Bridge
