import WsProto.Drain
import WsProto.Go.Receive
import WsProto.Ts.Receive

/-!
# Calls with a single response

The four loops that read the response of a unary or client-streaming call:
`InvokeUnary` and the generated `CloseAndRecv` in Go, `unaryTerminal` and
`firstResponse` in TypeScript.  Each begins when the request has been sent.

A response is the one message of a stream that ends with OK (`single`).  `unaryTerminal`
checks for exactly that.  `InvokeUnary` reads the second message of two and drops it,
`firstResponse` returns the last of many, and `CloseAndRecv` returns the first without
looking further.

* `respond_iff` — so the four agree on a sequence of frames, with `single`, exactly if the
  server keeps to the protocol: an error without a message, a message that does not
  decode, or one message and an END with OK.
-/

namespace WsProto

open Inbox

variable {M : Type} (decode : Payload → Option M)

/-! ## The Go helpers -/

namespace Go

/-- The error of a call: that of a receive, or that of `proto.Unmarshal`. -/
inductive CallError where
  | recv (e : GoError)
  | unmarshal
  deriving DecidableEq

/-- `Stream.Recv`, given what `RecvRaw` returns. -/
def recvMsg : Except GoError Payload → Except CallError M
  | .error e => .error (.recv e)
  | .ok b => (decode b).elim (.error .unmarshal) .ok

/-- The drain of the trailing END in `InvokeUnary`, where `out` has been read. -/
def drainEnd (out : M) : Except CallError M → Except CallError M
  | .error (.recv .eof) => .ok out
  | .error e => .error e
  | .ok _ => .ok out

/-- The receiving part of `InvokeUnary`; the state is `out`, once it has been read. -/
def invokeUnary : Drain (Option M) (Except GoError Payload) (Except CallError M) where
  start := none
  step
    | none, r =>
        match recvMsg decode r with
        | .error e => .inr (.error e)
        | .ok out => .inl (some out)
    | some out, r => .inr (drainEnd out (recvMsg decode r))

/-- The receiving part of `CloseAndRecv`, which is one `Recv`. -/
def closeAndRecv : Drain Unit (Except GoError Payload) (Except CallError M) where
  start := ()
  step _ r := .inr (recvMsg decode r)

/-- A stream of a Go client. -/
def runtime (method : Text) (W : ℤ) : Runtime Receivers (Except GoError Payload) where
  start := .start method W
  event := Receivers.Runs
  results y := y.x.results

theorem refines (method : Text) (W : ℤ) :
    Refines (runtime method W) (windowOr W) toResult fun y h =>
      ∃ g, Going (windowOr W) y g ∧ y.Quiet ∧ total y g = h where
  pos := windowOr_pos W
  start := ⟨{}, going_start method W, quiet_start method W, rfl⟩
  exists_event := by
    rintro y h e ⟨g, hg, hq, -⟩ he
    obtain ⟨g₀, hg₀, -⟩ := hg.begin hq he
    obtain ⟨y', hreach, hq'⟩ := hg₀.exists_quiet
    exact ⟨y', hreach, hq'⟩
  event := by
    rintro y h e y' ⟨g, hg, hq, rfl⟩ he ⟨hreach, hq'⟩
    obtain ⟨g₀, hg₀, ht₀⟩ := hg.begin hq he
    obtain ⟨g', hg', ht'⟩ := hg₀.reach hreach
    exact ⟨g', hg', hq', ht'.trans ht₀⟩
  results := by
    rintro y h ⟨g, hg, hq, rfl⟩
    exact hg.results_total hq

end Go

/-! ## The TypeScript helpers -/

namespace Ts

/-- What a call rejects with: the error of a `recv`, that of `fromBinary`, or an `Error`
of its own. -/
inductive CallError where
  | status (e : WsStatusError)
  | fromBinary
  | error (message : Text)
  deriving DecidableEq

def withoutResponse (label : Text) : CallError :=
  .error (label ++ ": server closed stream without a response".toUTF8)

def moreThanOne (label : Text) : CallError :=
  .error (label ++ ": server sent more than one response message".toUTF8)

/-- The receiving part of `unaryTerminal`; the state is `message`, once it has been
read. -/
def unaryTerminal (label : Text) :
    Drain (Option M) (PullResult Payload) (Except CallError M) where
  start := none
  step
    | _, .rejected e => .inr (.error (.status e))
    | none, .done => .inr (.error (withoutResponse label))
    | none, .value bytes => (decode bytes).elim (.inr (.error .fromBinary)) fun m => .inl (some m)
    | some m, .done => .inr (.ok m)
    | some _, .value _ => .inr (.error (moreThanOne label))

/-- `firstResponse` over the iterator of `streamTerminal`; the state is `out`. -/
def firstResponse (label : Text) :
    Drain (Option M) (PullResult Payload) (Except CallError M) where
  start := none
  step
    | _, .rejected e => .inr (.error (.status e))
    | _, .value bytes => (decode bytes).elim (.inr (.error .fromBinary)) fun m => .inl (some m)
    | none, .done => .inr (.error (withoutResponse label))
    | some m, .done => .inr (.ok m)

/-- A stream of a TypeScript client, for which `encodeFrame` is taken to return: its calls
settle with what they pull. -/
def runtime (size : Frame → ℕ) (method : Text) (headers : Headers) (W maxSendBuffer : ℤ) :
    Runtime Mux (PullResult Payload) where
  start := Mux.startOne size method headers W maxSendBuffer
  event m e m' := m' = m.onEvent size e
  results m := (m.objs[0]?.map fun s => s.inbound.settled.take s.resumed).getD []

theorem refines (size : Frame → ℕ) (method : Text) (headers : Headers) (W maxSendBuffer : ℤ) :
    Refines (runtime size method headers W maxSendBuffer) (positiveOr W defaultInitialWindow)
      (toPull causeError) (Rests (positiveOr W defaultInitialWindow)) where
  pos := by
    rw [positiveOr]
    split
    · assumption
    · decide
  start := rests_start size method headers W maxSendBuffer
  exists_event := fun _ _ => ⟨_, rfl⟩
  event := by
    rintro m h e m' hm he rfl
    exact (hm.onEvent size e he).1
  results := by
    intro m h hm
    obtain ⟨s, hs, hh⟩ := hm.stream
    show (m.objs[0]?.map _).getD [] = _
    rw [hs, Option.map_some, Option.getD_some, hh.resumed, ← hh.length_settled, List.take_length,
      hh.inbound]
    rfl

end Ts

/-! ## A single response -/

namespace Agree

/-- END with status OK. -/
def cleanEnd (t : Frame) : Bool :=
  t.kind = .kindEnd ∧ (t.status.map ProtoStatus.code).getD 0 = 0

/-- The response of a sequence of frames: its one message, if the stream then ends with
OK. -/
def single (fs : List Frame) : Option M :=
  match messages fs, terminal fs with
  | [p], some t => if cleanEnd t then decode p else none
  | _, _ => none

/-- What a call returns is the response, or an error if there is none. -/
def Answers {ε : Type} (fs : List Frame) (r : Except ε M) : Prop := r.toOption = single decode fs

/-- **All four helpers answer** a sequence of frames. -/
structure Respond (size : Frame → ℕ) (method : Text) (headers : Headers) (W maxSendBuffer : ℤ)
    (label : Text) (fs : List Frame) : Prop where
  invokeUnary : Returns (Go.runtime method W) (Go.invokeUnary decode) fs (Answers decode fs)
  closeAndRecv : Returns (Go.runtime method W) (Go.closeAndRecv decode) fs (Answers decode fs)
  unaryTerminal : Returns (Ts.runtime size method headers W maxSendBuffer)
    (Ts.unaryTerminal decode label) fs (Answers decode fs)
  firstResponse : Returns (Ts.runtime size method headers W maxSendBuffer)
    (Ts.firstResponse decode label) fs (Answers decode fs)

/-- The server keeps to the protocol of a single response, or fails before its first
message. -/
inductive Conforms (fs : List Frame) : Prop
  /-- It ends the stream without a message. -/
  | refused {t : Frame} : messages fs = [] → terminal fs = some t → Conforms fs
  /-- Its first message does not decode. -/
  | garbled {p : Payload} {ps : List Payload} : messages fs = p :: ps → decode p = none →
      Conforms fs
  /-- One message and an END with OK. -/
  | answered {p : Payload} {t : Frame} : messages fs = [p] → terminal fs = some t →
      cleanEnd t = true → Conforms fs

variable {decode} {fs : List Frame}

theorem single_of_first {p : Payload} {ps : List Payload} (hm : messages fs = p :: ps)
    (hd : decode p = none) : single decode fs = none := by
  rw [single, hm]
  split
  · rename_i hp _
    cases hp
    rw [hd, ite_self]
  · rfl

/-! ### The errors of a stream -/

theorem go_eof_of_cleanEnd {t : Frame} (ht : cleanEnd t = true) :
    Go.causeError (.frame t) = .eof := by
  obtain ⟨hk, hc⟩ := of_decide_eq_true ht
  have hrst : ¬ t.kind = .kindRst := by rw [hk]; simp
  simp only [Go.causeError, Go.Inbound.endError, if_neg hrst]
  cases hs : t.status with
  | none => rfl
  | some st =>
      rw [hs] at hc
      have hcode : (Go.statusFromProto (some st)).code = Go.Code.ok := by
        show st.code.toUInt32 = _
        rw [show st.code = 0 from hc]
        rfl
      simp only [hcode, ne_eq, not_true_eq_false, if_false]

theorem ts_done_of_cleanEnd {t : Frame} (ht : cleanEnd t = true) :
    Ts.causeError (.frame t) = none := by
  obtain ⟨hk, hc⟩ := of_decide_eq_true ht
  simp only [Ts.causeError, if_pos hk]
  cases hs : t.status with
  | none => rfl
  | some st =>
      rw [hs] at hc
      exact if_pos hc

/-! ### The steps of the helpers -/

theorem invokeUnary_stops (q : Option M) (c : Cause) :
    ((Go.invokeUnary decode).step q (Go.toResult (.error c))).isRight := by
  cases q <;> rfl

theorem invokeUnary_garbled {p : Payload} (hd : decode p = none) :
    (Go.invokeUnary decode).step none (.ok p) = .inr (.error .unmarshal) := by
  simp only [Go.invokeUnary, Go.recvMsg, hd, Option.elim_none]

theorem invokeUnary_first {p : Payload} {m : M} (hd : decode p = some m) :
    (Go.invokeUnary decode).step none (.ok p) = .inl (some m) := by
  simp only [Go.invokeUnary, Go.recvMsg, hd, Option.elim_some]

section Ts

variable (label : Text)

theorem unaryTerminal_stops (q : Option M) (c : Cause) :
    ((Ts.unaryTerminal decode label).step q (Ts.toPull Ts.causeError (.error c))).isRight := by
  rw [Ts.toPull]
  cases Ts.causeError c <;> cases q <;> rfl

theorem firstResponse_stops (q : Option M) (c : Cause) :
    ((Ts.firstResponse decode label).step q (Ts.toPull Ts.causeError (.error c))).isRight := by
  rw [Ts.toPull]
  cases Ts.causeError c <;> cases q <;> rfl

variable (decode) in
/-- Without a message the end is an error, whatever it is. -/
theorem unaryTerminal_refused (c : Cause) : ∃ e,
    (Ts.unaryTerminal decode label).step none (Ts.toPull Ts.causeError (.error c)) =
      .inr (.error e) := by
  rw [Ts.toPull]
  cases Ts.causeError c <;> exact ⟨_, rfl⟩

variable (decode) in
theorem firstResponse_refused (c : Cause) : ∃ e,
    (Ts.firstResponse decode label).step none (Ts.toPull Ts.causeError (.error c)) =
      .inr (.error e) := by
  rw [Ts.toPull]
  cases Ts.causeError c <;> exact ⟨_, rfl⟩

/-- Both decode the first message. -/
theorem unaryTerminal_first (p : Payload) :
    (Ts.unaryTerminal decode label).step none (.value p) =
      (decode p).elim (.inr (.error .fromBinary)) fun m => .inl (some m) := rfl

theorem firstResponse_first (p : Payload) :
    (Ts.firstResponse decode label).step none (.value p) =
      (decode p).elim (.inr (.error .fromBinary)) fun m => .inl (some m) := rfl

end Ts

/-! ### The theorem -/

section Theorem

variable {size : Frame → ℕ} {method : Text} {headers : Headers} {W maxSendBuffer : ℤ}
  {label : Text} (hfs : ∀ f ∈ fs, Addressed f)

include hfs

/-- A stream that ends without a message is an error to all four. -/
theorem respond_refused {t : Frame} (hm : messages fs = []) (ht : terminal fs = some t) :
    Respond decode size method headers W maxSendBuffer label fs := by
  have hnone : ∀ {ε : Type} (e : ε), Answers decode fs (.error e) := by
    intro ε e
    rw [Answers, single, hm]
    rfl
  have hgo := Go.refines method W
  have hts := Ts.refines size method headers W maxSendBuffer
  obtain ⟨e₁, he₁⟩ := unaryTerminal_refused decode label (.frame t)
  obtain ⟨e₂, he₂⟩ := firstResponse_refused decode label (.frame t)
  constructor
  · exact (returns_terminal hgo invokeUnary_stops hfs hm ht rfl).2 (hnone _)
  · exact (returns_terminal hgo (fun _ _ => rfl) hfs hm ht rfl).2 (hnone _)
  · exact (returns_terminal hts (unaryTerminal_stops label) hfs hm ht he₁).2 (hnone e₁)
  · exact (returns_terminal hts (firstResponse_stops label) hfs hm ht he₂).2 (hnone e₂)

/-- A first message that does not decode is an error to all four. -/
theorem respond_garbled {p : Payload} {ps : List Payload} (hm : messages fs = p :: ps)
    (hd : decode p = none) : Respond decode size method headers W maxSendBuffer label fs := by
  have hnone : ∀ {ε : Type} (e : ε), Answers decode fs (.error e) := by
    intro ε e
    rw [Answers, single_of_first hm hd]
    rfl
  have hgo := Go.refines method W
  have hts := Ts.refines size method headers W maxSendBuffer
  constructor
  · exact (returns_first hgo invokeUnary_stops hfs hm (invokeUnary_garbled hd)).2 (hnone _)
  · refine (returns_first hgo (fun _ _ => rfl) hfs hm rfl).2 ?_
    show Answers decode fs ((decode p).elim (.error Go.CallError.unmarshal) .ok)
    rw [hd]
    exact hnone _
  · refine (returns_first hts (unaryTerminal_stops label) hfs hm ?_).2 (hnone .fromBinary)
    exact (unaryTerminal_first label p).trans (by rw [hd]; rfl)
  · refine (returns_first hts (firstResponse_stops label) hfs hm ?_).2 (hnone .fromBinary)
    exact (firstResponse_first label p).trans (by rw [hd]; rfl)

/-- All four return the one message of a stream that ends with OK. -/
theorem respond_answered {p : Payload} {t : Frame} {m : M} (hm : messages fs = [p])
    (ht : terminal fs = some t) (hclean : cleanEnd t = true) (hd : decode p = some m) :
    Respond decode size method headers W maxSendBuffer label fs := by
  have hsome : ∀ {ε : Type}, Answers decode fs (.ok m : Except ε M) := by
    intro ε
    rw [Answers, single, hm, ht]
    show some m = if cleanEnd t then decode p else none
    rw [if_pos hclean, hd]
  have hgo := Go.refines method W
  have hts := Ts.refines size method headers W maxSendBuffer
  have heof := go_eof_of_cleanEnd hclean
  have hdone : Ts.toPull Ts.causeError (.error (.frame t)) = (.done : Ts.PullResult Payload) := by
    rw [Ts.toPull, ts_done_of_cleanEnd hclean]
    rfl
  constructor
  · refine (returns_pair hgo invokeUnary_stops hfs hm ht (invokeUnary_first hd) ?_).2 hsome
    show Sum.inr (Go.drainEnd m (.error (.recv (Go.causeError (.frame t))))) = _
    rw [heof]
    rfl
  · refine (returns_first hgo (fun _ _ => rfl) hfs hm rfl).2 ?_
    show Answers decode fs ((decode p).elim (.error Go.CallError.unmarshal) .ok)
    rw [hd]
    exact hsome
  · refine (returns_pair hts (unaryTerminal_stops label) hfs hm ht (q := some m) ?_ ?_).2 hsome
    · exact (unaryTerminal_first label p).trans (by rw [hd]; rfl)
    · rw [hdone]
      rfl
  · refine (returns_pair hts (firstResponse_stops label) hfs hm ht (q := some m) ?_ ?_).2 hsome
    · exact (firstResponse_first label p).trans (by rw [hd]; rfl)
    · rw [hdone]
      rfl

end Theorem

/-- **When the four helpers agree.**  For every decoder, window and sequence of frames:
each helper returns exactly the single response, or an error where there is none, in every
interleaving, if and only if the server conforms.  Against it stand the sequences in which
`CloseAndRecv` returns a message that is followed by another, by an error status or by
nothing. -/
theorem respond_iff (decode : Payload → Option M) (size : Frame → ℕ) (method : Text)
    (headers : Headers) (W maxSendBuffer : ℤ) (label : Text) (fs : List Frame)
    (hfs : ∀ f ∈ fs, Addressed f) :
    Respond decode size method headers W maxSendBuffer label fs ↔ Conforms decode fs := by
  constructor
  · intro hresp
    have hgo := Go.refines method W
    cases hm : messages fs with
    | nil =>
        cases ht : terminal fs with
        | some t => exact .refused hm ht
        | none => exact absurd hresp.closeAndRecv (waits_silent hgo hfs hm ht).not_returns
    | cons p ps =>
        cases hd : decode p with
        | none => exact .garbled hm hd
        | some m =>
            have hans : Answers decode fs ((decode p).elim (.error Go.CallError.unmarshal) .ok) :=
              (returns_first hgo (fun _ _ => rfl) hfs hm rfl).1 hresp.closeAndRecv
            rw [Answers, hd, single, hm] at hans
            split at hans
            · rename_i t hp ht
              cases hp
              split_ifs at hans with hclean
              · exact .answered hm ht hclean
              · cases hans
            · cases hans
  · rintro (⟨hm, ht⟩ | ⟨hm, hd⟩ | ⟨hm, ht, hclean⟩)
    · exact respond_refused hfs hm ht
    · exact respond_garbled hfs hm hd
    · rename_i p t
      cases hd : decode p with
      | none => exact respond_garbled hfs hm hd
      | some m => exact respond_answered hfs hm ht hclean hd

/-- The frames of a stream of ours, the message being one byte. -/
def message (b : UInt8) : Frame := { streamId := 1, kind := .kindMsg, payload := [b] }

def ending (code : Int32) : Frame := { streamId := 1, kind := .kindEnd, status := some { code } }

theorem respond_iff_cases :
    (∀ f ∈ [message 1, ending 0], Addressed f) ∧
      Respond some (fun _ => 0) .empty ∅ 0 0 .empty [message 1, ending 0] := by
  have hfs : ∀ f ∈ [message 1, ending 0], Addressed f := by
    simp [Addressed, message, ending, inbound]
  exact ⟨hfs, (respond_iff some (fun _ => 0) .empty ∅ 0 0 .empty _ hfs).2
    (.answered rfl rfl rfl)⟩

/-- Two messages and an END, of which `InvokeUnary` returns the first and `firstResponse`
the last; a message and an END with an error, which `CloseAndRecv` accepts.  None of them
is a single response. -/
theorem extra_response_accepted :
    single some [message 1, message 2, ending 0] = none ∧
      single some [message 1, ending 5] = none ∧
      (∃ y, Draining (Go.runtime .empty 0) (Go.invokeUnary some)
          [message 1, message 2, ending 0] 2 y ∧
        (Go.invokeUnary some).after y.x.results = .inr (.ok [1])) ∧
      (∃ y, Draining (Go.runtime .empty 0) (Go.closeAndRecv some) [message 1, ending 5] 1 y ∧
        (Go.closeAndRecv some).after y.x.results = .inr (.ok [1])) ∧
      ∃ m, Draining (Ts.runtime (fun _ => 0) .empty ∅ 0 0) (Ts.firstResponse some .empty)
          [message 1, message 2, ending 0] 3 m ∧
        (Ts.firstResponse some .empty).after
          ((Ts.runtime (fun _ => 0) .empty ∅ 0 0).results m) = .inr (.ok [2]) := by
  have hmsg : ∀ b, Addressed (message b) := fun b => ⟨rfl, rfl⟩
  have hend : ∀ c, Addressed (ending c) := fun c => ⟨rfl, rfl⟩
  have hgo := Go.refines .empty 0
  have hts := Ts.refines (fun _ => 0) .empty ∅ 0 0
  refine ⟨rfl, rfl, ?_, ?_, ?_⟩
  · obtain ⟨y₁, hy₁, hr₁⟩ := Draining.exists_frame (d := Go.invokeUnary some) hgo .start hgo.start
      (hmsg 1)
    obtain ⟨y₂, hy₂, hr₂⟩ := hy₁.exists_frame hgo hr₁ (hmsg 2)
    obtain ⟨y₃, hy₃, hr₃⟩ := hy₂.exists_frame hgo hr₂ (hend 0)
    obtain ⟨y₄, hy₄, hr₄⟩ := hy₃.exists_call hgo hr₃ ⟨rfl, rfl⟩
    obtain ⟨y₅, hy₅, hr₅⟩ := hy₄.exists_call hgo hr₄ ⟨rfl, rfl⟩
    refine ⟨y₅, hy₅, ?_⟩
    rw [show y₅.x.results = _ from hgo.results hr₅]
    rfl
  · obtain ⟨y₁, hy₁, hr₁⟩ := Draining.exists_frame (d := Go.closeAndRecv some) hgo .start hgo.start
      (hmsg 1)
    obtain ⟨y₂, hy₂, hr₂⟩ := hy₁.exists_frame hgo hr₁ (hend 5)
    obtain ⟨y₃, hy₃, hr₃⟩ := hy₂.exists_call hgo hr₂ ⟨rfl, rfl⟩
    refine ⟨y₃, hy₃, ?_⟩
    rw [show y₃.x.results = _ from hgo.results hr₃]
    rfl
  · obtain ⟨m₁, hm₁, hr₁⟩ := Draining.exists_frame (d := Ts.firstResponse some .empty) hts .start
      hts.start (hmsg 1)
    obtain ⟨m₂, hm₂, hr₂⟩ := hm₁.exists_frame hts hr₁ (hmsg 2)
    obtain ⟨m₃, hm₃, hr₃⟩ := hm₂.exists_frame hts hr₂ (hend 0)
    obtain ⟨m₄, hm₄, hr₄⟩ := hm₃.exists_call hts hr₃ ⟨rfl, rfl⟩
    obtain ⟨m₅, hm₅, hr₅⟩ := hm₄.exists_call hts hr₄ ⟨rfl, rfl⟩
    obtain ⟨m₆, hm₆, hr₆⟩ := hm₅.exists_call hts hr₅ ⟨rfl, rfl⟩
    refine ⟨m₆, hm₆, ?_⟩
    rw [hts.results hr₆]
    rfl

end Agree

end WsProto
