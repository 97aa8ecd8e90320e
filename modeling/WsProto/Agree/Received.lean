import WsProto.Go.Receive
import WsProto.Ts.Receive

/-!
# What the two clients receive

A stream of a Go client and a stream of a TypeScript client, given the same frames and
the same receive calls.  Both are the mailbox of `WsProto.Inbox` (`Go.reads_runs`,
`Ts.reads_run`), so what is left is that they say the same of its outcome.

* `outcome_agrees` — an END, an RST and an overflow are the same outcome to both;
* `received_agrees_iff` — the same payloads, then the same outcome, then the same trailers,
  exactly if no credit that falls due on the TypeScript client is beyond 32 bits;
* `payload_lost` — where it is, `recv` rejects and the payload it had pulled is lost.
-/

namespace WsProto.Agree

open Inbox

/-- What a receive call fails with: a clean end, a status code, which is 32 bits on the
wire, or the error of `encodeFrame` for a WINDOW_UPDATE. -/
inductive Outcome where
  | ended
  | failed (code : UInt32)
  | unencodable
  deriving DecidableEq

/-- A result of `RecvRaw`; the code of an error is that of `FromError`. -/
def ofGo : Except Go.GoError Payload → Except Outcome Payload
  | .ok p => .ok p
  | .error .eof => .error .ended
  | .error e => .error (.failed (((Go.fromError (some e)).map Go.Status.code).getD Go.Code.ok))

/-- What a pull of the queue settles with. -/
def ofTs : Ts.PullResult Payload → Except Outcome Payload
  | .value p => .ok p
  | .done => .error .ended
  | .rejected e => .error (.failed e.code.toUInt32)

/-- A result of `recv`: it rejects if the credit it returns is too large for `encodeFrame`. -/
def ofRecv (v : Ts.PullResult Payload × Option ℤ) : Except Outcome Payload :=
  if v.2.any (2 ^ 32 ≤ ·) then .error .unencodable else ofTs v.1

/-- No `recv` rejects for the credit it returns, exactly if every delta fits. -/
theorem map_ofRecv_iff (l : List (Ts.PullResult Payload × Option ℤ)) :
    (l.map Prod.fst).map ofTs = l.map ofRecv ↔ ∀ d ∈ l.filterMap Prod.snd, d < 2 ^ 32 := by
  have hne : ∀ v : Ts.PullResult Payload, ofTs v ≠ .error .unencodable := by
    intro v
    cases v <;> simp [ofTs]
  rw [List.map_map, List.map_inj_left]
  constructor
  · intro h d hd
    obtain ⟨v, hv, hsnd⟩ := List.mem_filterMap.1 hd
    by_contra hle
    have heq : ofTs v.1 = ofRecv v := h v hv
    rw [ofRecv, if_pos (by simpa [hsnd] using hle)] at heq
    exact hne v.1 heq
  · intro h v hv
    show ofTs v.1 = ofRecv v
    rw [ofRecv, if_neg]
    cases hsnd : v.2 with
    | none => simp
    | some d => simpa using h d (List.mem_filterMap.2 ⟨v, hv, hsnd⟩)

/-! ## Outcomes -/

theorem toUInt32_eq_zero_iff (c : Int32) : c.toUInt32 = Go.Code.ok ↔ c = Ts.codeOk := by
  constructor
  · obtain ⟨c⟩ := c
    rintro ⟨⟩
    rfl
  · rintro rfl
    rfl

/-- The status of an END. -/
theorem end_agrees {f : Frame} (hk : f.kind = .kindEnd) :
    ofGo (.error (Go.causeError (.frame f))) =
      ofTs ((Ts.causeError (.frame f)).elim .done .rejected) := by
  have hrst : ¬ f.kind = .kindRst := by rw [hk]; decide
  simp only [Go.causeError, Go.Inbound.endError, if_neg hrst, Ts.causeError, if_pos hk]
  cases f.status with
  | none => rfl
  | some st =>
      by_cases hc : st.code = Ts.codeOk
      · have hgo := (toUInt32_eq_zero_iff st.code).2 hc
        simp only [Go.statusFromProto, Ts.statusErrorFromProto, hgo, if_pos hc, ne_eq,
          not_true_eq_false, if_false, Option.elim_none, ofGo, ofTs]
      · have hgo := mt (toUInt32_eq_zero_iff st.code).1 hc
        simp only [Go.statusFromProto, Ts.statusErrorFromProto, hgo, if_neg hc, ne_eq,
          not_false_eq_true, if_true, Option.elim_some, ofGo, ofTs, Go.fromError, Option.map_some,
          Option.getD_some]

/-- The status of an RST: one without an error is a cancellation. -/
theorem reset_agrees {f : Frame} (hk : f.kind = .kindRst) :
    ofGo (.error (Go.causeError (.frame f))) =
      ofTs ((Ts.causeError (.frame f)).elim .done .rejected) := by
  have hend : ¬ f.kind = .kindEnd := by rw [hk]; decide
  simp only [Go.causeError, Go.Inbound.endError, if_pos hk, Ts.causeError, if_neg hend,
    Option.elim_some, Ts.resetError, ofGo, ofTs, Go.fromError, Option.map_some, Option.getD_some]
  cases f.status with
  | none => rfl
  | some st =>
      by_cases hc : st.code = Ts.codeOk
      · have hgo := (toUInt32_eq_zero_iff st.code).2 hc
        simp only [Go.statusFromProto, Ts.statusErrorFromProto, hgo, if_pos hc, if_true,
          Option.getD_none]
        rfl
      · have hgo := mt (toUInt32_eq_zero_iff st.code).1 hc
        simp only [Go.statusFromProto, Ts.statusErrorFromProto, hgo, if_neg hc, if_false,
          Option.getD_some]

/-- **Both clients report the same outcome** of a terminal frame or an overflow. -/
theorem outcome_agrees {c : Cause}
    (hc : ∀ f, c = .frame f → f.kind = .kindEnd ∨ f.kind = .kindRst) :
    ofGo (.error (Go.causeError c)) = ofTs ((Ts.causeError c).elim .done .rejected) := by
  cases c with
  | overflow => rfl
  | frame f =>
      rcases hc f rfl with hk | hk
      · exact end_agrees hk
      · exact reset_agrees hk

theorem result_agrees {h : Mailbox Payload Cause} (hh : Terminated h) {r : Except Cause Payload}
    (hr : r ∈ h.results) : ofGo (Go.toResult r) = ofTs (Ts.toPull Ts.causeError r) := by
  cases r with
  | ok p => rfl
  | error c =>
      refine outcome_agrees fun f hf => hh f ?_
      rw [← hf]
      exact Mailbox.outcome_of_mem_results hr

theorem exists_outcome (e : Go.GoError) : ∃ o, ofGo (.error e) = .error o := by
  cases e <;> exact ⟨_, rfl⟩

/-- Payloads, then one outcome. -/
theorem results_shape (h : Mailbox Payload Cause) :
    ∃ (payloads : List Payload) (n : ℕ) (o : Outcome),
      (h.results.map Go.toResult).map ofGo = payloads.map .ok ++ List.replicate n (.error o) := by
  have hok : ∀ l : List Payload,
      ((l.map Except.ok).map Go.toResult).map ofGo = l.map Except.ok := by
    intro l
    rw [List.map_map, List.map_map]
    rfl
  rw [Mailbox.results, List.map_append, List.map_append, hok]
  cases h.outcome with
  | none => exact ⟨_, 0, .ended, rfl⟩
  | some c =>
      obtain ⟨o, ho⟩ := exists_outcome (Go.causeError c)
      refine ⟨h.accepted.take h.pulls, h.beyond, o, ?_⟩
      rw [Option.map_some, Option.getD_some, List.map_replicate, List.map_replicate, ← ho]
      rfl

/-- The windows in force are the same. -/
theorem windowOr_eq_positiveOr (W : ℤ) :
    Go.windowOr W = Ts.positiveOr W Ts.defaultInitialWindow := by
  by_cases h : W ≤ 0
  · rw [Go.windowOr, if_pos h, Ts.positiveOr, if_neg (not_lt.2 h)]
    rfl
  · rw [Go.windowOr, if_neg h, Ts.positiveOr, if_pos (not_le.1 h)]

/-! ## Runs -/

section Runs

variable (size : Frame → ℕ) (method : Text) (headers : Headers) (W maxSendBuffer : ℤ)
  {evs : List Event}

/-- What the receive calls of a TypeScript stream resume with. -/
def tsReceived (evs : List Event) : List (Ts.PullResult Payload × Option ℤ) :=
  (Ts.Mux.startOne size method headers W maxSendBuffer).received size evs

/-- The Go receivers return what the queue of the TypeScript stream gives out. -/
theorem pulled_agrees (hevs : ∀ f, .frame f ∈ evs → Addressed f) {y : Go.Receivers}
    (hrun : (Go.Receivers.start method W).RunsAll evs y) :
    y.x.results.map ofGo =
      ((tsReceived size method headers W maxSendBuffer evs).map Prod.fst).map ofTs := by
  obtain ⟨hres, -⟩ := Go.reads_runs method W hevs hrun
  obtain ⟨-, hread⟩ := (Ts.rests_start size method headers W maxSendBuffer).run size evs hevs
  rw [← windowOr_eq_positiveOr] at hread
  have hterm : Terminated (evs.foldl (Inbox.step (Go.windowOr W)) {}) :=
    terminated_foldl evs fun f hf => by cases hf
  have hfst : (tsReceived size method headers W maxSendBuffer evs).map Prod.fst =
      (evs.foldl (Inbox.step (Go.windowOr W)) {}).results.map (Ts.toPull Ts.causeError) := hread
  rw [hres, hfst, List.map_map, List.map_map]
  exact List.map_congr_left fun r hr => result_agrees hterm hr

/-- **The two clients agree on what was received, as long as no credit that falls due is
beyond 32 bits.**  For any window, any frames a server sends to a stream and any receive
calls between them: the Go receivers come to rest after each event, and however they ran,
what they returned is what the calls of `recv` on the TypeScript stream settle with, exactly
if every delta given to `hooks.windowUpdate` is below `2 ^ 32`.  It is payloads and then one
outcome; once that has been returned, the trailers are the same as well. -/
theorem received_agrees_iff (evs : List Event) (hevs : ∀ f, .frame f ∈ evs → Addressed f) :
    (∃ y, (Go.Receivers.start method W).RunsAll evs y) ∧
      ∀ y, (Go.Receivers.start method W).RunsAll evs y →
        (y.x.results.map ofGo = (tsReceived size method headers W maxSendBuffer evs).map ofRecv ↔
          ∀ d ∈ (tsReceived size method headers W maxSendBuffer evs).filterMap Prod.snd,
            d < 2 ^ 32) ∧
        (∃ (payloads : List Payload) (n : ℕ) (o : Outcome), y.x.results.map ofGo =
          payloads.map .ok ++ List.replicate n (.error o)) ∧
        ∃ s, (evs.foldl (Ts.Mux.onEvent size)
            (Ts.Mux.startOne size method headers W maxSendBuffer)).objs[0]? = some s ∧
          s.resumed = s.inbound.settled.length ∧
          ((∃ e, .error e ∈ y.x.results) → y.x.stream.trailer.getD ∅ = s.headers) := by
  refine ⟨Go.exists_runs method W hevs, fun y hrun => ?_⟩
  obtain ⟨hres, htrailers⟩ := Go.reads_runs method W hevs hrun
  obtain ⟨hrests, -⟩ := (Ts.rests_start size method headers W maxSendBuffer).run size evs hevs
  rw [← windowOr_eq_positiveOr] at hrests
  obtain ⟨s, hs, hholds⟩ := hrests.stream
  refine ⟨?_, ?_, s, hs, hholds.resumed.trans hholds.length_settled.symm, ?_⟩
  · rw [pulled_agrees size method headers W maxSendBuffer hevs hrun]
    exact map_ofRecv_iff _
  · rw [hres]
    exact results_shape _
  · rintro ⟨e, he⟩
    rw [hres] at he
    obtain ⟨r, hr, hre⟩ := List.mem_map.1 he
    cases r with
    | ok p => cases hre
    | error c =>
        have hout := Mailbox.outcome_of_mem_results hr
        rw [htrailers c hout (Mailbox.beyond_of_mem_results hr), hholds.headers, hout]
        rfl

end Runs

/-- A receive that parks, a message for it, an END with trailers, and two more receives. -/
def oneMessage : List Event :=
  [.recv, .frame { streamId := 1, kind := .kindMsg, payload := [7] },
    .frame { streamId := 1, kind := .kindEnd, headers := some ∅, status := some { code := 5 } },
    .recv, .recv]

theorem received_agrees_iff_oneMessage : ∃ y, (Go.Receivers.start .empty 0).RunsAll oneMessage y ∧
    y.x.results.map ofGo = [.ok [7], .error (.failed 5), .error (.failed 5)] := by
  obtain ⟨⟨y, hy⟩, hall⟩ := received_agrees_iff (fun _ => 0) .empty ∅ 0 0 oneMessage (by
    intro f hf
    simp only [oneMessage, List.mem_cons, Event.frame.injEq, List.not_mem_nil, or_false,
      reduceCtorEq, false_or] at hf
    rcases hf with rfl | rfl
    · exact ⟨rfl, rfl⟩
    · exact ⟨rfl, rfl⟩)
  have hsettled : (tsReceived (fun _ => 0) .empty ∅ 0 0 oneMessage).map ofRecv =
      [.ok [7], .error (.failed 5), .error (.failed 5)] ∧
      ∀ d ∈ (tsReceived (fun _ => 0) .empty ∅ 0 0 oneMessage).filterMap Prod.snd, d < 2 ^ 32 := by
    decide
  exact ⟨y, hy, ((hall y hy).1.2 hsettled.2).trans hsettled.1⟩

/-- A message for a receive that has parked, four times. -/
def fourMessages (p : Payload) : List Event :=
  (List.replicate 4 [.recv, .frame { streamId := 1, kind := .kindMsg, payload := p }]).flatten

/-- With 1 GiB each and a window of 8 GiB, the fourth makes 4 GiB of credit due. -/
theorem tsReceived_fourMessages {p : Payload} (hp : p.length = 2 ^ 30) :
    tsReceived (fun _ => 0) .empty ∅ (2 ^ 33) 0 (fourMessages p) =
      [(.value p, none), (.value p, none), (.value p, none), (.value p, some (2 ^ 32))] := by
  have hlen : (p.length : ℤ) = 2 ^ 30 := by rw [hp]; rfl
  have hne : p ≠ [] := by rintro rfl; simp at hp
  have hlook : (AList.singleton 1 0 : AList fun _ : UInt32 => Ts.Ref).lookup 1 = some 0 := rfl
  simp [tsReceived, fourMessages, List.replicate, Ts.Mux.startOne, Ts.Mux.new, Ts.positiveOr,
    Ts.Mux.openStream, Ts.newStreamImpl, Ts.Mux.defunct, Ts.Mux.writeFrame, Ts.Mux.received,
    Ts.Mux.onEvent, Ts.Mux.begin, Ts.Mux.recv, Ts.StreamImpl.recv, Ts.AsyncQueue.pull,
    Ts.Mux.route, Ts.Mux.find, Ts.Mux.setObj, Ts.StreamImpl.pushMsg, Ts.AsyncQueue.push,
    Ts.StreamImpl.resolveLeading, Ts.Mux.resumedBy, Ts.Mux.resumedWith, Ts.Mux.resumeAll,
    Ts.Mux.resumeTurns, Ts.StreamImpl.pulled, Ts.Mux.resume, Ts.StreamImpl.resume,
    Ts.StreamImpl.returnCredit, hlen, hne, hlook]

/-- **A payload the Go client receives and the TypeScript client loses.**  The window is
8 GiB and each of four messages has 1 GiB.  The fourth `recv` has pulled its payload when
`encodeFrame` throws for the 4 GiB of credit that are due. -/
theorem payload_lost :
    ∃ (p : Payload) (y : Go.Receivers), p.length = 2 ^ 30 ∧
      (∀ f, .frame f ∈ fourMessages p → Addressed f) ∧
      (Go.Receivers.start .empty (2 ^ 33)).RunsAll (fourMessages p) y ∧
      y.x.results.map ofGo = [.ok p, .ok p, .ok p, .ok p] ∧
      (tsReceived (fun _ => 0) .empty ∅ (2 ^ 33) 0 (fourMessages p)).map ofRecv =
        [.ok p, .ok p, .ok p, .error .unencodable] := by
  obtain ⟨p, hp⟩ : ∃ p : Payload, p.length = 2 ^ 30 :=
    ⟨List.replicate (2 ^ 30) 0, List.length_replicate⟩
  have hevs : ∀ f, .frame f ∈ fourMessages p → Addressed f := by
    intro f hf
    obtain rfl : f = { streamId := 1, kind := .kindMsg, payload := p } := by
      simpa [fourMessages, List.replicate] using hf
    exact ⟨rfl, rfl⟩
  obtain ⟨y, hy⟩ := Go.exists_runs .empty (2 ^ 33) hevs
  refine ⟨p, y, hp, hevs, hy, ?_, ?_⟩
  · rw [pulled_agrees (fun _ => 0) .empty ∅ (2 ^ 33) 0 hevs hy, tsReceived_fourMessages hp]
    rfl
  · rw [tsReceived_fourMessages hp]
    simp [ofRecv, ofTs]

end WsProto.Agree
