import WsProto.Ts.ReadSide

/-!
# A streaming call of a TypeScript client

`streamTerminal` of `src/transport.ts`: a stream of a mux, a detached pump that sends what
the caller's source yields, and `responseGen`, the generator the consumer iterates.  Each of
them runs between two of its `await`s; between those anything may happen to the mux, to this
stream or to others.

* the source is the environment: it may yield, end, fail with any value, or do nothing for
  ever.  A message that `toBinary` refuses is a failure of the source;
* `next()` of the stream's iterator resumes after its own `await` (`Move.resume`) before the
  loop of the generator does (`Move.loop`);
* a stream of a transport that has no mux is one that a mux closed with that error opens.

The ghost `box` is what the events so far amount to for the stream: the messages accepted
before the first terminal event, that event, and the pulls.

* `iteration_settles` — what the consumer sees, in every run in which the source does not fail
  with `undefined`, the messages can be decoded and no credit exceeds 32 bits;
* `undefined_completes` — a source that fails with `undefined` is taken for one that did not:
  the iteration completes.
-/

namespace WsProto.Ts.StreamTerminal

open Machine Ledger ReadSide
open Terminal (Event)

/-! ## The model -/

/-- What a JavaScript program may throw: a status of the transport, the refusal of
`encodeFrame` to write a number beyond 32 bits, anything else (`error`), or `undefined`. -/
inductive Value (ε : Type) where
  | undefined
  | status (e : WsStatusError)
  | range
  | error (e : ε)
  deriving DecidableEq

/-- `v === undefined`. -/
def Value.isUndefined {ε : Type} : Value ε → Bool
  | .undefined => true
  | _ => false

/-- `toBinary` and `fromBinary` for the two message types of a method. -/
structure Codec (ι ο ε : Type) where
  toBinary : ι → Except ε Payload
  fromBinary : Payload → Except ε ο

/-- Where `responseGen` is. -/
inductive Gen (ε : Type) where
  /-- Not started, or at its `yield`: the turn is the consumer's. -/
  | idle
  /-- Awaits `next()` of the stream's iterator. -/
  | pulling
  /-- `next()` has settled with a payload, with the end (`none`), or by throwing. -/
  | pulled (r : Except (Value ε) (Option Payload))
  /-- `fromBinary` has thrown; awaits `return()` of the stream's iterator. -/
  | closing (e : Value ε)
  /-- In `finally`, awaits `responseHeaders()`; with what was thrown if `readFailed`. -/
  | leaving (failed : Option (Value ε))
  /-- The iteration has completed (`none`) or thrown. -/
  | settled (thrown : Option (Value ε))
  deriving DecidableEq

/-- The variables of `streamTerminal`, and what the consumer has received. -/
structure StreamCall (ο ε : Type) where
  mux : Mux
  stream : Ref
  /-- The pump awaits the source. -/
  pumping : Bool := true
  pumpError : Value ε := .undefined
  gen : Gen ε := .idle
  /-- `source.return()` has been called. -/
  returned : Bool := false
  header : Headers := ∅
  trailer : Headers := ∅
  received : List ο := []
  /-- Ghost: what the stream has been told. -/
  box : Mailbox Payload Event
  /-- Ghost: what the source failed with, if that was the first terminal event. -/
  sourceFailed : Option (Value ε) := none

inductive Move (ι ε : Type) where
  /-- An event of the socket, a deadline or a signal that fires, a call on another stream. -/
  | event (a : Act)
  /-- The pump resumes: the source has yielded, ended, or failed. -/
  | yields (v : ι)
  | ends
  | fails (err : Value ε)
  /-- The consumer asks for the next message. -/
  | next
  /-- `next()` of the stream's iterator resumes. -/
  | resume
  /-- The `for await` resumes. -/
  | loop
  /-- It resumes after `return()`. -/
  | closed
  /-- `finally` resumes after `responseHeaders()`. -/
  | finish
  /-- The leading headers are there. -/
  | lead

/-- An event other than the calls that only `streamTerminal` makes on its stream. -/
def foreign (r : Ref) : Act → Bool
  | .send q _ | .closeSend q | .recv q | .resume q => q != r
  | .abort q err => q != r || err.isSome
  | _ => true

/-- What a settled pull is to `next()`. -/
def resultOf {ε : Type} : PullResult Payload → Except (Value ε) (Option Payload)
  | .value p => .ok (some p)
  | .done => .ok none
  | .rejected e => .error (.status e)

/-- The credit that is due cannot be encoded. -/
def creditBeyond (s : StreamImpl) : Bool := (s.resume.bind (·.2)).any (2 ^ 32 ≤ ·)

section System

variable {ι ο ε : Type} (size : Frame → ℕ) (codec : Codec ι ο ε)

namespace StreamCall

/-- An event of the mux, and what it throws. -/
def apply (x : StreamCall ο ε) (a : Act) : StreamCall ο ε × Option WsStatusError :=
  match x.mux.objs[x.stream]?, call size x.mux a with
  | some s, some y =>
      ({ x with mux := y.1, box := deliver x.box (callOn size x.mux x.stream s a) }, y.2)
  | _, _ => (x, none)

/-- `stream.cancel()`. -/
def cancel (x : StreamCall ο ε) : StreamCall ο ε := (x.apply size (.abort x.stream none)).1

/-- The `catch` of the pump. -/
def failPump (x : StreamCall ο ε) (err : Value ε) : StreamCall ο ε :=
  { x.cancel size with
    pumping := false
    pumpError := err
    sourceFailed := if x.box.outcome.isSome then x.sourceFailed else some err }

/-- The pump after a call of the stream: it goes on, or is done, unless the call threw. -/
def afterCall (y : StreamCall ο ε × Option WsStatusError) (pumping : Bool) : StreamCall ο ε :=
  match y.2 with
  | none => { y.1 with pumping }
  | some e => y.1.failPump size (.status e)

/-- The generator enters `finally`: it calls `source.return()` and does not await it. -/
def leave (x : StreamCall ο ε) (failed : Option (Value ε)) : StreamCall ο ε :=
  { x with gen := .leaving failed, returned := true }

/-- `next()` of the stream's iterator, after its `await`. -/
def resume (x : StreamCall ο ε) (s : StreamImpl) (r : PullResult Payload) : StreamCall ο ε :=
  let y := x.apply size (.resume x.stream)
  { y.1 with
    gen := .pulled (
      match y.2 with
      | some e => .error (.status e)
      | none => if creditBeyond s then .error .range else resultOf r) }

/-- The rest of `finally`: the error of the read side goes first. -/
def finish (x : StreamCall ο ε) (s : StreamImpl) (failed : Option (Value ε)) : StreamCall ο ε :=
  { x with
    trailer := s.headers
    gen := .settled (failed.or (if x.pumpError.isUndefined then none else some x.pumpError)) }

/-- The body of the `for await`. -/
def body (x : StreamCall ο ε) (p : Payload) : StreamCall ο ε :=
  match codec.fromBinary p with
  | .ok v => { x with gen := .idle, received := x.received ++ [v] }
  | .error e => { x.cancel size with gen := .closing (.error e) }

def step (x : StreamCall ο ε) : Move ι ε → Option (StreamCall ο ε)
  | .event a =>
      if foreign x.stream a && (call size x.mux a).isSome then some (x.apply size a).1 else none
  | .yields v =>
      if x.pumping then
        match codec.toBinary v with
        | .ok p => some (afterCall size (x.apply size (.send x.stream p)) true)
        | .error e => some (x.failPump size (.error e))
      else none
  | .ends =>
      if x.pumping then some (afterCall size (x.apply size (.closeSend x.stream)) false)
      else none
  | .fails err => if x.pumping then some (x.failPump size err) else none
  | .next =>
      match x.gen with
      | .idle => some { (x.apply size (.recv x.stream)).1 with gen := .pulling }
      | _ => none
  | .resume =>
      match x.gen with
      | .pulling =>
          (x.mux.objs[x.stream]?).bind fun s =>
            (s.inbound.settled[s.resumed]?).map fun r => x.resume size s r
      | _ => none
  | .loop =>
      match x.gen with
      | .pulled (.ok (some p)) => some (x.body size codec p)
      | .pulled (.ok none) => some (x.leave none)
      | .pulled (.error e) => some (x.leave (some e))
      | _ => none
  | .closed =>
      match x.gen with
      | .closing e => some (x.leave (some e))
      | _ => none
  | .finish =>
      match x.gen with
      | .leaving failed =>
          (x.mux.objs[x.stream]?).bind fun s =>
            if s.headersSettled then some (x.finish s failed) else none
      | _ => none
  | .lead =>
      (x.mux.objs[x.stream]?).bind fun s => s.leading.map fun h => { x with header := h }

/-- The same, as a relation: the conditions of each step and what it makes of the call. -/
inductive Steps (x : StreamCall ο ε) : Move ι ε → StreamCall ο ε → Prop
  | event {a : Act} (hforeign : foreign x.stream a = true) (hcall : (call size x.mux a).isSome) :
      Steps x (.event a) (x.apply size a).1
  | yields {v : ι} {p : Payload} (hpump : x.pumping = true) (hv : codec.toBinary v = .ok p) :
      Steps x (.yields v) (afterCall size (x.apply size (.send x.stream p)) true)
  | garbles {v : ι} {e : ε} (hpump : x.pumping = true) (hv : codec.toBinary v = .error e) :
      Steps x (.yields v) (x.failPump size (.error e))
  | ends (hpump : x.pumping = true) :
      Steps x .ends (afterCall size (x.apply size (.closeSend x.stream)) false)
  | fails {err : Value ε} (hpump : x.pumping = true) : Steps x (.fails err) (x.failPump size err)
  | next (hgen : x.gen = .idle) :
      Steps x .next { (x.apply size (.recv x.stream)).1 with gen := .pulling }
  | resume {s : StreamImpl} {r : PullResult Payload} (hgen : x.gen = .pulling)
      (hs : x.mux.objs[x.stream]? = some s) (hr : s.inbound.settled[s.resumed]? = some r) :
      Steps x .resume (x.resume size s r)
  | body {p : Payload} (hgen : x.gen = .pulled (.ok (some p))) :
      Steps x .loop (x.body size codec p)
  | done (hgen : x.gen = .pulled (.ok none)) : Steps x .loop (x.leave none)
  | thrown {e : Value ε} (hgen : x.gen = .pulled (.error e)) : Steps x .loop (x.leave (some e))
  | closed {e : Value ε} (hgen : x.gen = .closing e) : Steps x .closed (x.leave (some e))
  | finish {s : StreamImpl} {failed : Option (Value ε)} (hgen : x.gen = .leaving failed)
      (hs : x.mux.objs[x.stream]? = some s) : Steps x .finish (x.finish s failed)
  | lead (h : Headers) : Steps x .lead { x with header := h }

theorem steps_of_step {x x' : StreamCall ο ε} {a : Move ι ε} (h : x.step size codec a = some x') :
    Steps size codec x a x' := by
  cases a with
  | event a =>
      obtain ⟨hcond, ⟨⟩⟩ := Option.ite_none_right_eq_some.1 h
      rw [Bool.and_eq_true] at hcond
      exact .event hcond.1 hcond.2
  | yields v =>
      obtain ⟨hpump, h⟩ := Option.ite_none_right_eq_some.1 h
      cases hv : codec.toBinary v with
      | ok p =>
          simp only [hv, Option.some.injEq] at h
          exact h ▸ .yields hpump hv
      | error e =>
          simp only [hv, Option.some.injEq] at h
          exact h ▸ .garbles hpump hv
  | ends =>
      obtain ⟨hpump, ⟨⟩⟩ := Option.ite_none_right_eq_some.1 h
      exact .ends hpump
  | fails err =>
      obtain ⟨hpump, ⟨⟩⟩ := Option.ite_none_right_eq_some.1 h
      exact .fails hpump
  | lead =>
      obtain ⟨s, -, h⟩ := Option.bind_eq_some_iff.1 h
      obtain ⟨headers, -, rfl⟩ := Option.map_eq_some_iff.1 h
      exact .lead headers
  | next =>
      simp only [step] at h
      split at h
      · rename_i hgen
        cases h
        exact .next hgen
      · cases h
  | resume =>
      simp only [step] at h
      split at h
      · rename_i hgen
        obtain ⟨s, hs, h⟩ := Option.bind_eq_some_iff.1 h
        obtain ⟨r, hr, rfl⟩ := Option.map_eq_some_iff.1 h
        exact .resume hgen hs hr
      · cases h
  | loop =>
      simp only [step] at h
      split at h <;> cases h
      · exact .body ‹_›
      · exact .done ‹_›
      · exact .thrown ‹_›
  | closed =>
      simp only [step] at h
      split at h <;> cases h
      exact .closed ‹_›
  | finish =>
      simp only [step] at h
      split at h
      · rename_i failed hgen
        obtain ⟨s, hs, h⟩ := Option.bind_eq_some_iff.1 h
        obtain ⟨-, ⟨⟩⟩ := Option.ite_none_right_eq_some.1 h
        exact .finish hgen hs
      · cases h

/-- `streamTerminal` has opened its stream. -/
def start (m : Mux) (method : Text) (headers : Headers) (aborted : Option WsStatusError) :
    StreamCall ο ε :=
  { mux := (m.openWith size method headers aborted).1
    stream := m.objs.length
    box := opening size m method headers aborted }

end StreamCall

end System

/-! ## What is claimed of an iteration -/

section Spec

variable {ι ο ε : Type}

/-- The condition on a step: a message that is accepted can be decoded, the source does not
fail with `undefined` while the stream is open, and the credit due can be encoded. -/
def meets (size : Frame → ℕ) (codec : Codec ι ο ε) (x : StreamCall ο ε) : Move ι ε → Bool
  | .event a =>
      (x.mux.objs[x.stream]?).all fun s =>
        ((callOn size x.mux x.stream s a).bind Terminal.Call.payload).all fun p =>
          (codec.fromBinary p).isOk
  | .fails err => !err.isUndefined || x.box.outcome.isSome
  | .resume => (x.mux.objs[x.stream]?).all fun s => !creditBeyond s
  | _ => true

/-- How an iteration ends that has completed (`none`) or thrown. -/
structure Outcome (codec : Codec ι ο ε) (x : StreamCall ο ε) (thrown : Option (Value ε)) :
    Prop where
  /-- The messages accepted before the first terminal event. -/
  received : x.received.map .ok = x.box.accepted.map codec.fromBinary
  /-- The first terminal event. -/
  ended : ∃ t, x.box.outcome = some t ∧ x.trailer = t.headers ∧
    (∀ e, t.error = some e → thrown = some (.status e)) ∧
    (∀ err, x.sourceFailed = some err → thrown = some err) ∧
    (t.error = none → x.sourceFailed = none →
      thrown = none ∨ (thrown = some x.pumpError ∧ x.pumpError ≠ .undefined))
  returned : x.returned = true

def Gen.isSettled {ε : Type} : Gen ε → Bool
  | .settled _ => true
  | _ => false

/-- The steps of the generator and its consumer. -/
def Move.isOwn : Move ι ε → Bool
  | .next | .resume | .loop | .closed | .finish => true
  | _ => false

/-- The generator and its consumer alone bring the iteration to its end, in `n` steps at
most. -/
def SettlesIn (size : Frame → ℕ) (codec : Codec ι ο ε) : ℕ → StreamCall ο ε → Prop
  | 0, x => x.gen.isSettled = true
  | n + 1, x => x.gen.isSettled = true ∨ ∃ (a : Move ι ε) (x' : StreamCall ο ε),
      a.isOwn = true ∧ x.step size codec a = some x' ∧ SettlesIn size codec n x'

/-- The steps the generator has left, once nothing more is accepted, if `k` messages wait. -/
def Gen.left {ε : Type} (k : ℕ) : Gen ε → ℕ
  | .idle => 3 * k + 4
  | .pulling => 3 * k + 3
  | .pulled _ => 3 * k + 2
  | .closing _ => 2
  | .leaving _ => 1
  | .settled _ => 0

def left (x : StreamCall ο ε) : ℕ := x.gen.left (x.box.accepted.length - x.received.length)

end Spec

/-! ## The mailbox of the call -/

section Mailbox

variable {size : Frame → ℕ} {m : Mux} {r : Ref} {s : StreamImpl} {a : Act}
  {h h' : Mailbox Payload Event}

/-- `h'` is `h` after some events, none of which is a pull. -/
structure Grows (h h' : Mailbox Payload Event) : Prop where
  pulls : h'.pulls = h.pulls
  accepted : h.accepted <+: h'.accepted
  ended : h.outcome.isSome → h' = h

theorem Grows.refl (h : Mailbox Payload Event) : Grows h h :=
  ⟨rfl, List.prefix_rfl, fun _ => rfl⟩

theorem grows_push (h : Mailbox Payload Event) (p : Payload) : Grows h (h.push p) := by
  refine ⟨?_, ?_, fun ho => Mailbox.push_of_some p ho⟩
  · unfold Mailbox.push
    split_ifs <;> rfl
  · unfold Mailbox.push
    split_ifs
    · exact List.prefix_rfl
    · exact List.prefix_append _ _

theorem grows_finish (h : Mailbox Payload Event) (t : Event) : Grows h (h.finish t) :=
  ⟨rfl, List.prefix_rfl, fun ho => Mailbox.finish_of_some t ho⟩

/-- Every call but `recv`. -/
theorem grows_deliver {c : Option Terminal.Call} (hc : c ≠ some .recv) : Grows h (deliver h c) := by
  cases c with
  | none => exact Grows.refl h
  | some c =>
      cases c with
      | pushMsg p => exact grows_push h p
      | recv => exact absurd rfl hc
      | setLeadingHeaders hs => exact Grows.refl h
      | onClose => exact Grows.refl h
      | endOk hs => exact grows_finish h _
      | endError e hs => exact grows_finish h _
      | cancel => exact grows_finish h _
      | abort e => exact grows_finish h _

theorem frameCall_ne_recv (f : Frame) : frameCall m s f ≠ some .recv := by
  unfold frameCall
  cases f.kind with
  | kindMsg =>
      dsimp only
      split_ifs <;> simp
  | kindEnd => cases statusErrorFromProto f.status <;> simp
  | _ => simp

/-- A pull is never the meaning of another event. -/
theorem callOn_ne_recv (ha : a ≠ .recv r) : callOn size m r s a ≠ some .recv := by
  have hor : ∀ c : Option Terminal.Call, c ≠ some .recv →
      (c.or (if fails size m a then some (.endError (failure m a) ∅) else none)) ≠ some .recv := by
    intro c hc
    cases c with
    | some c => exact hc
    | none =>
        rw [Option.none_or]
        split_ifs <;> simp
  refine hor _ ?_
  cases a with
  | recv q =>
      have hq : q ≠ r := fun hq => ha (by rw [hq])
      rw [direct, if_neg hq]
      simp
  | send q payload => simp only [direct]; split_ifs <;> simp
  | abort q err =>
      simp only [direct]
      split_ifs
      · cases err <;> simp
      · simp
  | message len f =>
      cases f with
      | none => simp [direct]
      | some f =>
          simp only [direct]
          split_ifs
          · simp
          · exact frameCall_ne_recv f
          · simp
  | _ => simp [direct]

/-- The messages accepted so far, after an event. -/
theorem mem_deliver {c : Option Terminal.Call} {p : Payload} (hp : p ∈ (deliver h c).accepted) :
    p ∈ h.accepted ∨ c.bind Terminal.Call.payload = some p := by
  cases c with
  | none => exact .inl hp
  | some c =>
      cases c with
      | pushMsg p' =>
          replace hp : p ∈ (h.push p').accepted := hp
          unfold Mailbox.push at hp
          split_ifs at hp
          · exact .inl hp
          · rcases List.mem_append.1 hp with hp | hp
            · exact .inl hp
            · exact .inr (by rw [List.mem_singleton.1 hp]; rfl)
      | _ => exact .inl hp

/-- Only a frame brings a message. -/
theorem callOn_payload (ha : ∀ len f, a ≠ .message len f) :
    (callOn size m r s a).bind Terminal.Call.payload = none := by
  have hdirect : (direct m r s a).bind Terminal.Call.payload = none := by
    cases a with
    | message len f => exact absurd rfl (ha len f)
    | send q payload => simp only [direct]; split_ifs <;> rfl
    | abort q err =>
        simp only [direct]
        split_ifs
        · cases err <;> rfl
        · rfl
    | recv q => simp only [direct]; split_ifs <;> rfl
    | _ => rfl
  unfold callOn
  cases hd : direct m r s a with
  | some c =>
      rw [hd] at hdirect
      exact hdirect
  | none =>
      rw [Option.none_or]
      split_ifs <;> rfl

/-- The mux is sound, and the stream of the call, `n` of whose pulls have resumed, has
received what the mailbox says. -/
structure Base (size : Frame → ℕ) (m : Mux) (r : Ref) (h : Mailbox Payload Event) (n : ℕ) :
    Prop where
  sound : ∃ L, Sound size m L
  stream : ∃ s, m.objs[r]? = some s ∧ Shows s h ∧ s.resumed = n

variable {ο ε : Type} {x : StreamCall ο ε} {n : ℕ}

/-- An event of the mux other than the continuation of `next()`. -/
theorem Base.apply (hb : Base size x.mux x.stream x.box n) (ha : a ≠ .resume x.stream)
    (hcall : (call size x.mux a).isSome) :
    ∃ (m' : Mux) (s : StreamImpl), x.mux.objs[x.stream]? = some s ∧
      x.apply size a = ({ x with
        mux := m'
        box := deliver x.box (callOn size x.mux x.stream s a) }, none) ∧
      ∀ k, Base size x.mux x.stream x.box k →
        Base size m' x.stream (deliver x.box (callOn size x.mux x.stream s a)) k := by
  obtain ⟨⟨L, hsound⟩, s, hs, hshow, -⟩ := hb
  obtain ⟨y, hy⟩ := Option.isSome_iff_exists.1 hcall
  obtain ⟨hthrow, hsound'⟩ := hsound.call hy
  obtain ⟨t, ht, hshow', hres⟩ := shows_call hsound hs hshow ha hy
  refine ⟨y.1, s, hs, ?_, ?_⟩
  · rw [StreamCall.apply, hs, hy, ← hthrow]
  · rintro k ⟨-, s', hs', -, hk⟩
    obtain rfl : s = s' := Option.some.inj (hs.symm.trans hs')
    exact ⟨⟨_, hsound'⟩, t, ht, hshow', hres.trans hk⟩

/-- Once the stream has ended an event changes nothing in what it was told. -/
theorem Base.apply_ended (hb : Base size x.mux x.stream x.box n) (ha : a ≠ .resume x.stream)
    (ha' : a ≠ .recv x.stream) (hcall : (call size x.mux a).isSome)
    (hended : x.box.outcome.isSome) :
    ∃ m', x.apply size a = ({ x with mux := m' }, none) := by
  obtain ⟨m', s, -, happly, -⟩ := hb.apply ha hcall
  rw [(grows_deliver (callOn_ne_recv ha')).ended hended] at happly
  exact ⟨m', happly⟩

/-- `stream.cancel()`. -/
theorem Base.cancel (hb : Base size x.mux x.stream x.box n) :
    ∃ m' : Mux, x.cancel size = { x with
        mux := m'
        box := x.box.finish { error := none, resets := true } } ∧
      ∀ k, Base size x.mux x.stream x.box k →
        Base size m' x.stream (x.box.finish { error := none, resets := true }) k := by
  obtain ⟨m', s, hs, happly, hbase⟩ := hb.apply (a := .abort x.stream none) (by simp) rfl
  have hcall : callOn size x.mux x.stream s (.abort x.stream none) = some .cancel :=
    callOn_of_direct (if_pos rfl)
  rw [hcall] at happly hbase
  exact ⟨m', by rw [StreamCall.cancel, happly]; rfl, hbase⟩

/-- The generator pulls. -/
theorem Base.pull (hb : Base size x.mux x.stream x.box n) :
    ∃ m' : Mux, (x.apply size (.recv x.stream)).1 = { x with mux := m', box := x.box.pull } ∧
      Base size m' x.stream x.box.pull n := by
  obtain ⟨m', s, hs, happly, hbase⟩ := hb.apply (a := .recv x.stream) (by simp) rfl
  have hcall : callOn size x.mux x.stream s (.recv x.stream) = some .recv :=
    callOn_of_direct (if_pos rfl)
  rw [hcall] at happly hbase
  exact ⟨m', by rw [happly]; rfl, hbase n hb⟩

/-- What the pull that has not resumed yet has settled with. -/
theorem Base.settled (hb : Base size x.mux x.stream x.box n) (hp : x.box.pulls = n + 1)
    (hs : x.mux.objs[x.stream]? = some s) :
    s.inbound.settled[s.resumed]? =
      (((x.box.accepted[n]?).map Except.ok).or (x.box.outcome.map Except.error)).map
        (toPull Event.error) := by
  obtain ⟨-, s', hs', hshow, hres⟩ := hb
  obtain rfl : s = s' := Option.some.inj (hs.symm.trans hs')
  rw [hshow.inbound, hres, ← Mailbox.getElem?_results (by omega)]
  exact List.getElem?_map

/-- `next()` resumes. -/
theorem Base.resume (hb : Base size x.mux x.stream x.box n)
    (hs : x.mux.objs[x.stream]? = some s) {r : PullResult Payload}
    (hr : s.inbound.settled[s.resumed]? = some r) :
    ∃ (m' : Mux) (h' : Mailbox Payload Event), Grows x.box h' ∧
      h'.accepted = x.box.accepted ∧ x.resume size s r = { x with
        mux := m'
        box := h'
        gen := .pulled (if creditBeyond s then .error .range else resultOf r) } ∧
      Base size m' x.stream h' (n + 1) := by
  obtain ⟨⟨L, hsound⟩, s', hs', hshow, hres⟩ := hb
  obtain rfl : s = s' := Option.some.inj (hs.symm.trans hs')
  obtain ⟨c, d, hresume⟩ := StreamImpl.resume_spec hr
  obtain ⟨y, hy⟩ : ∃ y, call size x.mux (.resume x.stream) = some y := by
    simp only [call, Mux.resume, hs, Option.bind_some, hresume, Option.map_some]
    exact ⟨_, rfl⟩
  obtain ⟨hthrow, hsound'⟩ := hsound.call hy
  obtain ⟨t, ht, hshow', hres'⟩ := shows_resume hsound hs hshow hy
  refine ⟨y.1, deliver x.box (callOn size x.mux x.stream s (.resume x.stream)),
    grows_deliver (callOn_ne_recv (by simp)), ?_, ?_,
    ⟨_, hsound'⟩, t, ht, hshow', by rw [hres', hres]⟩
  · -- a write may fail the mux, which accepts nothing
    unfold callOn
    simp only [direct, Option.none_or]
    split_ifs <;> rfl
  · rw [StreamCall.resume, StreamCall.apply, hs, hy]
    simp only [hthrow]

end Mailbox

/-! ## The invariant -/

section Invariant

variable {ι ο ε : Type} {size : Frame → ℕ} {codec : Codec ι ο ε} {x x' : StreamCall ο ε}
  {h h' : Mailbox Payload Event} {n : ℕ}

/-- All the messages are received, `n` of them, and the first terminal event has the error
`failed`, or none. -/
def Ended (h : Mailbox Payload Event) (n : ℕ) (failed : Option (Value ε)) : Prop :=
  h.accepted.length = n ∧ ∃ t, h.outcome = some t ∧ failed = t.error.map .status

/-- What `next()` may settle with after `n` messages. -/
def Got (h : Mailbox Payload Event) (n : ℕ) : Except (Value ε) (Option Payload) → Prop
  | .ok (some p) => h.accepted[n]? = some p
  | .ok none => Ended h n (none : Option (Value ε))
  | .error v => Ended h n (some v)

/-- What the iteration may end with. -/
structure Threw (x : StreamCall ο ε) (thrown : Option (Value ε)) (t : Event) : Prop where
  outcome : x.box.outcome = some t
  trailer : x.trailer = t.headers
  read : ∀ e, t.error = some e → thrown = some (.status e)
  clean : t.error = none → (thrown = none ∧ x.sourceFailed = none) ∨
    (thrown = some x.pumpError ∧ x.pumpError.isUndefined = false)

/-- What holds where the generator is. -/
def Place (size : Frame → ℕ) (x : StreamCall ο ε) : Gen ε → Prop
  | .idle =>
      Base size x.mux x.stream x.box x.received.length ∧ x.box.pulls = x.received.length
  | .pulling =>
      Base size x.mux x.stream x.box x.received.length ∧ x.box.pulls = x.received.length + 1
  | .pulled r =>
      Base size x.mux x.stream x.box (x.received.length + 1) ∧
        x.box.pulls = x.received.length + 1 ∧ Got x.box x.received.length r
  | .closing _ => False
  | .leaving failed =>
      (∃ k, Base size x.mux x.stream x.box k) ∧ x.returned = true ∧
        Ended x.box x.received.length failed
  | .settled thrown =>
      (∃ k, Base size x.mux x.stream x.box k) ∧ x.returned = true ∧
        x.box.accepted.length = x.received.length ∧ ∃ t, Threw x thrown t

structure Inv (size : Frame → ℕ) (codec : Codec ι ο ε) (x : StreamCall ο ε) : Prop where
  received : x.received.map .ok = (x.box.accepted.take x.received.length).map codec.fromBinary
  decodes : ∀ p ∈ x.box.accepted, (codec.fromBinary p).isOk = true
  failed : x.pumpError.isUndefined = false → x.pumping = false
  source : ∀ err, x.sourceFailed = some err → x.pumping = false ∧ x.pumpError = err ∧
    err.isUndefined = false ∧ ∃ t, x.box.outcome = some t ∧ t.error = none
  place : Place size x x.gen

theorem Inv.length_le (hx : Inv size codec x) : x.received.length ≤ x.box.accepted.length := by
  have hlen := congrArg List.length hx.received
  simp only [List.length_map, List.length_take] at hlen
  omega

theorem Inv.base (hx : Inv size codec x) : ∃ k, Base size x.mux x.stream x.box k := by
  have hplace := hx.place
  cases hgen : x.gen with
  | idle => rw [hgen] at hplace; exact ⟨_, hplace.1⟩
  | pulling => rw [hgen] at hplace; exact ⟨_, hplace.1⟩
  | pulled r => rw [hgen] at hplace; exact ⟨_, hplace.1⟩
  | closing e => rw [hgen] at hplace; exact hplace.elim
  | leaving failed => rw [hgen] at hplace; exact hplace.1
  | settled thrown => rw [hgen] at hplace; exact hplace.1

theorem Ended.grows {failed : Option (Value ε)} (he : Ended h n failed) (hg : Grows h h') :
    Ended h' n failed := by
  obtain ⟨hlen, t, ht, hfailed⟩ := he
  rw [hg.ended (by rw [ht]; rfl)]
  exact ⟨hlen, t, ht, hfailed⟩

theorem Got.grows {r : Except (Value ε) (Option Payload)} (hr : Got h n r) (hg : Grows h h') :
    Got h' n r := by
  cases r with
  | error v => exact Ended.grows hr hg
  | ok p =>
      cases p with
      | none => exact Ended.grows hr hg
      | some p =>
          obtain ⟨more, hmore⟩ := hg.accepted
          show h'.accepted[n]? = some p
          replace hr : h.accepted[n]? = some p := hr
          rw [← hmore, List.getElem?_append_left (List.getElem?_eq_some_iff.1 hr).1]
          exact hr

/-- A step of the environment or of the pump: the generator and its consumer see none of it
before their next turn. -/
theorem Inv.change (hx : Inv size codec x) (hgen : x'.gen = x.gen)
    (hrec : x'.received = x.received) (hret : x'.returned = x.returned)
    (htrailer : x'.trailer = x.trailer)
    (hbase : ∀ k, Base size x.mux x.stream x.box k → Base size x'.mux x'.stream x'.box k)
    (hgrows : Grows x.box x'.box)
    (hdecodes : ∀ p ∈ x'.box.accepted, (codec.fromBinary p).isOk = true)
    (hfailed : x'.pumpError.isUndefined = false → x'.pumping = false)
    (hsource : ∀ err, x'.sourceFailed = some err → x'.pumping = false ∧ x'.pumpError = err ∧
      err.isUndefined = false ∧ ∃ t, x'.box.outcome = some t ∧ t.error = none)
    (hkeep : x.box.outcome.isSome → x'.sourceFailed = x.sourceFailed)
    (herror : x.pumpError.isUndefined = false → x'.pumpError = x.pumpError) :
    Inv size codec x' := by
  refine ⟨?_, hdecodes, hfailed, hsource, ?_⟩
  · obtain ⟨more, hmore⟩ := hgrows.accepted
    rw [hrec, ← hmore, List.take_append_of_le_length hx.length_le]
    exact hx.received
  · have hplace := hx.place
    rw [hgen]
    cases hg : x.gen with
    | idle =>
        rw [hg] at hplace
        simp only [Place, hrec, hgrows.pulls]
        exact ⟨hbase _ hplace.1, hplace.2⟩
    | pulling =>
        rw [hg] at hplace
        simp only [Place, hrec, hgrows.pulls]
        exact ⟨hbase _ hplace.1, hplace.2⟩
    | pulled r =>
        rw [hg] at hplace
        simp only [Place, hrec, hgrows.pulls]
        exact ⟨hbase _ hplace.1, hplace.2.1, hplace.2.2.grows hgrows⟩
    | closing e =>
        rw [hg] at hplace
        exact hplace.elim
    | leaving failed =>
        rw [hg] at hplace
        obtain ⟨⟨k, hk⟩, hreturned, hended⟩ := hplace
        simp only [Place, hrec, hret]
        exact ⟨⟨k, hbase k hk⟩, hreturned, hended.grows hgrows⟩
    | settled thrown =>
        rw [hg] at hplace
        obtain ⟨⟨k, hk⟩, hreturned, hlen, t, ht⟩ := hplace
        have hsome : x.box.outcome.isSome := by rw [ht.outcome]; rfl
        have hbox := hgrows.ended hsome
        simp only [Place, hrec, hret, hbox]
        refine ⟨⟨k, ?_⟩, hreturned, hlen, t, ?_, htrailer.trans ht.trailer, ht.read, fun hclean => ?_⟩
        · rw [← hbox]
          exact hbase k hk
        · rw [hbox]
          exact ht.outcome
        · rcases ht.clean hclean with ⟨hnone, hsrc⟩ | ⟨hthrown, hdef⟩
          · exact .inl ⟨hnone, (hkeep hsome).trans hsrc⟩
          · refine .inr ⟨?_, ?_⟩
            · rw [herror hdef]
              exact hthrown
            · rw [herror hdef]
              exact hdef

/-! ### The steps of the environment and of the pump -/

variable {a : Act}

theorem foreign_ne {r : Ref} (hf : foreign r a = true) : a ≠ .resume r ∧ a ≠ .recv r := by
  refine ⟨?_, ?_⟩
  · rintro rfl
    simp [foreign] at hf
  · rintro rfl
    simp [foreign] at hf

theorem Inv.event (hx : Inv size codec x) (hf : foreign x.stream a = true)
    (hcall : (call size x.mux a).isSome) (hok : meets size codec x (.event a) = true) :
    Inv size codec (x.apply size a).1 := by
  obtain ⟨k, hk⟩ := hx.base
  obtain ⟨hne, hne'⟩ := foreign_ne hf
  obtain ⟨m', s, hs, happly, hbase⟩ := hk.apply hne hcall
  have hgrows : Grows x.box (deliver x.box (callOn size x.mux x.stream s a)) :=
    grows_deliver (callOn_ne_recv hne')
  rw [happly]
  refine hx.change rfl rfl rfl rfl hbase hgrows (fun p hp => ?_) hx.failed
    (fun err herr => ?_) (fun _ => rfl) (fun _ => rfl)
  · rcases mem_deliver hp with hp | hp
    · exact hx.decodes p hp
    · simpa [meets, hs, hp] using hok
  · obtain ⟨hpump, hperr, hdef, t, ht, hclean⟩ := hx.source err herr
    have hbox := hgrows.ended (by rw [ht]; rfl)
    exact ⟨hpump, hperr, hdef, t, by rw [hbox]; exact ht, hclean⟩

/-- While the pump runs, the source has not failed. -/
theorem Inv.pumping (hx : Inv size codec x) (hpump : x.pumping = true) :
    x.pumpError.isUndefined = true ∧ x.sourceFailed = none := by
  refine ⟨?_, ?_⟩
  · by_contra hne
    rw [hx.failed (by simpa using hne)] at hpump
    cases hpump
  · rw [Option.eq_none_iff_forall_ne_some]
    intro err herr
    rw [(hx.source err herr).1] at hpump
    cases hpump

/-- `send` or `closeSend` of the pump. -/
theorem Inv.afterCall (hx : Inv size codec x) (hpump : x.pumping = true)
    (hne : a ≠ .resume x.stream) (hne' : a ≠ .recv x.stream) (hmsg : ∀ len f, a ≠ .message len f)
    (hcall : (call size x.mux a).isSome) (goesOn : Bool) :
    Inv size codec (StreamCall.afterCall size (x.apply size a) goesOn) := by
  obtain ⟨k, hk⟩ := hx.base
  obtain ⟨m', s, hs, happly, hbase⟩ := hk.apply hne hcall
  obtain ⟨hundef, hsource⟩ := hx.pumping hpump
  rw [happly]
  refine hx.change rfl rfl rfl rfl hbase (grows_deliver (callOn_ne_recv hne')) (fun p hp => ?_)
    (fun hdef => ?_) (fun err herr => ?_) (fun _ => rfl) (fun _ => rfl)
  · rcases mem_deliver hp with hp | hp
    · exact hx.decodes p hp
    · rw [callOn_payload hmsg] at hp
      cases hp
  · replace hdef : x.pumpError.isUndefined = false := hdef
    rw [hundef] at hdef
    cases hdef
  · replace herr : x.sourceFailed = some err := herr
    rw [hsource] at herr
    cases herr

/-- The `catch` of the pump. -/
theorem Inv.failPump (hx : Inv size codec x) (hpump : x.pumping = true) {err : Value ε}
    (herr : err.isUndefined = true → x.box.outcome.isSome) :
    Inv size codec (x.failPump size err) := by
  obtain ⟨k, hk⟩ := hx.base
  obtain ⟨m', hcancel, hbase⟩ := hk.cancel
  obtain ⟨hundef, hsource⟩ := hx.pumping hpump
  rw [StreamCall.failPump, hcancel]
  refine hx.change rfl rfl rfl rfl hbase (grows_finish _ _) hx.decodes (fun _ => rfl)
    (fun err' herr' => ?_) (fun hsome => if_pos hsome) (fun hdef => ?_)
  · by_cases hsome : x.box.outcome.isSome = true
    · replace herr' : (if x.box.outcome.isSome then x.sourceFailed else some err) = some err' := herr'
      rw [if_pos hsome, hsource] at herr'
      cases herr'
    · replace herr' : (if x.box.outcome.isSome then x.sourceFailed else some err) = some err' := herr'
      rw [if_neg hsome] at herr'
      cases herr'
      have ho : x.box.outcome = none := by simpa using hsome
      refine ⟨rfl, rfl, ?_, _, (Mailbox.finish_of_none _ ho).1, rfl⟩
      by_contra hne
      exact hsome (herr (by simpa using hne))
  · rw [hundef] at hdef
    cases hdef

/-! ### The steps of the generator and its consumer -/

/-- The consumer asks for a message. -/
theorem Inv.next (hx : Inv size codec x) (hgen : x.gen = .idle) :
    Inv size codec { (x.apply size (.recv x.stream)).1 with gen := .pulling } := by
  have hplace := hx.place
  rw [hgen] at hplace
  obtain ⟨m', happly, hbase⟩ := hplace.1.pull
  rw [happly]
  refine ⟨hx.received, hx.decodes, hx.failed, hx.source, hbase, ?_⟩
  show x.box.pulls + 1 = _
  rw [hplace.2]

/-- What a settled pull is to the generator, which has received all before. -/
theorem Inv.got (hx : Inv size codec x) {r : PullResult Payload}
    (hr : (((x.box.accepted[x.received.length]?).map Except.ok).or
      (x.box.outcome.map Except.error)).map (toPull Event.error) = some r) :
    Got x.box x.received.length (resultOf r : Except (Value ε) (Option Payload)) := by
  cases hp : x.box.accepted[x.received.length]? with
  | some p =>
      rw [hp] at hr
      cases hr
      exact hp
  | none =>
      have hlen : x.box.accepted.length = x.received.length :=
        le_antisymm (List.getElem?_eq_none_iff.1 hp) hx.length_le
      rw [hp, Option.map_none, Option.none_or, Option.map_map, Option.map_eq_some_iff] at hr
      obtain ⟨t, ht, rfl⟩ := hr
      show Got _ _ (resultOf (t.error.elim .done .rejected))
      cases he : t.error with
      | none => exact ⟨hlen, t, ht, by rw [he]; rfl⟩
      | some e => exact ⟨hlen, t, ht, by rw [he]; rfl⟩

theorem Inv.resume (hx : Inv size codec x) (hgen : x.gen = .pulling) {s : StreamImpl}
    (hs : x.mux.objs[x.stream]? = some s) {r : PullResult Payload}
    (hr : s.inbound.settled[s.resumed]? = some r) (hcredit : creditBeyond s = false) :
    Inv size codec (x.resume size s r) := by
  have hplace := hx.place
  rw [hgen] at hplace
  obtain ⟨hbase, hpulls⟩ := hplace
  have hgot := hx.got ((hbase.settled hpulls hs).symm.trans hr)
  obtain ⟨m', h', hgrows, hacc, hresume, hbase'⟩ := hbase.resume hs hr
  rw [hresume, hcredit]
  refine ⟨?_, ?_, hx.failed, fun err herr => ?_, hbase', hgrows.pulls.trans hpulls,
    hgot.grows hgrows⟩
  · rw [hacc]
    exact hx.received
  · rw [hacc]
    exact hx.decodes
  · obtain ⟨hpump, hperr, hdef, t, ht, hclean⟩ := hx.source err herr
    have hbox : h' = x.box := hgrows.ended (by rw [ht]; rfl)
    exact ⟨hpump, hperr, hdef, t, by rw [hbox]; exact ht, hclean⟩

/-- A payload that was accepted is decoded, and received. -/
theorem Inv.body_eq (hx : Inv size codec x) {p : Payload} (hgen : x.gen = .pulled (.ok (some p))) :
    ∃ v, codec.fromBinary p = .ok v ∧
      x.body size codec p = { x with gen := .idle, received := x.received ++ [v] } := by
  have hplace := hx.place
  rw [hgen] at hplace
  have hp : x.box.accepted[x.received.length]? = some p := hplace.2.2
  have hok := hx.decodes p (List.mem_of_getElem? hp)
  cases hv : codec.fromBinary p with
  | error e =>
      rw [hv] at hok
      cases hok
  | ok v => exact ⟨v, rfl, by rw [StreamCall.body, hv]⟩

theorem Inv.body (hx : Inv size codec x) {p : Payload} (hgen : x.gen = .pulled (.ok (some p))) :
    Inv size codec (x.body size codec p) := by
  obtain ⟨v, hv, hbody⟩ := hx.body_eq hgen
  have hplace := hx.place
  rw [hgen] at hplace
  obtain ⟨hbase, hpulls, hp⟩ := hplace
  replace hp : x.box.accepted[x.received.length]? = some p := hp
  have hlen : (x.received ++ [v]).length = x.received.length + 1 := by simp
  rw [hbody]
  refine ⟨?_, hx.decodes, hx.failed, hx.source, ?_, ?_⟩
  · show (x.received ++ [v]).map _ = (x.box.accepted.take (x.received ++ [v]).length).map _
    rw [hlen, List.take_add_one, hp, List.map_append, List.map_append, hx.received]
    simp [hv]
  · show Base _ _ _ _ (x.received ++ [v]).length
    rw [hlen]
    exact hbase
  · show x.box.pulls = (x.received ++ [v]).length
    rw [hlen]
    exact hpulls

theorem Inv.leave (hx : Inv size codec x) {failed : Option (Value ε)}
    (hended : Ended x.box x.received.length failed) : Inv size codec (x.leave failed) :=
  ⟨hx.received, hx.decodes, hx.failed, hx.source, hx.base, rfl, hended⟩

theorem Inv.finish (hx : Inv size codec x) {failed : Option (Value ε)}
    (hgen : x.gen = .leaving failed) {s : StreamImpl} (hs : x.mux.objs[x.stream]? = some s) :
    Inv size codec (x.finish s failed) := by
  have hplace := hx.place
  rw [hgen] at hplace
  obtain ⟨⟨k, hbase⟩, hreturned, hlen, t, ht, hfailed⟩ := hplace
  have hheaders : s.headers = t.headers := by
    obtain ⟨-, s', hs', hshow, -⟩ := hbase
    obtain rfl : s = s' := Option.some.inj (hs.symm.trans hs')
    rw [hshow.headers, ht]
    rfl
  refine ⟨hx.received, hx.decodes, hx.failed, hx.source, ⟨k, hbase⟩, hreturned, hlen, t, ht,
    hheaders, fun e he => ?_, fun hclean => ?_⟩
  · rw [hfailed, he]
    rfl
  · rw [hfailed, hclean, Option.map_none, Option.none_or]
    cases hundef : x.pumpError.isUndefined with
    | false => exact .inr ⟨rfl, hundef⟩
    | true =>
        refine .inl ⟨rfl, ?_⟩
        show x.sourceFailed = none
        rw [Option.eq_none_iff_forall_ne_some]
        intro err herr
        obtain ⟨-, hperr, hdef, -⟩ := hx.source err herr
        rw [← hperr, hundef] at hdef
        cases hdef

/-- **Every step** that meets the condition keeps the invariant. -/
theorem Inv.step (hx : Inv size codec x) {a : Move ι ε} (hok : meets size codec x a = true)
    (hstep : x.step size codec a = some x') : Inv size codec x' := by
  have hplace := hx.place
  cases StreamCall.steps_of_step size codec hstep with
  | event hforeign hcall => exact hx.event hforeign hcall hok
  | yields hpump _ => exact hx.afterCall hpump (by simp) (by simp) (by simp) rfl true
  | garbles hpump _ => exact hx.failPump hpump (by simp [Value.isUndefined])
  | ends hpump => exact hx.afterCall hpump (by simp) (by simp) (by simp) rfl false
  | fails hpump =>
      refine hx.failPump hpump fun hundef => ?_
      simpa [meets, hundef] using hok
  | next hgen => exact hx.next hgen
  | resume hgen hs hr => exact hx.resume hgen hs hr (by simpa [meets, hs] using hok)
  | body hgen => exact hx.body hgen
  | done hgen =>
      rw [hgen] at hplace
      exact hx.leave hplace.2.2
  | thrown hgen =>
      rw [hgen] at hplace
      exact hx.leave hplace.2.2
  | closed hgen =>
      rw [hgen] at hplace
      exact hplace.elim
  | finish hgen hs => exact hx.finish hgen hs
  | lead =>
      exact hx.change rfl rfl rfl rfl (fun _ hk => hk) (Grows.refl _) hx.decodes hx.failed
        hx.source (fun _ => rfl) (fun _ => rfl)

/-! ### The end of the iteration -/

/-- A step once the stream has ended: one of the generator brings it closer to the end, and
no other sets it back. -/
theorem Inv.left_step (hx : Inv size codec x) (hended : x.box.outcome.isSome) {a : Move ι ε}
    (hstep : x.step size codec a = some x') :
    x'.box.outcome.isSome ∧ if a.isOwn then left x' < left x else left x' = left x := by
  obtain ⟨k, hk⟩ := hx.base
  have hsame : ∀ {x' : StreamCall ο ε}, x'.gen = x.gen → x'.received = x.received →
      x'.box = x.box → x'.box.outcome.isSome ∧ left x' = left x := by
    intro x' hgen hrec hbox
    rw [left, left, hgen, hrec, hbox]
    exact ⟨hended, rfl⟩
  have hcancel : ∀ err, (x.failPump size err).box.outcome.isSome ∧
      left (x.failPump size err) = left x := by
    intro err
    obtain ⟨m', happly⟩ := hk.apply_ended (a := .abort x.stream none) (by simp) (by simp) rfl hended
    have hfail : x.cancel size = { x with mux := m' } := by rw [StreamCall.cancel, happly]
    rw [StreamCall.failPump, hfail]
    exact hsame rfl rfl rfl
  have hplace := hx.place
  cases StreamCall.steps_of_step size codec hstep with
  | event hforeign hcall =>
      obtain ⟨hne, hne'⟩ := foreign_ne hforeign
      obtain ⟨m', happly⟩ := hk.apply_ended hne hne' hcall hended
      rw [happly]
      exact hsame rfl rfl rfl
  | @yields v p _ _ =>
      obtain ⟨m', happly⟩ := hk.apply_ended (a := .send x.stream p) (by simp) (by simp) rfl hended
      rw [happly]
      exact hsame rfl rfl rfl
  | ends _ =>
      obtain ⟨m', happly⟩ := hk.apply_ended (a := .closeSend x.stream) (by simp) (by simp) rfl hended
      rw [happly]
      exact hsame rfl rfl rfl
  | garbles | fails => exact hcancel _
  | next hgen =>
      obtain ⟨m', happly, -⟩ := hk.pull
      rw [happly]
      refine ⟨hended, ?_⟩
      show _ < Gen.left _ x.gen
      rw [hgen]
      exact Nat.lt_succ_self _
  | resume hgen hs hr =>
      obtain ⟨m', h', hgrows, -, hresume, -⟩ := hk.resume hs hr
      obtain rfl : h' = x.box := hgrows.ended hended
      rw [hresume]
      refine ⟨hended, ?_⟩
      show _ < Gen.left _ x.gen
      rw [hgen]
      exact Nat.lt_succ_self _
  | body hgen =>
      have hle := hx.length_le
      obtain ⟨v, -, hbody⟩ := hx.body_eq hgen
      rw [hgen] at hplace
      have hlt := (List.getElem?_eq_some_iff.1 hplace.2.2).1
      rw [hbody]
      refine ⟨hended, ?_⟩
      show 3 * (x.box.accepted.length - (x.received ++ [v]).length) + 4 < Gen.left _ x.gen
      rw [hgen, List.length_append, List.length_singleton, Gen.left]
      omega
  | done hgen | thrown hgen =>
      refine ⟨hended, ?_⟩
      show 1 < Gen.left _ x.gen
      rw [hgen]
      exact Nat.succ_lt_succ (Nat.succ_pos _)
  | closed hgen =>
      rw [hgen] at hplace
      exact hplace.elim
  | finish hgen hs =>
      refine ⟨hended, ?_⟩
      show 0 < Gen.left _ x.gen
      rw [hgen]
      exact Nat.succ_pos _
  | lead => exact hsame rfl rfl rfl

/-- A stream that has ended returns no credit. -/
theorem creditBeyond_finished {s : StreamImpl} (hfin : s.finished = true) :
    creditBeyond s = false := by
  unfold creditBeyond
  cases hy : s.resume with
  | none => rfl
  | some y =>
      rw [Option.bind_some, (StreamImpl.resume_follows hy).2 hfin]
      rfl

/-- Once the stream has ended, the generator or its consumer can take a step until the
iteration has settled. -/
theorem Inv.enabled (hx : Inv size codec x) (hended : x.box.outcome.isSome)
    (hsettled : x.gen.isSettled = false) :
    ∃ (a : Move ι ε) (x' : StreamCall ο ε), a.isOwn = true ∧ meets size codec x a = true ∧
      x.step size codec a = some x' := by
  have hplace := hx.place
  cases hgen : x.gen with
  | idle =>
      refine ⟨.next, { (x.apply size (.recv x.stream)).1 with gen := .pulling }, rfl, rfl, ?_⟩
      simp only [StreamCall.step, hgen]
  | pulling =>
      rw [hgen] at hplace
      obtain ⟨hbase, hpulls⟩ := hplace
      obtain ⟨s, hs, hshow, -⟩ := hbase.stream
      have hfin : s.finished = true := hshow.finished.trans hended
      obtain ⟨t, ht⟩ := Option.isSome_iff_exists.1 hended
      obtain ⟨r, hr⟩ : ∃ r, s.inbound.settled[s.resumed]? = some r := by
        rw [hbase.settled hpulls hs, ht]
        cases x.box.accepted[x.received.length]? with
        | none => exact ⟨_, rfl⟩
        | some p => exact ⟨_, rfl⟩
      refine ⟨.resume, x.resume size s r, rfl, ?_, ?_⟩
      · simp [meets, hs, creditBeyond_finished hfin]
      · simp only [StreamCall.step, hgen, hs, Option.bind_some, hr, Option.map_some]
  | pulled r =>
      cases r with
      | error v =>
          refine ⟨.loop, x.leave (some v), rfl, rfl, ?_⟩
          simp only [StreamCall.step, hgen]
      | ok p =>
          cases p with
          | none =>
              refine ⟨.loop, x.leave none, rfl, rfl, ?_⟩
              simp only [StreamCall.step, hgen]
          | some p =>
              refine ⟨.loop, x.body size codec p, rfl, rfl, ?_⟩
              simp only [StreamCall.step, hgen]
  | closing e =>
      rw [hgen] at hplace
      exact hplace.elim
  | leaving failed =>
      rw [hgen] at hplace
      obtain ⟨⟨k, -, s, hs, hshow, -⟩, -⟩ := hplace
      refine ⟨.finish, x.finish s failed, rfl, rfl, ?_⟩
      simp only [StreamCall.step, hgen, hs, Option.bind_some, if_pos (hshow.settled.trans hended)]
  | settled thrown =>
      rw [hgen] at hsettled
      cases hsettled

/-- From an ended stream on, the generator and its consumer need no one else. -/
theorem Inv.settlesIn (n : ℕ) : ∀ {x : StreamCall ο ε}, Inv size codec x →
    x.box.outcome.isSome → left x ≤ n → SettlesIn size codec n x := by
  induction n with
  | zero =>
      intro x hx hended hle
      by_contra hne
      replace hne : x.gen.isSettled = false := Bool.eq_false_iff.2 hne
      obtain ⟨a, x', hown, -, hstep⟩ := hx.enabled hended hne
      have hlt := (hx.left_step hended hstep).2
      rw [if_pos hown] at hlt
      omega
  | succ n ih =>
      intro x hx hended hle
      cases hsettled : x.gen.isSettled with
      | true => exact .inl hsettled
      | false =>
          obtain ⟨a, x', hown, hok, hstep⟩ := hx.enabled hended hsettled
          obtain ⟨hended', hlt⟩ := hx.left_step hended hstep
          rw [if_pos hown] at hlt
          exact .inr ⟨a, x', hown, hstep, ih (hx.step hok hstep) hended' (by omega)⟩

theorem Inv.outcome (hx : Inv size codec x) {thrown : Option (Value ε)}
    (hgen : x.gen = .settled thrown) : Outcome codec x thrown := by
  have hplace := hx.place
  rw [hgen] at hplace
  obtain ⟨-, hreturned, hlen, t, ht⟩ := hplace
  refine ⟨?_, ⟨t, ht.outcome, ht.trailer, ht.read, fun err herr => ?_, fun hclean _ => ?_⟩,
    hreturned⟩
  · rw [hx.received, ← hlen, List.take_length]
  · obtain ⟨-, hperr, -, t', ht', hclean⟩ := hx.source err herr
    obtain rfl : t = t' := Option.some.inj (ht.outcome.symm.trans ht')
    rcases ht.clean hclean with ⟨-, hsource⟩ | ⟨hthrown, -⟩
    · rw [herr] at hsource
      cases hsource
    · rw [hthrown, hperr]
  · rcases ht.clean hclean with ⟨hnone, -⟩ | ⟨hthrown, hdef⟩
    · exact .inl hnone
    · refine .inr ⟨hthrown, fun hundef => ?_⟩
      rw [hundef] at hdef
      cases hdef

end Invariant

/-! ## Every run -/

section Runs

variable {ι ο ε : Type} (size : Frame → ℕ) (codec : Codec ι ο ε)

theorem inv_start {m : Mux} {L : List Frame} (hsound : Sound size m L) (hb : m.nextId < 2 ^ 32)
    (method : Text) (headers : Headers) (aborted : Option WsStatusError) :
    Inv size codec (StreamCall.start size m method headers aborted : StreamCall ο ε) := by
  obtain ⟨s, hs, hshow, hres⟩ := shows_open hsound hb method headers aborted
  obtain ⟨-, hsound'⟩ :=
    (sound_kept size m (.openStream method headers aborted)).openWith hb hsound
  have hempty : (opening size m method headers aborted).accepted = [] ∧
      (opening size m method headers aborted).pulls = 0 := by
    unfold opening
    split_ifs <;> exact ⟨rfl, rfl⟩
  refine ⟨?_, ?_, ?_, ?_, ⟨⟨_, hsound'⟩, s, hs, hshow, hres⟩, hempty.2⟩
  · rfl
  · intro p hp
    replace hp : p ∈ (opening size m method headers aborted).accepted := hp
    rw [hempty.1] at hp
    cases hp
  · intro hdef
    cases hdef
  · intro err herr
    cases herr

/-- What holds in every state of a call. -/
structure Proceeds (x : StreamCall ο ε) : Prop where
  /-- The consumer has received the first of the accepted messages, in order. -/
  received : x.received.map .ok = (x.box.accepted.take x.received.length).map codec.fromBinary
  /-- An iteration that has settled has ended as it should. -/
  outcome : ∀ thrown, x.gen = .settled thrown → Outcome codec x thrown
  /-- After the first terminal event the iteration settles without a step of the source. -/
  alone : x.box.outcome.isSome → SettlesIn size codec (left x) x
  /-- No step sets it back. -/
  forward : x.box.outcome.isSome → ∀ (a : Move ι ε) (x' : StreamCall ο ε),
    x.step size codec a = some x' → x'.box.outcome.isSome ∧ left x' ≤ left x

/-- **The outcome of a streaming call.**  A mux in any state opens the stream of a call.  In
every run in which accepted messages can be decoded, the source does not fail with
`undefined` while the stream is open and the credit due can be encoded:

* the consumer receives the messages accepted before the first terminal event, in order;
* then the iteration throws that event's error if it has one, what the source failed with if
  that was the event, and completes otherwise, or throws what the source failed with since;
* it settles by its own steps, whatever the source does, `source.return()` has been called by
  then, and `trailer` holds the trailers of the event. -/
theorem iteration_settles (W B F : ℤ) (ready : Bool) (got : Option Text) {y : Session}
    (hy : Reach (Session.step size) Always (Session.start W B F ready got) y)
    (hb : y.mux.nextId < 2 ^ 32) (method : Text) (headers : Headers)
    (aborted : Option WsStatusError) {x : StreamCall ο ε}
    (hx : Reach (StreamCall.step size codec) (fun x a => meets size codec x a = true)
      (StreamCall.start size y.mux method headers aborted) x) :
    Proceeds size codec x := by
  have hsound : Sound size y.mux y.accepted := by
    refine hy.invariant (P := fun y => Sound size y.mux y.accepted)
      (sound_start size W B F ready got) fun y a y' hs _ hstep => ?_
    obtain ⟨z, hz, rfl⟩ := Option.map_eq_some_iff.1 hstep
    exact (hs.call hz).2
  have hinv : Inv size codec x := hx.invariant (P := Inv size codec)
    (inv_start size codec hsound hb method headers aborted)
    fun x a x' hinv hok hstep => hinv.step hok hstep
  refine ⟨hinv.received, fun thrown hgen => hinv.outcome hgen,
    fun hended => hinv.settlesIn (left x) hended le_rfl, fun hended a x' hstep => ?_⟩
  obtain ⟨hended', hle⟩ := hinv.left_step hended hstep
  refine ⟨hended', ?_⟩
  split_ifs at hle
  · exact Nat.le_of_lt hle
  · exact Nat.le_of_eq hle

end Runs

/-! ## Runs -/

/-- Messages that are their own encoding. -/
def plain : Codec Payload Payload Empty := ⟨.ok, .ok⟩

/-- A call on a new mux over an open socket. -/
def callOf : StreamCall Payload Empty :=
  .start (fun f => f.payload.length) (Session.start 0 0 0 true none).mux .empty ∅ none

/-- An idle source: a message, the end of the stream, and the iteration completes. -/
theorem iteration_settles_idle :
    ∃ x : StreamCall Payload Empty, (x.gen = .settled none ∧ x.received = [[7]]) ∧
      Proceeds (fun f => f.payload.length) plain x := by
  obtain ⟨x, hx, hp⟩ := exists_reach_of_exec
    (StreamCall.step (fun f : Frame => f.payload.length) plain)
    (fun x a => meets (fun f => f.payload.length) plain x a = true) callOf
    (fun x => x.gen = .settled none ∧ x.received = [[7]])
    [.yields [1], .next, .event (.message 1 (some { streamId := 1, kind := .kindMsg, payload := [7] })),
      .resume, .loop, .next, .event (.message 1 (some { streamId := 1, kind := .kindEnd })), .resume,
      .loop, .finish]
    (by decide)
  exact ⟨x, of_decide_eq_true hp, iteration_settles _ plain 0 0 0 true none .refl (by decide) _ _ _ hx⟩

/-- **A source that fails with `undefined`.**  The stream is cancelled, and the iteration
completes as if the server had ended it. -/
theorem undefined_completes :
    ∃ x : StreamCall Payload Empty,
      Reach (StreamCall.step (fun f : Frame => f.payload.length) plain) Always callOf x ∧
        x.sourceFailed = some .undefined ∧ x.gen = .settled none ∧ ¬ Outcome plain x none := by
  obtain ⟨x, hx, hp⟩ := exists_reach_of_exec
    (StreamCall.step (fun f : Frame => f.payload.length) plain) Always callOf
    (fun x => x.sourceFailed = some .undefined ∧ x.gen = .settled none)
    [.next, .fails .undefined, .resume, .loop, .finish]
    (by decide)
  obtain ⟨hfailed, hgen⟩ := of_decide_eq_true hp
  refine ⟨x, hx, hfailed, hgen, fun hout => ?_⟩
  obtain ⟨-, -, -, -, hsource, -⟩ := hout.ended
  cases hsource .undefined hfailed

end WsProto.Ts.StreamTerminal
