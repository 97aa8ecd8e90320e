import WsProto.Ts.Queue

/-!
# The first terminal event wins

One TypeScript stream under any sequence of calls: the mux pushes messages and headers
and ends it, the application receives, cancels and registers callbacks, and the
continuations of `recv` run between two calls.

What the calls amount to is a `Spec`: the mailbox of the payloads pushed before the
first terminal event, that event, and the `recv` calls; the first of HEADER, payload
and terminal event; the number of callbacks; all the payloads pushed.  Every call keeps
the stream in step with it (`matches_step`), and `spec_run` reads it off the list of
calls.

* `terminal_once` — what a stream shows after any sequence of calls.
-/

namespace WsProto.Ts.Terminal

/-! ## The calls -/

/-- The calls of a stream's methods. -/
inductive Call where
  | pushMsg (payload : Payload)
  | setLeadingHeaders (headers : Headers)
  | endOk (headers : Headers)
  | endError (err : WsStatusError) (headers : Headers)
  | cancel
  | abort (err : WsStatusError)
  | onClose
  | recv
  deriving DecidableEq

/-- A stream with its callbacks, and what its hooks and its callers have seen.  The
callbacks are numbered as they are registered. -/
structure Handle where
  impl : StreamImpl
  closeCbs : List ℕ := []
  callbacks : ℕ := 0
  /-- The callbacks that have run. -/
  ran : List ℕ := []
  /-- The calls of the `reset` hook, each of which writes an RST. -/
  resets : ℕ := 0
  /-- What `responseHeaders` was resolved with. -/
  headersResolved : List Headers := []
  /-- What `responseLeadingHeaders` was resolved with. -/
  leadingResolved : List Headers := []
  deriving DecidableEq

namespace Handle

/-- The new state of the stream; a latch that is set on the way resolves its
promise. -/
def put (x : Handle) (s : StreamImpl) : Handle :=
  { x with
    impl := s
    headersResolved := x.headersResolved ++
      if s.headersSettled && !x.impl.headersSettled then [s.headers] else []
    leadingResolved := x.leadingResolved ++
      if x.impl.leading.isNone then s.leading.toList else [] }

/-- `runClose`. -/
def runClose (x : Handle) : Handle := { x with ran := x.ran ++ x.closeCbs, closeCbs := [] }

/-- `cancel` (no error) and `abort`. -/
def stop (x : Handle) (err : Option WsStatusError) : Handle :=
  if x.impl.finished then x
  else ({ x with resets := x.resets + 1 }.put (x.impl.stop.settle err)).runClose

def call (x : Handle) : Call → Handle
  | .pushMsg p => x.put (x.impl.pushMsg p)
  | .setLeadingHeaders h => x.put (x.impl.resolveLeading h)
  | .endOk h => if x.impl.finished then x else (x.put (x.impl.endOk h)).runClose
  | .endError e h => if x.impl.finished then x else (x.put (x.impl.endError e h)).runClose
  | .cancel => x.stop none
  | .abort e => x.stop (some e)
  | .onClose =>
      if x.impl.finished then
        { x with ran := x.ran ++ [x.callbacks], callbacks := x.callbacks + 1 }
      else { x with closeCbs := x.closeCbs ++ [x.callbacks], callbacks := x.callbacks + 1 }
  | .recv => x.put x.impl.recv

/-- A call, and the continuations it makes due. -/
def step (x : Handle) (c : Call) : Handle :=
  { x.call c with impl := (x.call c).impl.resumeAll }

/-- A new stream. -/
def start (id : UInt32) (initialWindow maxSendBuffer : ℤ) : Handle :=
  { impl := newStreamImpl id initialWindow maxSendBuffer }

end Handle

/-! ## What the calls amount to -/

/-- A terminal event: the error a `recv` rejects with, if it does, the trailers, and
whether it writes an RST. -/
structure Event where
  error : Option WsStatusError
  headers : Headers := ∅
  resets : Bool := false

def Call.terminal : Call → Option Event
  | .endOk h => some { error := none, headers := h }
  | .endError e h => some { error := some e, headers := h }
  | .cancel => some { error := none, resets := true }
  | .abort e => some { error := some e, resets := true }
  | _ => none

def Call.payload : Call → Option Payload
  | .pushMsg p => some p
  | _ => none

def Call.isRecv : Call → Bool
  | .recv => true
  | _ => false

def Call.isOnClose : Call → Bool
  | .onClose => true
  | _ => false

/-- What a call resolves the leading headers with, if they are not resolved. -/
def Call.leads : Call → Option Headers
  | .setLeadingHeaders h => some h
  | .onClose | .recv => none
  | _ => some ∅

/-- The sum of some calls. -/
structure Spec where
  box : Mailbox Payload Event := {}
  lead : Option Headers := none
  callbacks : ℕ := 0
  pushed : List Payload := []

/-- A call on the mailbox. -/
def Call.onBox (h : Mailbox Payload Event) : Call → Mailbox Payload Event
  | .pushMsg p => h.push p
  | .recv => h.pull
  | .setLeadingHeaders _ | .onClose => h
  | .endOk hs => h.finish { error := none, headers := hs }
  | .endError e hs => h.finish { error := some e, headers := hs }
  | .cancel => h.finish { error := none, resets := true }
  | .abort e => h.finish { error := some e, resets := true }

def Spec.step (σ : Spec) (c : Call) : Spec :=
  { box := c.onBox σ.box
    lead := σ.lead.or c.leads
    callbacks := σ.callbacks + c.isOnClose.toNat
    pushed := σ.pushed ++ c.payload.toList }

/-- The stream is in step with the calls so far. -/
structure Matches (x : Handle) (σ : Spec) : Prop where
  inbound : x.impl.inbound = queueOf Event.error σ.box
  finished : x.impl.finished = σ.box.outcome.isSome
  resumed : x.impl.resumed ≤ x.impl.inbound.settled.length
  buffer : x.impl.bufferedBytes +
    ((x.impl.inbound.settled.take x.impl.resumed).map PullResult.size).sum = bytes σ.pushed
  settledOnce : x.impl.headersSettled = σ.box.outcome.isSome
  headers : x.impl.headers = (σ.box.outcome.map Event.headers).getD ∅
  headersResolved : x.headersResolved = (σ.box.outcome.map Event.headers).toList
  leading : x.impl.leading = σ.lead
  leadingResolved : x.leadingResolved = σ.lead.toList
  lead : σ.box.outcome.isSome → σ.lead.isSome
  callbacks : x.callbacks = σ.callbacks
  ran : x.ran = if σ.box.outcome.isSome then List.range σ.callbacks else []
  closeCbs : x.closeCbs = if σ.box.outcome.isSome then [] else List.range σ.callbacks
  resets : x.resets = (σ.box.outcome.map fun t => t.resets.toNat).getD 0

variable {x : Handle} {σ : Spec}

/-- The continuations run. -/
theorem Matches.resumeAll (hx : Matches x σ) :
    Matches { x with impl := x.impl.resumeAll } σ ∧
      x.impl.resumeAll.resumed = x.impl.resumeAll.inbound.settled.length := by
  obtain ⟨c, hc⟩ := StreamImpl.resumeAll_spec hx.resumed
  rw [hc]
  refine ⟨{ hx with resumed := le_rfl, buffer := ?_ }, rfl⟩
  show _ + ((x.impl.inbound.settled.take x.impl.inbound.settled.length).map PullResult.size).sum = _
  rw [← hx.buffer, List.take_length]
  exact StreamImpl.sub_drop_add

/-- **A call that is not terminal**: it may push, pull, or resolve the leading
headers. -/
theorem Matches.put (hx : Matches x σ) {s : StreamImpl} {box : Mailbox Payload Event}
    {l : Option Headers} {q : List Payload} (hin : s.inbound = queueOf Event.error box)
    (hout : box.outcome = σ.box.outcome) (hpre : σ.box.results <+: box.results)
    (hfin : s.finished = x.impl.finished) (hset : s.headersSettled = x.impl.headersSettled)
    (hhead : s.headers = x.impl.headers) (hres : s.resumed = x.impl.resumed)
    (hlead : s.leading = x.impl.leading.or l)
    (hbytes : s.bufferedBytes = x.impl.bufferedBytes + bytes q) :
    Matches (x.put s) { σ with box, lead := σ.lead.or l, pushed := σ.pushed ++ q } := by
  obtain ⟨hle, htake⟩ := StreamImpl.settled_grow hx.inbound hx.resumed hpre
  refine
    { inbound := hin
      finished := ?_
      resumed := ?_
      buffer := ?_
      settledOnce := ?_
      headers := ?_
      headersResolved := ?_
      leading := ?_
      leadingResolved := ?_
      lead := ?_
      callbacks := hx.callbacks
      ran := ?_
      closeCbs := ?_
      resets := ?_ }
  · exact hfin.trans (by rw [hx.finished, hout])
  · show s.resumed ≤ s.inbound.settled.length
    rw [hres, hin]
    exact hle
  · show s.bufferedBytes + ((s.inbound.settled.take s.resumed).map PullResult.size).sum = _
    rw [hres, hin, htake, hbytes, bytes_append, ← hx.buffer]
    ring
  · exact hset.trans (by rw [hx.settledOnce, hout])
  · exact hhead.trans (by rw [hx.headers, hout])
  · have hno : (s.headersSettled && !x.impl.headersSettled) = false := by
      rw [hset]
      cases x.impl.headersSettled <;> rfl
    show x.headersResolved ++ _ = _
    rw [hno, if_neg (by decide), List.append_nil, hx.headersResolved, hout]
  · exact hlead.trans (by rw [hx.leading])
  · show x.leadingResolved ++ _ = _
    rw [hx.leadingResolved, hx.leading, hlead, hx.leading]
    cases σ.lead <;> simp
  · intro ho
    rw [hout] at ho
    obtain ⟨h, hh⟩ := Option.isSome_iff_exists.1 (hx.lead ho)
    simp [hh]
  · rw [hout]
    exact hx.ran
  · rw [hout]
    exact hx.closeCbs
  · rw [hout]
    exact hx.resets

/-- **The first terminal call.** -/
theorem Matches.finish (hx : Matches x σ) {s : StreamImpl} {t : Event} {r : ℕ}
    (ho : σ.box.outcome = none) (hin : s.inbound = queueOf Event.error (σ.box.finish t))
    (hfin : s.finished = true) (hset : s.headersSettled = true) (hhead : s.headers = t.headers)
    (hres : s.resumed = x.impl.resumed) (hlead : s.leading = x.impl.leading.or (some ∅))
    (hbytes : s.bufferedBytes = x.impl.bufferedBytes) (hr : r = x.resets + t.resets.toNat) :
    Matches ({ x with resets := r }.put s).runClose
      { σ with box := σ.box.finish t, lead := σ.lead.or (some ∅) } := by
  obtain ⟨hle, htake⟩ := StreamImpl.settled_grow hx.inbound hx.resumed
    (Mailbox.results_prefix_finish t)
  have hout : (σ.box.finish t).outcome = some t := (Mailbox.finish_of_none t ho).1
  have hopen : x.impl.headersSettled = false := by rw [hx.settledOnce, ho]; rfl
  refine
    { inbound := hin
      finished := ?_
      resumed := ?_
      buffer := ?_
      settledOnce := ?_
      headers := ?_
      headersResolved := ?_
      leading := ?_
      leadingResolved := ?_
      lead := ?_
      callbacks := hx.callbacks
      ran := ?_
      closeCbs := ?_
      resets := ?_ }
  · exact hfin.trans (by rw [hout]; rfl)
  · show s.resumed ≤ s.inbound.settled.length
    rw [hres, hin]
    exact hle
  · show s.bufferedBytes + ((s.inbound.settled.take s.resumed).map PullResult.size).sum = _
    rw [hres, hin, htake, hbytes]
    exact hx.buffer
  · exact hset.trans (by rw [hout]; rfl)
  · exact hhead.trans (by rw [hout]; rfl)
  · show x.headersResolved ++ (if s.headersSettled && !x.impl.headersSettled then [s.headers] else [])
      = _
    rw [hset, hopen, hhead, hx.headersResolved, ho, hout]
    rfl
  · exact hlead.trans (by rw [hx.leading])
  · show x.leadingResolved ++ _ = _
    rw [hx.leadingResolved]
    show σ.lead.toList ++ (if x.impl.leading.isNone then s.leading.toList else []) = _
    rw [hlead, hx.leading]
    cases σ.lead <;> simp
  · intro _
    cases σ.lead <;> rfl
  · show x.ran ++ x.closeCbs = _
    rw [hx.ran, hx.closeCbs, ho, hout]
    rfl
  · rw [hout]
    rfl
  · show r = _
    rw [hr, hx.resets, ho, hout]
    simp

/-- A later terminal call changes nothing. -/
theorem Matches.finish_again (hx : Matches x σ) (t : Event) (ho : σ.box.outcome.isSome) :
    Matches x { σ with box := σ.box.finish t, lead := σ.lead.or (some ∅) } := by
  obtain ⟨l, hl⟩ := Option.isSome_iff_exists.1 (hx.lead ho)
  have hlead : σ.lead.or (some ∅) = σ.lead := by rw [hl]; rfl
  rw [Mailbox.finish_of_some t ho, hlead]
  exact hx

/-- `cancel` and `abort`. -/
theorem matches_stop (hx : Matches x σ) (err : Option WsStatusError) :
    Matches (x.stop err)
      { σ with box := σ.box.finish { error := err, resets := true }, lead := σ.lead.or (some ∅) } := by
  rw [Handle.stop]
  split
  · rename_i hfin
    exact hx.finish_again _ (by rw [← hx.finished, hfin])
  · rename_i hfin
    have ho : σ.box.outcome = none := by
      rw [hx.finished] at hfin
      simpa using hfin
    have hopen : x.impl.stop.headersSettled = false := by
      show x.impl.headersSettled = false
      rw [hx.settledOnce, ho]
      rfl
    have hhead : x.impl.headers = ∅ := by rw [hx.headers, ho]; rfl
    have hin : x.impl.inbound = queueOf Event.error σ.box := hx.inbound
    cases err with
    | none =>
        simp only [StreamImpl.settle, StreamImpl.resolveHeaders_open hopen]
        refine hx.finish ho ?_ rfl rfl hhead rfl rfl rfl rfl
        show x.impl.inbound.endQueue = _
        rw [hin]
        exact endQueue_queueOf ho rfl
    | some e =>
        simp only [StreamImpl.settle, StreamImpl.resolveHeaders_open hopen]
        refine hx.finish ho ?_ rfl rfl hhead rfl rfl rfl rfl
        show x.impl.inbound.fail e = _
        rw [hin]
        exact fail_queueOf ho rfl

/-- `endOk` and `endError`. -/
theorem matches_end (hx : Matches x σ) (err : Option WsStatusError) (h : Headers) :
    Matches (if x.impl.finished then x
        else (x.put (match err with
          | none => x.impl.endOk h
          | some e => x.impl.endError e h)).runClose)
      { σ with box := σ.box.finish { error := err, headers := h }, lead := σ.lead.or (some ∅) } := by
  split
  · rename_i hfin
    exact hx.finish_again _ (by rw [← hx.finished, hfin])
  · rename_i hfin
    have ho : σ.box.outcome = none := by
      rw [hx.finished] at hfin
      simpa using hfin
    have hopen : ({ x.impl with finished := true } : StreamImpl).headersSettled = false := by
      show x.impl.headersSettled = false
      rw [hx.settledOnce, ho]
      rfl
    cases err with
    | none =>
        simp only [StreamImpl.endOk, if_neg hfin, StreamImpl.resolveHeaders_open hopen]
        refine hx.finish ho ?_ rfl rfl rfl rfl rfl rfl rfl
        show x.impl.inbound.endQueue = _
        rw [hx.inbound]
        exact endQueue_queueOf ho rfl
    | some e =>
        simp only [StreamImpl.endError, if_neg hfin, StreamImpl.resolveHeaders_open hopen]
        refine hx.finish ho ?_ rfl rfl rfl rfl rfl rfl rfl
        show x.impl.inbound.fail e = _
        rw [hx.inbound]
        exact fail_queueOf ho rfl

/-- `onClose`: on a finished stream the callback runs at once. -/
theorem matches_onClose (hx : Matches x σ) :
    Matches (x.call .onClose) { σ with callbacks := σ.callbacks + 1 } := by
  have hrange := List.range_succ (n := σ.callbacks)
  rw [Handle.call]
  split
  · rename_i hfin
    have ho : σ.box.outcome.isSome = true := by rw [← hx.finished, hfin]
    refine { hx with callbacks := ?_, ran := ?_, closeCbs := ?_ }
    · rw [hx.callbacks]
    · rw [hx.ran, hx.callbacks, if_pos ho, if_pos ho, hrange]
    · rw [hx.closeCbs, if_pos ho, if_pos ho]
  · rename_i hfin
    have ho : ¬ σ.box.outcome.isSome = true := by rwa [← hx.finished]
    refine { hx with callbacks := ?_, ran := ?_, closeCbs := ?_ }
    · rw [hx.callbacks]
    · rw [hx.ran, if_neg ho, if_neg ho]
    · rw [hx.closeCbs, hx.callbacks, if_neg ho, if_neg ho, hrange]

/-- A terminal call on the spec. -/
theorem step_of_leads {c : Call} (hl : c.leads = some ∅) (hp : c.payload = none)
    (hc : c.isOnClose = false) :
    σ.step c = { σ with box := c.onBox σ.box, lead := σ.lead.or (some ∅) } := by
  simp [Spec.step, hl, hp, hc]

/-- **Every call keeps the stream in step.** -/
theorem matches_call (hx : Matches x σ) (c : Call) : Matches (x.call c) (σ.step c) := by
  cases c with
  | pushMsg p =>
      refine hx.put (l := some ∅) (q := [p]) ?_ (Mailbox.push_outcome p)
        (Mailbox.results_prefix_push p) rfl rfl rfl rfl rfl ?_
      · show x.impl.inbound.push p = _
        rw [hx.inbound]
        exact push_queueOf p
      · show x.impl.bufferedBytes + p.length = _
        rw [bytes_cons, bytes_nil, add_zero]
  | setLeadingHeaders h =>
      refine hx.put (l := some h) (q := []) hx.inbound rfl (List.prefix_refl _) rfl rfl rfl rfl rfl ?_
      exact (add_zero _).symm
  | recv =>
      refine hx.put (l := none) (q := []) ?_ rfl Mailbox.results_prefix_pull rfl rfl rfl rfl ?_ ?_
      · show x.impl.inbound.pull = _
        rw [hx.inbound]
        exact pull_queueOf
      · exact (Option.or_none).symm
      · exact (add_zero _).symm
  | cancel =>
      rw [step_of_leads rfl rfl rfl]
      exact matches_stop hx none
  | abort e =>
      rw [step_of_leads rfl rfl rfl]
      exact matches_stop hx (some e)
  | endOk h =>
      rw [step_of_leads rfl rfl rfl]
      exact matches_end hx none h
  | endError e h =>
      rw [step_of_leads rfl rfl rfl]
      exact matches_end hx (some e) h
  | onClose =>
      have hstep : σ.step .onClose = { σ with callbacks := σ.callbacks + 1 } := by
        simp [Spec.step, Call.onBox, Call.leads, Call.payload, Call.isOnClose]
      rw [hstep]
      exact matches_onClose hx

/-- A call and its continuations. -/
theorem matches_step (hx : Matches x σ) (c : Call) :
    Matches (x.step c) (σ.step c) ∧
      (x.step c).impl.resumed = (x.step c).impl.inbound.settled.length :=
  (matches_call hx c).resumeAll

theorem matches_start (id : UInt32) (initialWindow maxSendBuffer : ℤ) :
    Matches (Handle.start id initialWindow maxSendBuffer) {} := by
  refine ⟨rfl, rfl, le_rfl, rfl, rfl, rfl, rfl, rfl, rfl, ?_, rfl, rfl, rfl, rfl⟩
  intro h
  cases h

/-! ## Whole sequences -/

/-- **Every sequence of calls keeps the stream in step**, with no continuation due. -/
theorem matches_run (id : UInt32) (initialWindow maxSendBuffer : ℤ) (calls : List Call) :
    Matches (calls.foldl Handle.step (Handle.start id initialWindow maxSendBuffer))
        (calls.foldl Spec.step {}) ∧
      (calls.foldl Handle.step (Handle.start id initialWindow maxSendBuffer)).impl.resumed =
        (calls.foldl Handle.step
          (Handle.start id initialWindow maxSendBuffer)).impl.inbound.settled.length := by
  induction calls using List.reverseRecOn with
  | nil => exact ⟨matches_start id initialWindow maxSendBuffer, rfl⟩
  | append_singleton calls c ih =>
      simp only [List.foldl_append, List.foldl_cons, List.foldl_nil]
      exact matches_step ih.1 c

/-- The payloads pushed before the first terminal call. -/
def pushedBefore (calls : List Call) : List Payload :=
  (calls.takeWhile fun c => c.terminal.isNone).filterMap Call.payload

/-- The first terminal call. -/
def firstTerminal (calls : List Call) : Option Event := calls.findSome? Call.terminal

/-- A payload counts until the first terminal call. -/
theorem pushedBefore_append (calls : List Call) (c : Call) :
    pushedBefore (calls ++ [c]) =
      if (firstTerminal calls).isSome then pushedBefore calls
      else pushedBefore calls ++ c.payload.toList := by
  induction calls with
  | nil => cases c <;> rfl
  | cons d calls ih =>
      cases hd : d.terminal with
      | some t =>
          have hfirst : (firstTerminal (d :: calls)).isSome := by
            rw [firstTerminal, List.findSome?_cons, hd]
            rfl
          have hnil : ∀ l, pushedBefore (d :: l) = [] := by
            intro l
            rw [pushedBefore, List.takeWhile_cons, hd]
            rfl
          rw [if_pos hfirst, List.cons_append, hnil, hnil]
      | none =>
          have hfirst : firstTerminal (d :: calls) = firstTerminal calls := by
            rw [firstTerminal, List.findSome?_cons, hd]
            rfl
          have hcons : ∀ l, pushedBefore (d :: l) = d.payload.toList ++ pushedBefore l := by
            intro l
            rw [pushedBefore, List.takeWhile_cons, hd, Option.isNone_none, if_pos rfl, pushedBefore]
            cases hp : d.payload <;> simp [hp]
          rw [hfirst, List.cons_append, hcons, hcons, ih]
          split_ifs
          · rfl
          · rw [List.append_assoc]

/-- The mailbox of a sequence of calls, one call further. -/
theorem onBox_run (calls : List Call) (c : Call) :
    c.onBox ⟨pushedBefore calls, firstTerminal calls, calls.countP Call.isRecv⟩ =
      ⟨pushedBefore (calls ++ [c]), firstTerminal (calls ++ [c]),
        (calls ++ [c]).countP Call.isRecv⟩ := by
  have hfirst : firstTerminal (calls ++ [c]) = (firstTerminal calls).or c.terminal := by
    simp [firstTerminal, List.findSome?_append]
  have hcount : (calls ++ [c]).countP Call.isRecv =
      calls.countP Call.isRecv + c.isRecv.toNat := by
    rw [List.countP_append, List.countP_singleton]
    cases c.isRecv <;> rfl
  rw [pushedBefore_append, hfirst, hcount]
  cases ho : firstTerminal calls with
  | some t =>
      cases c <;> rfl
  | none =>
      cases c <;>
        simp [Call.onBox, Mailbox.push, Mailbox.pull, Mailbox.finish, Call.payload, Call.terminal,
          Call.isRecv]

/-- The spec of a sequence of calls, read off the list. -/
theorem spec_run (calls : List Call) :
    calls.foldl Spec.step {} =
      { box := ⟨pushedBefore calls, firstTerminal calls, calls.countP Call.isRecv⟩
        lead := calls.findSome? Call.leads
        callbacks := calls.countP Call.isOnClose
        pushed := calls.filterMap Call.payload } := by
  induction calls using List.reverseRecOn with
  | nil => rfl
  | append_singleton calls c ih =>
      have hclose : (calls ++ [c]).countP Call.isOnClose =
          calls.countP Call.isOnClose + c.isOnClose.toNat := by
        rw [List.countP_append, List.countP_singleton]
        cases c.isOnClose <;> rfl
      have hlead : (calls ++ [c]).findSome? Call.leads =
          (calls.findSome? Call.leads).or c.leads := by
        simp [List.findSome?_append]
      have hpushed : (calls ++ [c]).filterMap Call.payload =
          calls.filterMap Call.payload ++ c.payload.toList := by
        rw [List.filterMap_append]
        cases hp : c.payload <;> simp [hp]
      rw [List.foldl_append, List.foldl_cons, List.foldl_nil, ih, Spec.step, onBox_run, hclose,
        hlead, hpushed]

/-- **The first terminal event wins, data first, nothing lost or duplicated.**  After
any sequence of calls:

* the `recv` calls have settled with the payloads pushed before the first terminal
  call, in order, and beyond them with that call's outcome; the others wait;
* the two header promises are resolved once each, or not yet;
* the stream is finished exactly if a terminal call was made, and then every callback
  has run, once; otherwise none has;
* an RST was written only if that call was `cancel` or `abort`, and only one;
* `bufferedBytes` counts the payloads pushed and not yet received. -/
theorem terminal_once (id : UInt32) (initialWindow maxSendBuffer : ℤ) (calls : List Call) :
    let x := calls.foldl Handle.step (Handle.start id initialWindow maxSendBuffer)
    let pushed := pushedBefore calls
    let recvs := calls.countP Call.isRecv
    x.impl.inbound.settled = (pushed.take recvs).map .value ++
        ((firstTerminal calls).map fun t =>
          List.replicate (recvs - pushed.length) (t.error.elim .done .rejected)).getD [] ∧
      x.impl.resumed = x.impl.inbound.settled.length ∧
      x.impl.inbound.waiters =
        (if (firstTerminal calls).isSome then 0 else recvs - pushed.length) ∧
      x.headersResolved = ((firstTerminal calls).map Event.headers).toList ∧
      x.leadingResolved = (calls.findSome? Call.leads).toList ∧
      x.impl.finished = (firstTerminal calls).isSome ∧
      x.ran = (if (firstTerminal calls).isSome then List.range (calls.countP Call.isOnClose)
        else []) ∧
      x.resets = ((firstTerminal calls).map fun t => t.resets.toNat).getD 0 ∧
      x.impl.bufferedBytes + (x.impl.inbound.settled.map PullResult.size).sum =
        bytes (calls.filterMap Call.payload) := by
  intro x pushed recvs
  obtain ⟨hx, hrest⟩ := matches_run id initialWindow maxSendBuffer calls
  rw [spec_run] at hx
  refine ⟨?_, hrest, ?_, hx.headersResolved, hx.leadingResolved, hx.finished, hx.ran, hx.resets, ?_⟩
  · show x.impl.inbound.settled = _
    rw [hx.inbound]
    show (Mailbox.results _).map (toPull Event.error) = _
    rw [Mailbox.results, List.map_append, List.map_map]
    refine congrArg₂ (· ++ ·) rfl ?_
    cases firstTerminal calls with
    | none => rfl
    | some t => exact List.map_replicate
  · show x.impl.inbound.waiters = _
    rw [hx.inbound]
    rfl
  · have hb := hx.buffer
    rw [hrest, List.take_length] at hb
    exact hb

end WsProto.Ts.Terminal
