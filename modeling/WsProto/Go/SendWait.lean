import WsProto.Lib.Run
import WsProto.Lib.CondVar
import WsProto.Go.Stream

/-!
# Blocked sends and who wakes them

`SendRaw` waits on `sendCond` while the window is closed.  Any number of
goroutines `ι` work on one stream; each is between two calls, inside a send, or
inside one of the operations that should wake the sends that wait: `creditSend`,
`signalEnd`, `applyEnd`, `failWith`.  A step is a critical section, the close of
`ended`, a broadcast, or one of the reads a send makes while it holds the mutex.

* `exec_sendRaw`, `finishes_start` — the pieces of a call, taken without a break,
  are the call of the stream model;
* `not_parked_of_heard` — in every run in which the broadcast of `signalEnd` does
  not fall between a send's look at `ended` and its wait, and the context does not
  end from outside under a waiting send, no send is left waiting with a reason to
  go on;
* `parked_unheard` — both are needed: `signalEnd` closes `ended` and broadcasts
  without the mutex, and the end of the context has no broadcast at all.
-/

namespace WsProto.Go.SendWait

open Machine CondVar

/-- Where a goroutine stands. -/
inductive Pc where
  | idle
  /-- In `SendRaw`: about to lock the mutex, at first or after a wake-up. -/
  | want (b : Payload)
  /-- In `sendBlockErrLocked`, with the mutex: about to look at `ended`. -/
  | chkEnded (b : Payload)
  /-- About to look at the context. -/
  | chkCtx (b : Payload)
  /-- About to call `Wait`, which joins the waiters and unlocks. -/
  | atWait (b : Payload)
  | parked (b : Payload)
  /-- In `creditSend`: the broadcast is next. -/
  | creditWake
  /-- In `signalEnd`, inside `endOne`: close `ended`; broadcast. -/
  | endClose
  | endWake
  /-- In `applyEnd`: broadcast; cancel. -/
  | applyWake
  | applyCancel
  /-- In `failWith`: broadcast; close `ended` through `endOne`; cancel. -/
  | failWake
  | failClose
  | failCancel
  deriving DecidableEq

/-- `endOne`. -/
inductive Once where
  | free
  | running
  | done
  deriving DecidableEq

variable {ι : Type}

/-- The goroutines of one stream. -/
structure Senders (ι : Type) where
  stream : Stream
  endOne : Once := .free
  /-- The send that holds the mutex across several steps.  Every other critical
  section is a single step. -/
  holder : Option ι := none
  pc : ι → Pc

/-- What a goroutine can begin, and its next step. -/
inductive Act where
  | sendRaw (b : Payload)
  | creditSend (delta : ℤ)
  | signalEnd (f : Frame)
  | applyEnd (f : Frame)
  | failWith (st : Status)
  | next

inductive Label (ι : Type) where
  | run (i : ι) (a : Act)
  /-- The stream context ends from outside: a cancelled parent, a deadline. -/
  | expire (e : CtxErr)

/-- `Broadcast`: every waiter goes for the mutex. -/
def woken : Pc → Pc
  | .parked b => .want b
  | p => p

namespace Senders

section
variable [DecidableEq ι]

/-- Goroutine `i` moves on. -/
def goto (x : Senders ι) (i : ι) (p : Pc) : Senders ι :=
  { x with pc := Function.update x.pc i p }

/-- `sendCond.Broadcast`. -/
def broadcast (x : Senders ι) : Senders ι := { x with pc := fun j => woken (x.pc j) }

/-- A call begins, up to its first point of interference. -/
def start (x : Senders ι) (i : ι) : Act → Option (Senders ι)
  | .sendRaw b => some (x.goto i (.want b))
  | .creditSend delta =>
      if delta ≤ 0 then some x
      else if x.holder = none then
        some ({ x with stream := x.stream.creditSend delta }.goto i .creditWake)
      else none
  | .signalEnd f =>
      match x.endOne with
      | .done => some x
      | .running => none
      | .free =>
          if x.holder = none then
            some ({ x with
              stream := { x.stream with endFrame := some f }, endOne := .running }.goto i .endClose)
          else none
  | .applyEnd f =>
      if x.holder = none then
        some ({ x with stream := x.stream.recordEnd f }.goto i .applyWake)
      else none
  | .failWith st =>
      if x.holder = none then
        some ({ x with stream := x.stream.setEndSt (fromError (some (.status st))) }.goto i .failWake)
      else none
  | .next => none

/-- The next step of goroutine `i`. -/
def next (x : Senders ι) (i : ι) : Option (Senders ι) :=
  match x.pc i with
  | .idle | .parked _ => none
  | .want b =>
      if x.holder = none then
        if 0 < x.stream.sendWindow then
          some ({ x with stream := x.stream.chargeSend b.length }.goto i .idle)
        else if x.stream.endStErr.isSome then some (x.goto i .idle)
        else some ({ x with holder := some i }.goto i (.chkEnded b))
      else none
  | .chkEnded b =>
      if x.stream.endedErr.isSome then some ({ x with holder := none }.goto i .idle)
      else some (x.goto i (.chkCtx b))
  | .chkCtx b =>
      if x.stream.ctxErr.isSome then some ({ x with holder := none }.goto i .idle)
      else some (x.goto i (.atWait b))
  | .atWait b => some ({ x with holder := none }.goto i (.parked b))
  | .creditWake => some (x.broadcast.goto i .idle)
  | .endClose => some ({ x with stream := x.stream.closeEnded }.goto i .endWake)
  | .endWake => some ({ x.broadcast with endOne := .done }.goto i .idle)
  | .applyWake => some (x.broadcast.goto i .applyCancel)
  | .applyCancel => some ({ x with stream := x.stream.cancel }.goto i .idle)
  | .failWake => some (x.broadcast.goto i .failClose)
  | .failClose =>
      match x.endOne with
      | .running => none
      | .free => some ({ x with stream := x.stream.closeEnded, endOne := .done }.goto i .failCancel)
      | .done => some (x.goto i .failCancel)
  | .failCancel => some ({ x with stream := x.stream.cancel }.goto i .idle)

def step (x : Senders ι) : Label ι → Option (Senders ι)
  | .run i .next => x.next i
  | .run i a => if x.pc i = .idle then x.start i a else none
  | .expire e => some { x with stream := x.stream.expire e }

end

/-- Nobody has called anything yet. -/
def init (ctxErr : Option CtxErr) (id : UInt32) (method : Text) (W : ℤ) : Senders ι :=
  { stream := newStream ctxErr id method W, pc := fun _ => .idle }

end Senders

/-! ## The pieces together -/

/-- The effect of a whole call on the stream; a send has its own lemma. -/
def Act.whole (s : Stream) : Act → Stream
  | .creditSend delta => s.creditSend delta
  | .signalEnd f => s.signalEnd f
  | .applyEnd f => (s.applyEnd f).1
  | .failWith st => s.failWith (some (.status st))
  | .sendRaw _ | .next => s

namespace Senders

variable [DecidableEq ι]

/-- **The looks make up a turn of `SendRaw`.**  If nobody else takes a step between
them, they have the effect of `Stream.sendRaw`. -/
theorem exec_sendRaw {x : Senders ι} {i : ι} {b : Payload} (hp : x.pc i = .want b)
    (hh : x.holder = none) :
    ∃ n, exec step Always x (List.replicate n (.run i .next)) =
      some (match x.stream.sendRaw b with
        | .charged s _ => { x with stream := s }.goto i .idle
        | .failed _ => x.goto i .idle
        | .wait => x.goto i (.parked b)) := by
  by_cases hw : 0 < x.stream.sendWindow
  · exact ⟨1, by simp [exec, step, next, hp, hh, hw, Stream.sendRaw, Always]⟩
  · rw [Stream.sendRaw, if_neg hw, Stream.sendBlockErrLocked]
    -- one more step for each reason to give up that is not there
    cases hst : x.stream.endStErr with
    | some e => exact ⟨1, by simp [exec, step, next, hp, hh, hw, hst, Always]⟩
    | none =>
        cases he : x.stream.endedErr with
        | some e =>
            exact ⟨2, by simp [List.replicate, exec, step, next, goto, hp, hh, hw, hst, he,
              Always]⟩
        | none =>
            cases hc : x.stream.ctxErr with
            | some e =>
                exact ⟨3, by simp [List.replicate, exec, step, next, goto, hp, hh, hw, hst, he,
                  hc, Always]⟩
            | none =>
                exact ⟨4, by simp [List.replicate, exec, step, next, goto, hp, hh, hw, hst, he,
                  hc, Always]⟩

/-- Left alone, goroutine `i` finishes its call, and the stream is then `s`. -/
def Finishes (x : Senders ι) (i : ι) (s : Stream) : Prop :=
  ∃ n y, exec step Always x (List.replicate n (.run i .next)) = some y ∧
    y.stream = s ∧ y.pc i = .idle

theorem finishes_of_idle {x : Senders ι} {i : ι} (hp : x.pc i = .idle) :
    x.Finishes i x.stream :=
  ⟨0, x, rfl, rfl, hp⟩

theorem finishes_goto_idle (x : Senders ι) (i : ι) : (x.goto i .idle).Finishes i x.stream :=
  finishes_of_idle (Function.update_self ..)

theorem Finishes.of_next {x y : Senders ι} {i : ι} {s : Stream} (hn : x.next i = some y)
    (h : y.Finishes i s) : x.Finishes i s := by
  obtain ⟨n, z, hz, hs⟩ := h
  have hstep : step x (.run i .next) = some y := hn
  refine ⟨n + 1, z, ?_, hs⟩
  rw [List.replicate_succ, exec_always_cons, hstep]
  exact hz

theorem finishes_creditWake {x : Senders ι} {i : ι} (hp : x.pc i = .creditWake) :
    x.Finishes i x.stream :=
  .of_next (y := x.broadcast.goto i .idle) (by simp [next, hp]) (finishes_goto_idle _ i)

theorem finishes_endWake {x : Senders ι} {i : ι} (hp : x.pc i = .endWake) :
    x.Finishes i x.stream :=
  .of_next (y := { x.broadcast with endOne := .done }.goto i .idle) (by simp [next, hp])
    (finishes_goto_idle _ i)

theorem finishes_endClose {x : Senders ι} {i : ι} (hp : x.pc i = .endClose) :
    x.Finishes i x.stream.closeEnded :=
  .of_next (y := { x with stream := x.stream.closeEnded }.goto i .endWake) (by simp [next, hp])
    (finishes_endWake (Function.update_self ..))

theorem finishes_cancel {x : Senders ι} {i : ι}
    (hp : x.pc i = .applyCancel ∨ x.pc i = .failCancel) : x.Finishes i x.stream.cancel := by
  refine .of_next (y := { x with stream := x.stream.cancel }.goto i .idle) ?_
    (finishes_goto_idle _ i)
  rcases hp with hp | hp <;> simp [next, hp]

theorem finishes_applyWake {x : Senders ι} {i : ι} (hp : x.pc i = .applyWake) :
    x.Finishes i x.stream.cancel :=
  .of_next (y := x.broadcast.goto i .applyCancel) (by simp [next, hp])
    (finishes_cancel (.inl (Function.update_self ..)))

/-- `endOne` runs its function unless it has run before, and then `ended` is closed. -/
theorem finishes_failClose {x : Senders ι} {i : ι} (hp : x.pc i = .failClose)
    (ho : x.endOne = if x.stream.ended then .done else .free) :
    x.Finishes i x.stream.closeEnded.cancel := by
  by_cases he : x.stream.ended = true
  · have hs : x.stream.closeEnded = x.stream := by simp [Stream.closeEnded, ← he]
    rw [hs]
    exact .of_next (y := x.goto i .failCancel) (by simp [next, hp, ho, he])
      (finishes_cancel (.inr (Function.update_self ..)))
  · exact .of_next
      (y := { x with stream := x.stream.closeEnded, endOne := .done }.goto i .failCancel)
      (by simp [next, hp, ho, he]) (finishes_cancel (.inr (Function.update_self ..)))

theorem finishes_failWake {x : Senders ι} {i : ι} (hp : x.pc i = .failWake)
    (ho : x.endOne = if x.stream.ended then .done else .free) :
    x.Finishes i x.stream.closeEnded.cancel :=
  .of_next (y := x.broadcast.goto i .failClose) (by simp [next, hp])
    (finishes_failClose (Function.update_self ..) ho)

/-- **The other calls.**  They too have, taken without a break, the effect the
stream model gives them. -/
theorem finishes_start {x : Senders ι} {i : ι} (hp : x.pc i = .idle) (hh : x.holder = none)
    (ho : x.endOne = if x.stream.ended then .done else .free) {a : Act} (ha : a ≠ .next)
    (hb : ∀ b, a ≠ .sendRaw b) :
    ∃ y, x.start i a = some y ∧ y.Finishes i (a.whole x.stream) := by
  cases a with
  | sendRaw b => exact absurd rfl (hb b)
  | next => exact absurd rfl ha
  | creditSend delta =>
      by_cases hd : delta ≤ 0
      · have hs : x.stream.creditSend delta = x.stream := if_pos hd
        rw [Act.whole, hs]
        exact ⟨x, if_pos hd, finishes_of_idle hp⟩
      · exact ⟨_, (if_neg hd).trans (if_pos hh), finishes_creditWake (Function.update_self ..)⟩
  | signalEnd f =>
      by_cases he : x.stream.ended = true
      · have hs : x.stream.signalEnd f = x.stream := if_pos he
        rw [Act.whole, hs]
        exact ⟨x, by simp [start, ho, he], finishes_of_idle hp⟩
      · have hs : x.stream.signalEnd f = { x.stream with endFrame := some f }.closeEnded :=
          if_neg he
        rw [Act.whole, hs]
        exact ⟨_, by simp [start, hh, ho, he]; rfl, finishes_endClose (Function.update_self ..)⟩
  | applyEnd f =>
      exact ⟨_, if_pos hh, finishes_applyWake (Function.update_self ..)⟩
  | failWith st =>
      exact ⟨_, if_pos hh, finishes_failWake (Function.update_self ..) ho⟩

end Senders

/-! ## The four reasons to go on -/

/-- Between the look at the window and at the status, and the end of the wait. -/
def waits : Pc → Bool
  | .chkEnded _ | .chkCtx _ | .atWait _ | .parked _ => true
  | _ => false

/-- The send holds the mutex. -/
def checking : Pc → Bool
  | .chkEnded _ | .chkCtx _ | .atWait _ => true
  | _ => false

/-- A status has been recorded by this goroutine. -/
def recorded : Pc → Bool
  | .applyWake | .applyCancel | .failWake | .failClose | .failCancel => true
  | _ => false

/-- Neither on the way to the wait nor with a broadcast to make. -/
def calm : Pc → Bool
  | .idle | .want _ | .endClose | .applyCancel | .failClose | .failCancel => true
  | _ => false

/-- The window is open. -/
def windowSignal : Signal Pc where
  passed := waits
  wakes p := decide (p = .creditWake)

/-- A status is recorded. -/
def endStSignal : Signal Pc where
  passed := waits
  wakes p := decide (p = .applyWake ∨ p = .failWake)

/-- `ended` is closed. -/
def endedSignal : Signal Pc where
  passed
    | .chkCtx _ | .atWait _ | .parked _ => true
    | _ => false
  wakes p := decide (p = .endWake)

/-- The context is done.  Nobody broadcasts for it. -/
def ctxSignal : Signal Pc where
  passed
    | .atWait _ | .parked _ => true
    | _ => false
  wakes _ := false

theorem signals_of_calm {p : Pc} (h : calm p = true) :
    (waits p = false ∧ endedSignal.passed p = false ∧ ctxSignal.passed p = false) ∧
      windowSignal.wakes p = false ∧ endStSignal.wakes p = false ∧ endedSignal.wakes p = false := by
  cases p with
  | idle | want b | endClose | applyCancel | failClose | failCancel =>
      exact ⟨⟨rfl, rfl, rfl⟩, rfl, rfl, rfl⟩
  | chkEnded b | chkCtx b | atWait b | parked b | creditWake | endWake | applyWake | failWake =>
      cases h

theorem signals_of_checking {p : Pc} (h : checking p = true) :
    (waits p = true ∧ recorded p = false) ∧
      windowSignal.wakes p = false ∧ endStSignal.wakes p = false ∧ endedSignal.wakes p = false := by
  cases p with
  | chkEnded b | chkCtx b | atWait b => exact ⟨⟨rfl, rfl⟩, rfl, rfl, rfl⟩
  | idle | want b | parked b | creditWake | endClose | endWake | applyWake | applyCancel
  | failWake | failClose | failCancel => cases h

theorem endedSignal_wakes_woken (p : Pc) : endedSignal.wakes (woken p) = endedSignal.wakes p := by
  cases p <;> rfl

theorem endedSignal_passed_of_woken {p : Pc} (h : endedSignal.passed (woken p) = true) :
    endedSignal.passed p = true := by
  cases p with
  | chkCtx b | atWait b => rfl
  | idle | want b | chkEnded b | parked b | creditWake | endClose | endWake | applyWake
  | applyCancel | failWake | failClose | failCancel => cases h

theorem ctxSignal_passed_of_woken {p : Pc} (h : ctxSignal.passed (woken p) = true) :
    ctxSignal.passed p = true ∧ endedSignal.passed (woken p) = true := by
  cases p with
  | atWait b => exact ⟨rfl, rfl⟩
  | idle | want b | chkEnded b | chkCtx b | parked b | creditWake | endClose | endWake | applyWake
  | applyCancel | failWake | failClose | failCancel => cases h

namespace Senders

/-- What a goroutine's place says of the stream: a send between its looks holds
the mutex and has found the window closed and no status; a goroutine in
`applyEnd` or `failWith` has recorded one. -/
def Place (s : Stream) (holder : Option ι) (i : ι) (p : Pc) : Prop :=
  (checking p = true → holder = some i ∧ s.sendWindow ≤ 0 ∧ s.endSt = none) ∧
    (recorded p = true → s.endSt ≠ none)

/-- The invariant.  A recorded status covers the two later reasons: whoever looks
for it does not get as far as those. -/
structure Inv (x : Senders ι) : Prop where
  place : ∀ i, Place x.stream x.holder i (x.pc i)
  window : Safe windowSignal (0 < x.stream.sendWindow) x.pc
  endSt : Safe endStSignal (x.stream.endSt ≠ none) x.pc
  ended : Safe endedSignal (x.stream.ended = true ∧ x.stream.endSt = none) x.pc
  ctx : Safe ctxSignal (x.stream.ctxErr ≠ none ∧ x.stream.endSt = none) x.pc

/-- The condition on a step: `signalEnd` broadcasts while no send is between its
look at `ended` and its wait, and the context ends from outside while no send has
passed its look at it. -/
def Heard (x : Senders ι) : Label ι → Prop
  | .run i .next => x.pc i = .endWake → ∀ j, endedSignal.passed (woken (x.pc j)) = false
  | .expire _ => x.stream.ctxErr = none → ∀ j, ctxSignal.passed (x.pc j) = false
  | .run _ _ => True

instance [DecidableEq ι] [Fintype ι] (x : Senders ι) : (l : Label ι) → Decidable (Heard x l)
  | .run _ .next => inferInstanceAs (Decidable (_ → ∀ _, _))
  | .expire _ => inferInstanceAs (Decidable (_ → ∀ _, _))
  | .run _ (.sendRaw _) | .run _ (.creditSend _) | .run _ (.signalEnd _) | .run _ (.applyEnd _)
  | .run _ (.failWith _) => inferInstanceAs (Decidable True)

variable {x x' : Senders ι} {i : ι}

theorem inv_init (ctxErr : Option CtxErr) (id : UInt32) (method : Text) (W : ℤ) :
    Inv (init ctxErr id method W : Senders ι) := by
  constructor
  · intro i; simp [Place, init, checking, recorded]
  · intro _ i hi; cases hi
  · intro _ i hi; cases hi
  · intro _ i hi; cases hi
  · intro _ i hi; cases hi

/-- While no send holds the mutex, none is between its looks. -/
theorem Inv.free (hi : Inv x) (h : x.holder = none) (j : ι) : checking (x.pc j) = false := by
  by_contra hc
  have := ((hi.place j).1 (by simpa using hc)).1
  simp [h] at this

/-- The send that is between its looks is the only one. -/
theorem Inv.free_of_checking (hi : Inv x) (hc : checking (x.pc i) = true) {j : ι} (hji : j ≠ i) :
    checking (x.pc j) = false := by
  by_contra hj
  have h₁ := ((hi.place i).1 hc).1
  have h₂ := ((hi.place j).1 (by simpa using hj)).1
  exact hji (Option.some.inj (h₂.symm.trans h₁))

theorem waits_woken {p : Pc} (hc : checking p = false) : waits (woken p) = false := by
  cases p <;> simp_all [waits, woken, checking]

/-- A broadcast leaves only sends behind that hold the mutex; those have found the
window closed and no status. -/
theorem Inv.not_waits_woken (hi : Inv x) (j : ι)
    (h : 0 < x.stream.sendWindow ∨ x.stream.endSt ≠ none) : waits (woken (x.pc j)) = false := by
  apply waits_woken
  by_contra hc
  obtain ⟨-, hw, hst⟩ := (hi.place j).1 (by simpa using hc)
  rcases h with h | h
  · omega
  · exact h hst

theorem place_woken {s : Stream} {holder : Option ι} {j : ι} {p : Pc} (h : Place s holder j p) :
    Place s holder j (woken p) := by
  cases p <;> simp_all [Place, woken, checking, recorded]

/-- The context is cancelled by an operation that has recorded a status. -/
theorem Inv.cancel (hi : Inv x) (hst : x.stream.endSt ≠ none) :
    Inv { x with stream := x.stream.cancel } :=
  { hi with ctx := Safe.of_not fun hr => hst hr.2 }

variable [DecidableEq ι]

theorem place_goto {q : Pc} (h : ∀ j, j ≠ i → Place x.stream x.holder j (x.pc j))
    (hq : Place x.stream x.holder i q) :
    ∀ j, Place (x.goto i q).stream (x.goto i q).holder j ((x.goto i q).pc j) := by
  intro j
  by_cases hji : j = i
  · subst hji; simpa [goto] using hq
  · simpa [goto, Function.update_of_ne hji] using h j hji

/-- A goroutine that neither waits nor owes a broadcast moves to another such
place. -/
theorem Inv.goto_calm (hi : Inv x) {q : Pc} (hp : calm (x.pc i) = true) (hq : calm q = true)
    (hplace : Place x.stream x.holder i q) : Inv (x.goto i q) := by
  obtain ⟨-, hp₁, hp₂, hp₃⟩ := signals_of_calm hp
  obtain ⟨hq₀, -, -, -⟩ := signals_of_calm hq
  obtain ⟨hw, hn, hc⟩ := hq₀
  exact {
    place := place_goto (fun j _ => hi.place j) hplace
    window := hi.window.move (by simp [windowSignal, hw]) (by simp [hp₁])
    endSt := hi.endSt.move (by simp [endStSignal, hw]) (by simp [hp₂])
    ended := hi.ended.move (by simp [hn]) (by simp [hp₃])
    ctx := hi.ctx.move (by simp [hc]) (by simp [ctxSignal]) }

/-! ## Calls begin -/

/-- A status is recorded under the mutex, and the broadcast is next. -/
theorem Inv.record (hi : Inv x) (hidle : x.pc i = .idle) (hfree : x.holder = none) {s : Stream}
    (hst : s.endSt ≠ none) (hw : s.sendWindow = x.stream.sendWindow) {q : Pc}
    (hq : q = .applyWake ∨ q = .failWake) : Inv ({ x with stream := s }.goto i q) := by
  have hq' : checking q = false ∧ waits q = false ∧ endStSignal.wakes q = true := by
    rcases hq with rfl | rfl <;> simp [checking, waits, endStSignal]
  obtain ⟨hqc, hqw, hqs⟩ := hq'
  exact {
    place := place_goto (x := { x with stream := s })
      (fun j _ => ⟨by simp [hi.free hfree j], fun _ => hst⟩) ⟨by simp [hqc], fun _ => hst⟩
    window := by
      have hmove := hi.window.move (i := i) (q := q) (by simp [windowSignal, hqw])
        (by simp [windowSignal, hidle])
      exact hmove.mono fun hr => hw ▸ hr
    endSt := Safe.raise hqs
    ended := Safe.of_not fun hr => hst hr.2
    ctx := Safe.of_not fun hr => hst hr.2 }

theorem inv_start (hi : Inv x) (hidle : x.pc i = .idle) {a : Act} (h : x.start i a = some x') :
    Inv x' := by
  cases a with
  | sendRaw b =>
      cases h
      exact hi.goto_calm (by simp [hidle, calm]) rfl (by simp [Place, checking, recorded])
  | creditSend delta =>
      dsimp only [start] at h
      split at h
      · cases h; exact hi
      · rename_i hpos
        obtain ⟨hfree, ⟨⟩⟩ := Option.ite_none_right_eq_some.1 h
        have hs : x.stream.creditSend delta =
            { x.stream with sendWindow := x.stream.sendWindow + delta } := if_neg hpos
        rw [hs]
        exact {
          place := place_goto (fun j _ => ⟨by simp [hi.free hfree j], (hi.place j).2⟩)
            (by simp [Place, checking, recorded])
          window := Safe.raise (by simp [windowSignal])
          endSt := hi.endSt.move (by simp [endStSignal, waits]) (by simp [endStSignal, hidle])
          ended := hi.ended.move (by simp [endedSignal]) (by simp [endedSignal, hidle])
          ctx := hi.ctx.move (by simp [ctxSignal]) (by simp [ctxSignal]) }
  | signalEnd f =>
      dsimp only [start] at h
      split at h
      · cases h; exact hi
      · cases h
      · obtain ⟨hfree, ⟨⟩⟩ := Option.ite_none_right_eq_some.1 h
        have hs : Inv { x with
            stream := { x.stream with endFrame := some f }, endOne := .running } := { hi with }
        exact hs.goto_calm (by simp [hidle, calm]) rfl (by simp [Place, checking, recorded])
  | applyEnd f =>
      obtain ⟨hfree, ⟨⟩⟩ := Option.ite_none_right_eq_some.1 h
      have hst : (x.stream.recordEnd f).endSt ≠ none := by simp [Stream.recordEnd]
      exact hi.record hidle hfree hst rfl (.inl rfl)
  | failWith st =>
      obtain ⟨hfree, ⟨⟩⟩ := Option.ite_none_right_eq_some.1 h
      have hst : (x.stream.setEndSt (fromError (some (.status st)))).endSt ≠ none := by
        simp [Stream.setEndSt, fromError]
      exact hi.record hidle hfree hst rfl (.inr rfl)
  | next => cases h

/-! ## The steps of a send -/

/-- A send that holds the mutex lets go of it and returns. -/
theorem Inv.giveUp (hi : Inv x) (hc : checking (x.pc i) = true) :
    Inv ({ x with holder := none }.goto i .idle) := by
  obtain ⟨-, h₁, h₂, h₃⟩ := signals_of_checking hc
  exact {
    place := place_goto (x := { x with holder := none })
      (fun j hj => ⟨by simp [hi.free_of_checking hc hj], (hi.place j).2⟩)
      (by simp [Place, checking, recorded])
    window := hi.window.move (by simp [windowSignal, waits]) (by simp [h₁])
    endSt := hi.endSt.move (by simp [endStSignal, waits]) (by simp [h₂])
    ended := hi.ended.move (by simp [endedSignal]) (by simp [h₃])
    ctx := hi.ctx.move (by simp [ctxSignal]) (by simp [ctxSignal]) }

/-- A send that holds the mutex goes on to its next look. -/
theorem Inv.look (hi : Inv x) {q : Pc} (hc : checking (x.pc i) = true) (hq : checking q = true)
    (hended : Safe endedSignal (x.stream.ended = true ∧ x.stream.endSt = none) (x.goto i q).pc)
    (hctx : Safe ctxSignal (x.stream.ctxErr ≠ none ∧ x.stream.endSt = none) (x.goto i q).pc) :
    Inv (x.goto i q) := by
  obtain ⟨⟨hw, -⟩, h₁, h₂, -⟩ := signals_of_checking hc
  obtain ⟨⟨-, hq'⟩, -, -, -⟩ := signals_of_checking hq
  exact {
    place := place_goto (fun j _ => hi.place j) ⟨fun _ => (hi.place i).1 hc, by simp [hq']⟩
    window := hi.window.move (fun _ => hw) (by simp [h₁])
    endSt := hi.endSt.move (fun _ => hw) (by simp [h₂])
    ended := hended
    ctx := hctx }

theorem inv_send (hi : Inv x) {b : Payload} (hp : x.pc i = .want b ∨ x.pc i = .chkEnded b ∨
    x.pc i = .chkCtx b ∨ x.pc i = .atWait b) (h : x.next i = some x') : Inv x' := by
  rcases hp with hp | hp | hp | hp
  · simp only [next, hp] at h
    obtain ⟨hfree, h⟩ := Option.ite_none_right_eq_some.1 h
    split at h
    · -- the window is open: charge it
      cases h
      have hs : Inv { x with stream := x.stream.chargeSend b.length } := { hi with
        place := fun j => ⟨by simp [hi.free hfree j], (hi.place j).2⟩
        window := hi.window.mono fun hw => by simp [Stream.chargeSend] at hw; omega }
      exact hs.goto_calm (by simp [hp, calm]) rfl (by simp [Place, checking, recorded])
    · rename_i hw
      split at h
      · cases h
        exact hi.goto_calm (by simp [hp, calm]) rfl (by simp [Place, checking, recorded])
      · -- neither credit nor a status: keep the mutex and look further
        rename_i hst
        cases h
        have hst' : x.stream.endSt = none := by simpa [Stream.endStErr] using hst
        exact {
          place := place_goto (x := { x with holder := some i })
            (fun j _ => ⟨by simp [hi.free hfree j], (hi.place j).2⟩)
            ⟨fun _ => ⟨rfl, by simpa using hw, hst'⟩, by simp [recorded]⟩
          window := Safe.of_not hw
          endSt := Safe.of_not fun hr => hr hst'
          ended := hi.ended.move (by simp [endedSignal]) (by simp [hp, endedSignal])
          ctx := hi.ctx.move (by simp [ctxSignal]) (by simp [ctxSignal]) }
  · simp only [next, hp] at h
    have hc : checking (x.pc i) = true := by simp [hp, checking]
    split at h
    · cases h; exact hi.giveUp hc
    · rename_i he
      cases h
      have he' : x.stream.ended = false := by simpa [Stream.endedErr] using he
      exact hi.look hc rfl (Safe.of_not fun hr => by cases he'.symm.trans hr.1)
        (hi.ctx.move (by simp [ctxSignal]) (by simp [ctxSignal]))
  · simp only [next, hp] at h
    have hc : checking (x.pc i) = true := by simp [hp, checking]
    split at h
    · cases h; exact hi.giveUp hc
    · rename_i he
      cases h
      exact hi.look hc rfl (hi.ended.move (by simp [hp, endedSignal]) (by simp [hp, endedSignal]))
        (Safe.of_not fun hr => he (Option.isSome_iff_ne_none.2 hr.1))
  · -- `Wait`: what the send has seen still holds, so it joins the waiters in time
    simp only [next, hp] at h
    cases h
    have hc : checking (x.pc i) = true := by simp [hp, checking]
    exact {
      place := place_goto (x := { x with holder := none })
        (fun j hj => ⟨by simp [hi.free_of_checking hc hj], (hi.place j).2⟩)
        (by simp [Place, checking, recorded])
      window := hi.window.move (by simp [hp, windowSignal, waits]) (by simp [hp, windowSignal])
      endSt := hi.endSt.move (by simp [hp, endStSignal, waits]) (by simp [hp, endStSignal])
      ended := hi.ended.move (by simp [hp, endedSignal]) (by simp [hp, endedSignal])
      ctx := hi.ctx.move (by simp [hp, ctxSignal]) (by simp [ctxSignal]) }

/-! ## The steps of the others -/

/-- The broadcast of a goroutine other than `signalEnd`, which goes on to `q`. -/
theorem Inv.wake (hi : Inv x) {q : Pc} (hp : endedSignal.wakes (x.pc i) = false)
    (hq : calm q = true) (hplace : Place x.stream x.holder i q) : Inv (x.broadcast.goto i q) := by
  obtain ⟨⟨hw, hn, hc⟩, -, -, -⟩ := signals_of_calm hq
  have hp' : endedSignal.wakes (woken (x.pc i)) = false := by rw [endedSignal_wakes_woken, hp]
  exact {
    place := place_goto (x := x.broadcast) (fun j _ => place_woken (hi.place j)) hplace
    window := Safe.broadcast (fun hr j => hi.not_waits_woken j (Or.inl hr)) hw
    endSt := Safe.broadcast (fun hr j => hi.not_waits_woken j (Or.inr hr)) hw
    ended := by
      have hmap : Safe endedSignal (x.stream.ended = true ∧ x.stream.endSt = none)
          fun j => woken (x.pc j) :=
        hi.ended.comp (fun _ => endedSignal_passed_of_woken)
          (fun p h => by rw [endedSignal_wakes_woken, h])
      exact hmap.move (by simp [hn]) (by simp [hp'])
    ctx := by
      have hmap : Safe ctxSignal (x.stream.ctxErr ≠ none ∧ x.stream.endSt = none)
          fun j => woken (x.pc j) :=
        hi.ctx.comp (fun _ h => (ctxSignal_passed_of_woken h).1) nofun
      exact hmap.move (by simp [hc]) (by simp [ctxSignal]) }

theorem inv_next (hi : Inv x) (hk : Heard x (.run i .next)) (h : x.next i = some x') : Inv x' := by
  have hfree : Place x.stream x.holder i .idle := by simp [Place, checking, recorded]
  cases hp : x.pc i with
  | idle => simp [next, hp] at h
  | parked b => simp [next, hp] at h
  | want b => exact inv_send hi (Or.inl hp) h
  | chkEnded b => exact inv_send hi (Or.inr (Or.inl hp)) h
  | chkCtx b => exact inv_send hi (Or.inr (Or.inr (Or.inl hp))) h
  | atWait b => exact inv_send hi (Or.inr (Or.inr (Or.inr hp))) h
  | creditWake =>
      simp only [next, hp, Option.some.injEq] at h
      subst h
      exact hi.wake (by simp [hp, endedSignal]) rfl hfree
  | endClose =>
      simp only [next, hp, Option.some.injEq] at h
      subst h
      exact {
        place := place_goto (x := { x with stream := x.stream.closeEnded })
          (fun j _ => hi.place j) (by simp [Place, checking, recorded])
        window := hi.window.move (by simp [windowSignal, waits]) (by simp [hp, windowSignal])
        endSt := hi.endSt.move (by simp [endStSignal, waits]) (by simp [hp, endStSignal])
        ended := Safe.raise (by simp [endedSignal])
        ctx := hi.ctx.move (by simp [ctxSignal]) (by simp [ctxSignal]) }
  | endWake =>
      -- the broadcast without the mutex: here the condition is needed
      simp only [next, hp, Option.some.injEq] at h
      subst h
      have hnone := hk hp
      exact {
        place := place_goto (x := { x.broadcast with endOne := .done })
          (fun j _ => place_woken (hi.place j)) (by simp [Place, checking, recorded])
        window := Safe.broadcast (fun hr j => hi.not_waits_woken j (Or.inl hr)) rfl
        endSt := Safe.broadcast (fun hr j => hi.not_waits_woken j (Or.inr hr)) rfl
        ended := Safe.broadcast (fun _ => hnone) rfl
        ctx := Safe.broadcast (fun _ j => by
          -- whoever has passed the look at the context has passed the one at `ended`
          by_contra hc
          have hpass := ctxSignal_passed_of_woken (Bool.eq_true_of_not_eq_false hc)
          rw [hnone j] at hpass
          cases hpass.2) rfl }
  | applyWake =>
      simp only [next, hp, Option.some.injEq] at h
      subst h
      have hst := (hi.place i).2 (by simp [hp, recorded])
      exact hi.wake (by simp [hp, endedSignal]) rfl ⟨by simp [checking], fun _ => hst⟩
  | applyCancel =>
      simp only [next, hp, Option.some.injEq] at h
      subst h
      have hst := (hi.place i).2 (by simp [hp, recorded])
      exact (hi.cancel hst).goto_calm (by simp [hp, calm]) rfl (by simp [Place, checking, recorded])
  | failWake =>
      simp only [next, hp, Option.some.injEq] at h
      subst h
      have hst := (hi.place i).2 (by simp [hp, recorded])
      exact hi.wake (by simp [hp, endedSignal]) rfl ⟨by simp [checking], fun _ => hst⟩
  | failClose =>
      simp only [next, hp] at h
      have hst := (hi.place i).2 (by simp [hp, recorded])
      have hto : Place x.stream x.holder i .failCancel := ⟨by simp [checking], fun _ => hst⟩
      split at h
      · cases h
      · cases h
        -- `ended` is closed after the broadcast, but the status was recorded before it
        have hs : Inv { x with stream := x.stream.closeEnded, endOne := .done } :=
          { hi with ended := Safe.of_not fun hr => hst hr.2 }
        exact hs.goto_calm (by simp [hp, calm]) rfl hto
      · cases h
        exact hi.goto_calm (by simp [hp, calm]) rfl hto
  | failCancel =>
      simp only [next, hp, Option.some.injEq] at h
      subst h
      have hst := (hi.place i).2 (by simp [hp, recorded])
      exact (hi.cancel hst).goto_calm (by simp [hp, calm]) rfl (by simp [Place, checking, recorded])

/-! ## Every run -/

theorem inv_step {l : Label ι} (hi : Inv x) (hk : Heard x l) (h : x.step l = some x') : Inv x' := by
  cases l with
  | run i a =>
      cases a with
      | next => exact inv_next hi hk h
      | sendRaw b | creditSend d | signalEnd f | applyEnd f | failWith st =>
          obtain ⟨hidle, hs⟩ := Option.ite_none_right_eq_some.1 h
          exact inv_start hi hidle hs
  | expire e =>
      cases h
      cases hc : x.stream.ctxErr with
      | some e' =>
          -- the context was done already
          exact { hi with ctx := hi.ctx.mono fun hr => ⟨by simp [hc], hr.2⟩ }
      | none =>
          have hnone := hk hc
          exact { hi with ctx := fun _ j hj => by simp [hnone j] at hj }

/-- Between two calls, going for the mutex, or waiting: no operation is part-way. -/
def resting : Pc → Bool
  | .idle | .want _ | .parked _ => true
  | _ => false

theorem wakes_of_resting {p : Pc} (h : resting p = true) :
    windowSignal.wakes p = false ∧ endStSignal.wakes p = false ∧ endedSignal.wakes p = false := by
  cases p <;> simp_all [resting, endedSignal, windowSignal, endStSignal]

/-- **No send is forgotten.**  In every run in which `signalEnd` never broadcasts
while a send is between its look at `ended` and its wait, and the context never
ends from outside while a send has passed its look at it: whenever no operation is
part-way, a send that waits has no reason to go on — the window is closed, no
status is recorded, `ended` is open and the context is live. -/
theorem not_parked_of_heard (ctxErr : Option CtxErr) (id : UInt32) (method : Text) (W : ℤ)
    {x : Senders ι} (h : Reach step Heard (init ctxErr id method W) x)
    (hrest : ∀ j, resting (x.pc j) = true) (i : ι) (b : Payload) (hi : x.pc i = .parked b) :
    x.stream.sendWindow ≤ 0 ∧ x.stream.endSt = none ∧ x.stream.ended = false ∧
      x.stream.ctxErr = none := by
  have hinv : Inv x := h.invariant (inv_init ctxErr id method W)
    fun _ _ _ hi hk hs => inv_step hi hk hs
  have hwin := hinv.window.not_raised (fun j => (wakes_of_resting (hrest j)).1)
    (i := i) (by simp [hi, windowSignal, waits])
  have hst := hinv.endSt.not_raised (fun j => (wakes_of_resting (hrest j)).2.1)
    (i := i) (by simp [hi, endStSignal, waits])
  have hend := hinv.ended.not_raised (fun j => (wakes_of_resting (hrest j)).2.2)
    (i := i) (by simp [hi, endedSignal])
  have hctx := hinv.ctx.not_raised (fun _ => rfl) (i := i) (by simp [hi, ctxSignal])
  have hst' : x.stream.endSt = none := by simpa using hst
  refine ⟨by omega, hst', ?_, ?_⟩
  · simpa [hst'] using hend
  · simpa [hst'] using hctx

/-- A second send waits on a window of one byte. -/
theorem not_parked_of_heard_one :
    ∃ x : Senders (Fin 1), Reach step Heard (init none 1 .empty 1) x ∧
      (∀ j, resting (x.pc j) = true) ∧ x.pc 0 = .parked [2] ∧
      x.stream.sendWindow ≤ 0 ∧ x.stream.endSt = none ∧ x.stream.ended = false ∧
      x.stream.ctxErr = none := by
  obtain ⟨x, hx, hp⟩ := exists_reach_of_exec step Heard (init none 1 .empty 1 : Senders (Fin 1))
    (fun x => decide ((∀ j, resting (x.pc j) = true) ∧ x.pc 0 = .parked [2]))
    [.run 0 (.sendRaw [1]), .run 0 .next, .run 0 (.sendRaw [2]), .run 0 .next, .run 0 .next,
      .run 0 .next, .run 0 .next] (by decide)
  simp only [decide_eq_true_eq] at hp
  exact ⟨x, hx, hp.1, hp.2, not_parked_of_heard none 1 .empty 1 hx hp.1 0 [2] hp.2⟩

/-- **A send waits on although it has a reason to go on.**  First run: END has been
recorded, a send finds `ended` still open, `signalEnd` closes it and broadcasts,
and only then does the send join the waiters.  Second run: the deadline fires
while a send waits, and nothing broadcasts. -/
theorem parked_unheard :
    (∃ x : Senders (Fin 2), Reach step Always (init none 1 .empty 1) x ∧
      (∀ j, x.pc j = .idle ∨ x.pc j = .parked [2]) ∧ x.pc 0 = .parked [2] ∧
      x.stream.ended = true) ∧
    (∃ x : Senders (Fin 2), Reach step Always (init none 1 .empty 1) x ∧
      (∀ j, x.pc j = .idle ∨ x.pc j = .parked [2]) ∧ x.pc 0 = .parked [2] ∧
      x.stream.ctxErr = some .deadlineExceeded) := by
  constructor
  · obtain ⟨x, hx, hp⟩ := exists_reach_of_exec step Always (init none 1 .empty 1 : Senders (Fin 2))
      (fun x => decide ((∀ j, x.pc j = .idle ∨ x.pc j = .parked [2]) ∧ x.pc 0 = .parked [2] ∧
        x.stream.ended = true))
      [.run 0 (.sendRaw [1]), .run 0 .next, .run 1 (.signalEnd { streamId := 1, kind := .kindEnd }),
        .run 0 (.sendRaw [2]), .run 0 .next, .run 0 .next, .run 1 .next, .run 1 .next,
        .run 0 .next, .run 0 .next] (by decide)
    simp only [decide_eq_true_eq] at hp
    exact ⟨x, hx, hp⟩
  · obtain ⟨x, hx, hp⟩ := exists_reach_of_exec step Always (init none 1 .empty 1 : Senders (Fin 2))
      (fun x => decide ((∀ j, x.pc j = .idle ∨ x.pc j = .parked [2]) ∧ x.pc 0 = .parked [2] ∧
        x.stream.ctxErr = some .deadlineExceeded))
      [.run 0 (.sendRaw [1]), .run 0 .next, .run 0 (.sendRaw [2]), .run 0 .next, .run 0 .next,
        .run 0 .next, .run 0 .next, .expire .deadlineExceeded] (by decide)
    simp only [decide_eq_true_eq] at hp
    exact ⟨x, hx, hp⟩

end Senders

end WsProto.Go.SendWait
