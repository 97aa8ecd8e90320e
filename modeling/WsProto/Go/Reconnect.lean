import WsProto.Lib.Run
import WsProto.Go.Mux

/-!
# The reconnecting client

`ClientConn` with `WithReconnect`, at the granularity of its mutex: the loop of
`reconnector.run` with `redial` and `dialOnce`, any number of calls of `NewStream` and of
`Close`, and muxes that end by themselves at any time.  A wait channel is replaced when it
is closed; channels are numbered in the order in which they are made.

* `inv_of_reach` — what holds in every state;
* `safe_of_reach` — a closed connection stays closed, no mux is lost, one mux at most is
  open, a late `NewStream` is refused and a waiting one is not forgotten;
* `mux_between_hands` — `Close` closes the mux it has taken after it has released the
  mutex: in between the mux is open and nobody else has it.
-/

namespace WsProto.Go.Reconnect

open Machine

/-! ## The model -/

/-- A mux a dial has produced, as far as the connection sees it. -/
structure Sock where
  /-- `mux.ctx` is done. -/
  terminated : Bool := false
  /-- `mux.Close` was called. -/
  closed : Bool := false
  deriving DecidableEq

/-- Where `run` is. -/
inductive RunPc where
  /-- At the top of its loop. -/
  | top
  /-- In the select on the mux and `closeCh`. -/
  | watch (r : Ref)
  /-- The mux has ended; about to drop it. -/
  | drop (r : Ref)
  /-- At the top of the loop of `redial`. -/
  | redial
  | dialing
  /-- In the select on the timer and `closeCh`. -/
  | backoff
  /-- `redial` has returned a mux; about to install it. -/
  | dialed (r : Ref)
  /-- The connection was closed meanwhile; about to close the new mux. -/
  | discard (r : Ref)
  | returned
  deriving DecidableEq

/-- The mux `run` has in its hands. -/
def RunPc.holds : RunPc → Option Ref
  | .dialed r | .discard r => some r
  | _ => none

/-- `run` is not between the drop of a mux and the install of the next. -/
def RunPc.settled : RunPc → Bool
  | .top | .watch _ | .drop _ | .returned => true
  | _ => false

/-- Where a call of `NewStream` is. -/
inductive CallPc where
  /-- About to lock the mutex. -/
  | called
  /-- In the select of `waitForMux`, on a wait channel. -/
  | parked (ch : ℕ)
  /-- Its channel was closed; about to lock the mutex again. -/
  | woken
  /-- In `newClientStream` of a mux. -/
  | opening (r : Ref)
  | failed (e : GoError)
  deriving DecidableEq

structure Call where
  pc : CallPc := .called
  /-- Ghost: a `Close` had returned when the call started. -/
  late : Bool
  deriving DecidableEq

/-- Where a call of `Close` is. -/
inductive ClosePc where
  /-- It has marked the connection closed and released the mutex, with the mux it found. -/
  | closing (mux : Option Ref)
  | returned
  deriving DecidableEq

/-- `ClientConn`, with the goroutines around it. -/
structure Conn where
  /-- Every mux a dial has produced. -/
  muxes : List Sock := [{}]
  mux : Option Ref := some 0
  closed : Bool := false
  /-- The wait channels made so far, and whether they are closed. -/
  chans : List Bool := [false]
  waitCh : ℕ := 0
  closeCh : Bool := false
  run : RunPc := .top
  calls : List Call := []
  closers : List ClosePc := []
  deriving DecidableEq

/-- The error of a call on a closed connection. -/
def connClosedErr : GoError := errorf Code.unavailable "wsrpc: connection closed"

inductive Act where
  /-- A mux ends: its peer is gone, a read or a ping fails. -/
  | die (r : Ref)
  /-- `run` reads the mux to watch. -/
  | read
  | seeDone
  /-- `run` or `redial` sees `closeCh`. -/
  | seeClose
  | drop
  | dial
  | dialOk
  | dialErr
  | timer
  | install
  | discard
  /-- `Close`, up to the release of the mutex. -/
  | close
  /-- `Close` number `i`, the rest of it. -/
  | closeMux (i : ℕ)
  | newStream
  /-- Call `i` locks the mutex. -/
  | enter (i : ℕ)
  /-- Call `i` finds its wait channel closed. -/
  | wake (i : ℕ)
  /-- The context of call `i` ends its wait. -/
  | ctxDone (i : ℕ) (e : CtxErr)
  /-- Call `i` finds `closeCh` closed. -/
  | refuse (i : ℕ)
  deriving DecidableEq

namespace Conn

/-- `broadcastLocked`. -/
def broadcastLocked (x : Conn) : Conn :=
  { x with chans := x.chans.set x.waitCh true ++ [false], waitCh := x.chans.length }

/-- `mux.Close`: the flag, and the end of the context. -/
def closeSock (x : Conn) (r : Ref) : Conn :=
  { x with muxes := x.muxes.modify r fun _ => { terminated := true, closed := true } }

/-- One turn of the loop of `waitForMux`. -/
def waitForMux (x : Conn) : CallPc :=
  if x.closed then .failed connClosedErr
  else
    match x.mux with
    | some r => .opening r
    | none => .parked x.waitCh

/-- `NewStream` under the mutex, or `waitForMux` after a wait. -/
def enter (x : Conn) : CallPc → Option CallPc
  | .called =>
      match x.mux with
      | some r => some (.opening r)
      | none => some x.waitForMux
  | .woken => some x.waitForMux
  | _ => none

/-- The select of `waitForMux` comes out. -/
def leave (out : ℕ → Option CallPc) : CallPc → Option CallPc
  | .parked ch => out ch
  | _ => none

/-- Call `i` goes on. -/
def setCall (x : Conn) (i : ℕ) (f : CallPc → Option CallPc) : Option Conn :=
  (x.calls[i]?).bind fun c => (f c.pc).map fun pc => { x with calls := x.calls.set i { c with pc } }

/-- `Close` under the mutex. -/
def close (x : Conn) : Conn :=
  if x.closed then { x with closers := x.closers ++ [.returned] }
  else
    broadcastLocked
      { x with
        closed := true
        mux := none
        closeCh := true
        closers := x.closers ++ [.closing x.mux] }

def step (x : Conn) : Act → Option Conn
  | .die r => some { x with muxes := x.muxes.modify r ({ · with terminated := true }) }
  | .read =>
      match x.run, x.closed, x.mux with
      | .top, false, some r => some { x with run := .watch r }
      | .top, _, _ => some { x with run := .returned }
      | _, _, _ => none
  | .seeDone =>
      match x.run with
      | .watch r =>
          if (x.muxes[r]?).map Sock.terminated = some true then some { x with run := .drop r }
          else none
      | _ => none
  | .seeClose =>
      match x.run, x.closeCh with
      | .watch _, true | .redial, true | .backoff, true => some { x with run := .returned }
      | _, _ => none
  | .drop =>
      match x.run with
      | .drop _ =>
          some (if x.closed then { x with run := .returned }
            else { x with mux := none, run := .redial })
      | _ => none
  | .dial =>
      match x.run, x.closeCh with
      | .redial, false => some { x with run := .dialing }
      | _, _ => none
  | .dialOk =>
      match x.run with
      | .dialing => some { x with muxes := x.muxes ++ [{}], run := .dialed x.muxes.length }
      | _ => none
  | .dialErr =>
      match x.run with
      | .dialing => some { x with run := .backoff }
      | _ => none
  | .timer =>
      match x.run with
      | .backoff => some { x with run := .redial }
      | _ => none
  | .install =>
      match x.run with
      | .dialed r =>
          some (if x.closed then { x with run := .discard r }
            else broadcastLocked { x with mux := some r, run := .top })
      | _ => none
  | .discard =>
      match x.run with
      | .discard r => some { x.closeSock r with run := .returned }
      | _ => none
  | .close => some x.close
  | .closeMux i =>
      match x.closers[i]? with
      | some (.closing m) =>
          some { m.elim x x.closeSock with closers := x.closers.set i .returned }
      | _ => none
  | .newStream =>
      some { x with calls := x.calls ++ [{ late := x.closers.any (· == .returned) }] }
  | .enter i => x.setCall i x.enter
  | .wake i =>
      x.setCall i (leave fun ch => if x.chans[ch]? = some true then some .woken else none)
  | .ctxDone i e => x.setCall i (leave fun _ => some (.failed (.ctx e)))
  | .refuse i =>
      x.setCall i (leave fun _ => if x.closeCh then some (.failed connClosedErr) else none)

end Conn

/-! ## The invariants -/

/-- What `run` relies on where it stands. -/
def Stands (x : Conn) : RunPc → Prop
  | .top => x.mux ≠ none ∨ x.closed = true
  | .watch r => x.mux = some r ∨ x.closed = true
  | .drop r => (x.mux = some r ∨ x.closed = true) ∧ (x.muxes[r]?).map Sock.terminated = some true
  | .redial | .dialing | .backoff | .dialed _ => x.mux = none
  | .discard _ | .returned => x.closed = true

/-- Somebody has the mux: it is installed, or `run` or a `Close` is about to deal with it. -/
def Placed (x : Conn) (r : Ref) : Prop :=
  x.mux = some r ∨ x.run.holds = some r ∨ .closing (some r) ∈ x.closers

/-- The muxes and those who deal with them. -/
structure Inv (x : Conn) : Prop where
  closeCh : x.closeCh = x.closed
  shut : x.closed = true → x.mux = none
  closers : x.closers ≠ [] → x.closed = true
  /-- Only the first `Close` finds the connection open. -/
  first : ∀ (i : ℕ) (m : Option Ref), x.closers[i]? = some (.closing m) → i = 0
  taken : ∀ r, .closing (some r) ∈ x.closers → x.run.settled = true
  run : Stands x x.run
  socks : ∀ m ∈ x.muxes, m.closed = true → m.terminated = true
  placed : ∀ (r : Ref) (m : Sock), x.muxes[r]? = some m → m.terminated = false → Placed x r

/-- A wait on the channel ends: it is closed already, or it is the one that whoever
installs a mux or closes the connection will close, which has not happened. -/
def Heard (x : Conn) (ch : ℕ) : Prop :=
  x.chans[ch]? = some true ∨ (ch = x.waitCh ∧ x.mux = none ∧ x.closed = false)

/-- The calls of `NewStream`. -/
structure Answers (x : Conn) : Prop where
  /-- The current channel is the newest one, and open. -/
  newest : x.chans.length = x.waitCh + 1
  fresh : x.chans[x.waitCh]? = some false
  heard : ∀ c ∈ x.calls, ∀ ch, c.pc = .parked ch → Heard x ch
  late : ∀ c ∈ x.calls, c.late = true →
    x.closed = true ∧ (c.pc = .called ∨ c.pc = .failed connClosedErr)

variable {x x' : Conn} {r : Ref}

theorem inv_start : Inv {} where
  closeCh := rfl
  shut h := by cases h
  closers h := absurd rfl h
  first i m h := by simp at h
  taken r h := by cases h
  run := Or.inl (by decide)
  socks := by decide
  placed r m hm _ := by
    cases r with
    | zero => exact Or.inl rfl
    | succ r => simp at hm

theorem answers_start : Answers {} where
  newest := rfl
  fresh := rfl
  heard c hc := by cases hc
  late c hc := by cases hc

/-! ## The muxes -/

theorem of_getElem?_modify {l : List Sock} {g : Sock → Sock} {q : Ref} {m : Sock}
    (h : (l.modify r g)[q]? = some m) :
    ∃ m₀, l[q]? = some m₀ ∧ (m = g m₀ ∨ (q ≠ r ∧ m = m₀)) := by
  rw [List.getElem?_modify] at h
  obtain ⟨m₀, hm₀, rfl⟩ := Option.map_eq_some_iff.1 h
  refine ⟨m₀, hm₀, ?_⟩
  split_ifs with hq
  · exact Or.inl rfl
  · exact Or.inr ⟨Ne.symm hq, rfl⟩

/-- A mux that has ended stays so. -/
theorem terminated_modify {l : List Sock} {g : Sock → Sock} (hg : ∀ m, (g m).terminated = true)
    {q : Ref} (h : (l[q]?).map Sock.terminated = some true) :
    ((l.modify r g)[q]?).map Sock.terminated = some true := by
  obtain ⟨m, hm, hterm⟩ := Option.map_eq_some_iff.1 h
  rw [List.getElem?_modify, hm]
  split_ifs
  · exact congrArg some (hg m)
  · exact congrArg some hterm

/-- A mux ends. -/
theorem Inv.terminate (h : Inv x) {g : Sock → Sock} (hg : ∀ m, (g m).terminated = true) :
    Inv { x with muxes := x.muxes.modify r g } where
  closeCh := h.closeCh
  shut := h.shut
  closers := h.closers
  first := h.first
  taken := h.taken
  run := by
    have hrun := h.run
    show Stands _ x.run
    cases hpc : x.run with
    | drop q =>
        rw [hpc] at hrun
        exact ⟨hrun.1, terminated_modify hg hrun.2⟩
    | _ =>
        rw [hpc] at hrun
        exact hrun
  socks m hm hclosed := by
    obtain ⟨q, hq⟩ := List.mem_iff_getElem?.1 hm
    obtain ⟨m₀, hm₀, rfl | ⟨-, rfl⟩⟩ := of_getElem?_modify hq
    · exact hg m₀
    · exact h.socks m (List.mem_of_getElem? hm₀) hclosed
  placed q m hm hopen := by
    obtain ⟨m₀, hm₀, rfl | ⟨-, rfl⟩⟩ := of_getElem?_modify hm
    · rw [hg m₀] at hopen
      cases hopen
    · exact h.placed q m hm₀ hopen

/-- The mux that was closed is out of everybody's hands. -/
theorem closed_not_open {m : Sock} (hm : (x.closeSock r).muxes[r]? = some m) :
    m.terminated = true := by
  obtain ⟨m₀, -, rfl | ⟨hne, -⟩⟩ := of_getElem?_modify hm
  · rfl
  · exact absurd rfl hne

/-! ## The steps of `run` -/

/-- A step of `run` that touches nothing else, from where it holds no mux. -/
theorem Inv.moveRun (h : Inv x) {pc pc' : RunPc} (hpc : x.run = pc) (hheld : pc.holds = none)
    (hrun : Stands x pc') (htaken : pc.settled = true → pc'.settled = true) :
    Inv { x with run := pc' } where
  closeCh := h.closeCh
  shut := h.shut
  closers := h.closers
  first := h.first
  taken r hr := htaken (by rw [← hpc]; exact h.taken r hr)
  run := by
    cases pc' <;> exact hrun
  socks := h.socks
  placed r m hm hopen := by
    rcases h.placed r m hm hopen with hmux | hheld' | hclosing
    · exact Or.inl hmux
    · rw [hpc, hheld] at hheld'
      cases hheld'
    · exact Or.inr (Or.inr hclosing)

theorem inv_read (h : Inv x) (hx : x.step .read = some x') : Inv x' := by
  have hrun := h.run
  simp only [Conn.step] at hx
  split at hx
  · rename_i r hpc hclosed hmux
    obtain rfl := Option.some.inj hx
    exact h.moveRun hpc rfl (Or.inl hmux) fun _ => rfl
  · rename_i hpc hne
    obtain rfl := Option.some.inj hx
    rw [hpc] at hrun
    have hclosed : x.closed = true := by
      by_contra hopen
      obtain ⟨r, hr⟩ := Option.ne_none_iff_exists'.1 (hrun.resolve_right hopen)
      exact hne r (Bool.eq_false_iff.2 hopen) hr
    exact h.moveRun hpc rfl hclosed fun _ => rfl
  · cases hx

theorem inv_seeDone (h : Inv x) (hx : x.step .seeDone = some x') : Inv x' := by
  have hrun := h.run
  simp only [Conn.step] at hx
  split at hx
  · rename_i r hpc
    split_ifs at hx with hterm
    obtain rfl := Option.some.inj hx
    rw [hpc] at hrun
    exact h.moveRun hpc rfl ⟨hrun, hterm⟩ fun _ => rfl
  · cases hx

theorem inv_seeClose (h : Inv x) (hx : x.step .seeClose = some x') : Inv x' := by
  have hclosed : x.closeCh = true → Stands x .returned := by
    intro hch
    rw [h.closeCh] at hch
    exact hch
  simp only [Conn.step] at hx
  split at hx
  · rename_i hpc hch
    obtain rfl := Option.some.inj hx
    exact h.moveRun hpc rfl (hclosed hch) fun _ => rfl
  · rename_i hpc hch
    obtain rfl := Option.some.inj hx
    exact h.moveRun hpc rfl (hclosed hch) fun _ => rfl
  · rename_i hpc hch
    obtain rfl := Option.some.inj hx
    exact h.moveRun hpc rfl (hclosed hch) fun _ => rfl
  · cases hx

/-- The drop of a mux that has ended. -/
theorem inv_drop (h : Inv x) (hx : x.step .drop = some x') : Inv x' := by
  have hrun := h.run
  simp only [Conn.step] at hx
  split at hx
  · rename_i r hpc
    obtain rfl := Option.some.inj hx
    rw [hpc] at hrun
    split_ifs with hclosed
    · exact h.moveRun hpc rfl hclosed fun _ => rfl
    · have hmux : x.mux = some r := hrun.1.resolve_right hclosed
      have hnone : x.closers = [] := by
        by_contra hne
        exact hclosed (h.closers hne)
      exact
        { closeCh := h.closeCh
          shut := fun hc => absurd hc hclosed
          closers := h.closers
          first := h.first
          taken := fun q hq => by
            rw [show ({ x with mux := none, run := .redial } : Conn).closers = [] from hnone] at hq
            cases hq
          run := rfl
          socks := h.socks
          placed := fun q m hm hopen => by
            exfalso
            rcases h.placed q m hm hopen with hq | hq | hq
            · rw [hmux] at hq
              obtain rfl := Option.some.inj hq
              obtain ⟨m₀, hm₀, hterm⟩ := Option.map_eq_some_iff.1 hrun.2
              obtain rfl : m = m₀ := Option.some.inj (hm.symm.trans hm₀)
              rw [hterm] at hopen
              cases hopen
            · rw [hpc] at hq
              cases hq
            · rw [hnone] at hq
              cases hq }
  · cases hx

theorem inv_dial (h : Inv x) (hx : x.step .dial = some x') : Inv x' := by
  have hrun := h.run
  simp only [Conn.step] at hx
  split at hx
  · rename_i hpc _
    obtain rfl := Option.some.inj hx
    rw [hpc] at hrun
    exact h.moveRun hpc rfl hrun id
  · cases hx

/-- A dial succeeds: the new mux is in the hands of `run`. -/
theorem inv_dialOk (h : Inv x) (hx : x.step .dialOk = some x') : Inv x' := by
  have hrun := h.run
  simp only [Conn.step] at hx
  split at hx
  · rename_i hpc
    obtain rfl := Option.some.inj hx
    rw [hpc] at hrun
    refine
      { closeCh := h.closeCh
        shut := h.shut
        closers := h.closers
        first := h.first
        taken := fun q hq => ?_
        run := hrun
        socks := fun m hm hclosed => ?_
        placed := fun q m hm hopen => ?_ }
    · have hs := h.taken q hq
      rw [hpc] at hs
      cases hs
    · rcases List.mem_append.1 hm with hm | hm
      · exact h.socks m hm hclosed
      · rw [List.mem_singleton.1 hm] at hclosed
        cases hclosed
    · rcases of_getElem?_concat hm with hm | ⟨rfl, -⟩
      · rcases h.placed q m hm hopen with hq | hq | hq
        · exact Or.inl hq
        · rw [hpc] at hq
          cases hq
        · exact Or.inr (Or.inr hq)
      · exact Or.inr (Or.inl rfl)
  · cases hx

theorem inv_dialErr (h : Inv x) (hx : x.step .dialErr = some x') : Inv x' := by
  have hrun := h.run
  simp only [Conn.step] at hx
  split at hx
  · rename_i hpc
    obtain rfl := Option.some.inj hx
    rw [hpc] at hrun
    exact h.moveRun hpc rfl hrun id
  · cases hx

theorem inv_timer (h : Inv x) (hx : x.step .timer = some x') : Inv x' := by
  have hrun := h.run
  simp only [Conn.step] at hx
  split at hx
  · rename_i hpc
    obtain rfl := Option.some.inj hx
    rw [hpc] at hrun
    exact h.moveRun hpc rfl hrun id
  · cases hx

/-- The install of a new mux, unless the connection was closed meanwhile. -/
theorem inv_install (h : Inv x) (hx : x.step .install = some x') : Inv x' := by
  have hrun := h.run
  simp only [Conn.step] at hx
  split at hx
  · rename_i r hpc
    obtain rfl := Option.some.inj hx
    rw [hpc] at hrun
    have hplaced : ∀ (q : Ref) (m : Sock), x.muxes[q]? = some m → m.terminated = false →
        q = r ∨ .closing (some q) ∈ x.closers := by
      intro q m hm hopen
      rcases h.placed q m hm hopen with hq | hq | hq
      · rw [show x.mux = none from hrun] at hq
        cases hq
      · rw [hpc] at hq
        exact Or.inl (Option.some.inj hq).symm
      · exact Or.inr hq
    split_ifs with hclosed
    · refine
        { closeCh := h.closeCh
          shut := h.shut
          closers := h.closers
          first := h.first
          taken := fun q hq => ?_
          run := hclosed
          socks := h.socks
          placed := fun q m hm hopen => ?_ }
      · have hs := h.taken q hq
        rw [hpc] at hs
        cases hs
      · rcases hplaced q m hm hopen with rfl | hq
        · exact Or.inr (Or.inl rfl)
        · exact Or.inr (Or.inr hq)
    · refine
        { closeCh := h.closeCh
          shut := fun hc => absurd hc hclosed
          closers := h.closers
          first := h.first
          taken := fun _ _ => rfl
          run := Or.inl (by simp [Conn.broadcastLocked])
          socks := h.socks
          placed := fun q m hm hopen => ?_ }
      rcases hplaced q m hm hopen with rfl | hq
      · exact Or.inl rfl
      · exact Or.inr (Or.inr hq)
  · cases hx

/-- The mux dialed for a closed connection is closed. -/
theorem inv_discard (h : Inv x) (hx : x.step .discard = some x') : Inv x' := by
  have hrun := h.run
  simp only [Conn.step] at hx
  split at hx
  · rename_i r hpc
    obtain rfl := Option.some.inj hx
    rw [hpc] at hrun
    have hinv : Inv (x.closeSock r) := h.terminate fun _ => rfl
    refine
      { closeCh := h.closeCh
        shut := h.shut
        closers := h.closers
        first := h.first
        taken := fun _ _ => rfl
        run := hrun
        socks := hinv.socks
        placed := fun q m hm hopen => ?_ }
    rcases hinv.placed q m hm hopen with hq | hq | hq
    · exact Or.inl hq
    · have hqr : (x.closeSock r).run.holds = some r := by
        show x.run.holds = some r
        rw [hpc]
        rfl
      obtain rfl := Option.some.inj (hq.symm.trans hqr)
      rw [closed_not_open hm] at hopen
      cases hopen
    · exact Or.inr (Or.inr hq)
  · cases hx

/-! ## The steps of `Close` -/

/-- `run` can go on when the connection has been closed. -/
theorem Stands.shut {pc : RunPc} (h : Stands x pc) (hclosed : x'.closed = true)
    (hmux : x'.mux = none) (hmuxes : x'.muxes = x.muxes) : Stands x' pc := by
  cases pc with
  | top => exact Or.inr hclosed
  | watch r => exact Or.inr hclosed
  | drop r => exact ⟨Or.inr hclosed, by rw [hmuxes]; exact h.2⟩
  | redial => exact hmux
  | dialing => exact hmux
  | backoff => exact hmux
  | dialed r => exact hmux
  | discard r => exact hclosed
  | returned => exact hclosed

/-- Where a mux is installed and the connection open, `run` is not dialing. -/
theorem Stands.settled {pc : RunPc} (h : Stands x pc) (hmux : x.mux = some r)
    (hopen : x.closed = false) : pc.settled = true := by
  cases pc <;> simp_all [Stands, RunPc.settled]

/-- `Close` on a closed connection. -/
theorem Inv.closeAgain (h : Inv x) (hclosed : x.closed = true) :
    Inv { x with closers := x.closers ++ [.returned] } where
  closeCh := h.closeCh
  shut := h.shut
  closers _ := hclosed
  first i m hi := by
    rcases of_getElem?_concat hi with hi | ⟨-, hne⟩
    · exact h.first i m hi
    · cases hne
  taken q hq := by
    rcases List.mem_append.1 hq with hq | hq
    · exact h.taken q hq
    · cases List.mem_singleton.1 hq
  run := h.run.shut hclosed (h.shut hclosed) rfl
  socks := h.socks
  placed q m hm hopen := by
    rcases h.placed q m hm hopen with hq | hq | hq
    · exact Or.inl hq
    · exact Or.inr (Or.inl hq)
    · exact Or.inr (Or.inr (List.mem_append_left _ hq))

/-- `Close` takes the installed mux, the first time only. -/
theorem inv_close (h : Inv x) : Inv x.close := by
  unfold Conn.close
  split_ifs with hclosed
  · exact h.closeAgain hclosed
  · have hnone : x.closers = [] := by
      by_contra hne
      exact hclosed (h.closers hne)
    rw [hnone]
    refine
      { closeCh := rfl
        shut := fun _ => rfl
        closers := fun _ => rfl
        first := fun i m hi => ?_
        taken := fun q hq => ?_
        run := h.run.shut rfl rfl rfl
        socks := h.socks
        placed := fun q m hm hopen => ?_ }
    · exact Nat.lt_one_iff.1 (List.getElem?_eq_some_iff.1 hi).1
    · have hmux : x.mux = some q := by
        have hmem := List.mem_singleton.1 hq
        exact (ClosePc.closing.inj hmem).symm
      exact h.run.settled hmux (Bool.eq_false_iff.2 hclosed)
    · rcases h.placed q m hm hopen with hq | hq | hq
      · refine Or.inr (Or.inr ?_)
        rw [← hq]
        exact List.mem_singleton_self _
      · exact Or.inr (Or.inl hq)
      · rw [hnone] at hq
        cases hq

/-- `Close` closes the mux it has taken. -/
theorem inv_closeMux (h : Inv x) {i : ℕ} (hx : x.step (.closeMux i) = some x') : Inv x' := by
  simp only [Conn.step] at hx
  split at hx
  · rename_i m hi
    obtain rfl := Option.some.inj hx
    have hclosed : x.closed = true := by
      refine h.closers fun hnil => ?_
      rw [hnil] at hi
      simp at hi
    have hinv : Inv (m.elim x x.closeSock) := by
      cases m with
      | none => exact h
      | some r => exact h.terminate fun _ => rfl
    have hsame : (m.elim x x.closeSock).closers = x.closers := by cases m <;> rfl
    have hclosed' : (m.elim x x.closeSock).closed = true := by cases m <;> exact hclosed
    have hnone : ∀ n, .closing n ∉ x.closers.set i .returned := by
      intro n hn
      obtain ⟨j, hj⟩ := List.mem_iff_getElem?.1 hn
      by_cases hij : i = j
      · subst hij
        rw [List.getElem?_set_self (List.getElem?_eq_some_iff.1 hi).1] at hj
        cases hj
      · rw [List.getElem?_set_ne hij] at hj
        exact hij ((h.first i m hi).trans (h.first j n hj).symm)
    refine
      { closeCh := hinv.closeCh
        shut := hinv.shut
        closers := fun _ => hclosed'
        first := fun j n hj => absurd (List.mem_of_getElem? hj) (hnone n)
        taken := fun q hq => absurd hq (hnone _)
        run := hinv.run.shut hclosed' (hinv.shut hclosed') rfl
        socks := hinv.socks
        placed := fun q n hn hopen => ?_ }
    rcases hinv.placed q n hn hopen with hq | hq | hq
    · exact Or.inl hq
    · exact Or.inr (Or.inl hq)
    · rw [hsame] at hq
      obtain ⟨j, hj⟩ := List.mem_iff_getElem?.1 hq
      obtain rfl : j = i := (h.first j _ hj).trans (h.first i m hi).symm
      obtain rfl : m = some q := ClosePc.closing.inj (Option.some.inj (hi.symm.trans hj))
      rw [closed_not_open hn] at hopen
      cases hopen
  · cases hx

/-! ## The calls of `NewStream` -/

/-- A step of a call changes nothing for the others. -/
theorem Inv.calls (h : Inv x) (calls : List Call) : Inv { x with calls := calls } where
  closeCh := h.closeCh
  shut := h.shut
  closers := h.closers
  first := h.first
  taken := h.taken
  run := by
    have hrun := h.run
    show Stands _ x.run
    cases hpc : x.run <;> rw [hpc] at hrun <;> exact hrun
  socks := h.socks
  placed := h.placed

theorem inv_setCall (h : Inv x) {i : ℕ} {f : CallPc → Option CallPc}
    (hx : x.setCall i f = some x') : Inv x' := by
  obtain ⟨c, -, hx⟩ := Option.bind_eq_some_iff.1 hx
  obtain ⟨pc, -, rfl⟩ := Option.map_eq_some_iff.1 hx
  exact h.calls _

/-- **One step** keeps the muxes accounted for. -/
theorem inv_step {a : Act} (h : Inv x) (hx : x.step a = some x') : Inv x' := by
  cases a with
  | die r =>
      obtain rfl := Option.some.inj hx
      exact h.terminate fun _ => rfl
  | read => exact inv_read h hx
  | seeDone => exact inv_seeDone h hx
  | seeClose => exact inv_seeClose h hx
  | drop => exact inv_drop h hx
  | dial => exact inv_dial h hx
  | dialOk => exact inv_dialOk h hx
  | dialErr => exact inv_dialErr h hx
  | timer => exact inv_timer h hx
  | install => exact inv_install h hx
  | discard => exact inv_discard h hx
  | close =>
      obtain rfl := Option.some.inj hx
      exact inv_close h
  | closeMux i => exact inv_closeMux h hx
  | newStream =>
      obtain rfl := Option.some.inj hx
      exact h.calls _
  | enter i => exact inv_setCall h hx
  | wake i => exact inv_setCall h hx
  | ctxDone i e => exact inv_setCall h hx
  | refuse i => exact inv_setCall h hx

/-- What a step does to the channels and the calls. -/
inductive Effect (x : Conn) : Conn → Prop
  /-- Nothing, and no mux is installed. -/
  | quiet {x' : Conn} (hcalls : x'.calls = x.calls) (hchans : x'.chans = x.chans)
      (hwait : x'.waitCh = x.waitCh) (hclosed : x'.closed = x.closed)
      (hmux : x.mux = none → x'.mux = none) : Effect x x'
  /-- A broadcast, after any change of the mux. -/
  | broadcast {y : Conn} (hcalls : y.calls = x.calls) (hchans : y.chans = x.chans)
      (hwait : y.waitCh = x.waitCh) (hclosed : x.closed = true → y.closed = true) :
      Effect x y.broadcastLocked
  /-- A call goes on: it waits only on a channel that will be closed, and stays refused on
  a closed connection. -/
  | call {i : ℕ} {c : Call} {pc : CallPc} (hc : x.calls[i]? = some c)
      (hparked : ∀ ch, pc = .parked ch → Heard x ch)
      (hrefused : x.closed = true → c.pc = .called ∨ c.pc = .failed connClosedErr →
        pc = .called ∨ pc = .failed connClosedErr) :
      Effect x { x with calls := x.calls.set i { c with pc } }
  /-- A call starts. -/
  | start {late : Bool} (hlate : late = true → x.closed = true) :
      Effect x { x with calls := x.calls ++ [{ late }] }

theorem heard_of_waitForMux {ch : ℕ} (h : x.waitForMux = .parked ch) : Heard x ch := by
  unfold Conn.waitForMux at h
  split_ifs at h with hclosed
  split at h
  · cases h
  · rename_i hmux
    cases h
    exact Or.inr ⟨rfl, hmux, Bool.eq_false_iff.2 hclosed⟩

theorem waitForMux_of_closed (h : x.closed = true) : x.waitForMux = .failed connClosedErr := by
  rw [Conn.waitForMux, if_pos h]

/-- `NewStream` under the mutex. -/
theorem effect_enter (h : Inv x) {i : ℕ} (hx : x.step (.enter i) = some x') : Effect x x' := by
  obtain ⟨c, hc, hx⟩ := Option.bind_eq_some_iff.1 hx
  obtain ⟨pc, hpc, rfl⟩ := Option.map_eq_some_iff.1 hx
  refine .call hc ?_ ?_
  · rintro ch rfl
    unfold Conn.enter at hpc
    split at hpc
    · split at hpc
      · cases hpc
      · exact heard_of_waitForMux (Option.some.inj hpc)
    · exact heard_of_waitForMux (Option.some.inj hpc)
    · cases hpc
  · rintro hclosed (hcpc | hcpc)
    · simp only [hcpc, Conn.enter, h.shut hclosed, waitForMux_of_closed hclosed,
        Option.some.injEq] at hpc
      exact Or.inr hpc.symm
    · rw [hcpc] at hpc
      cases hpc

/-- A wait that ends. -/
theorem effect_leave {i : ℕ} {out : ℕ → Option CallPc}
    (hout : ∀ ch ch', out ch ≠ some (.parked ch')) (hx : x.setCall i (Conn.leave out) = some x') :
    Effect x x' := by
  obtain ⟨c, hc, hx⟩ := Option.bind_eq_some_iff.1 hx
  obtain ⟨pc, hpc, rfl⟩ := Option.map_eq_some_iff.1 hx
  refine .call hc ?_ ?_
  · rintro ch rfl
    cases hcpc : c.pc <;> simp only [hcpc, Conn.leave, reduceCtorEq] at hpc
    exact absurd hpc (hout _ _)
  · rintro - (hcpc | hcpc)
    · rw [hcpc] at hpc
      cases hpc
    · rw [hcpc] at hpc
      cases hpc

theorem effect_of_step {a : Act} (h : Inv x) (hx : x.step a = some x') : Effect x x' := by
  cases a with
  | install =>
      simp only [Conn.step] at hx
      split at hx
      · obtain rfl := Option.some.inj hx
        split_ifs with hclosed
        · exact .quiet rfl rfl rfl rfl id
        · exact .broadcast rfl rfl rfl id
      · cases hx
  | close =>
      obtain rfl := Option.some.inj hx
      unfold Conn.close
      split_ifs with hclosed
      · exact .quiet rfl rfl rfl rfl id
      · exact .broadcast rfl rfl rfl fun _ => rfl
  | newStream =>
      obtain rfl := Option.some.inj hx
      refine .start fun hlate => h.closers fun hnil => ?_
      rw [hnil] at hlate
      cases hlate
  | enter i => exact effect_enter h hx
  | wake i =>
      refine effect_leave (fun ch ch' => ?_) hx
      split_ifs <;> simp
  | ctxDone i e => exact effect_leave (fun ch ch' => by simp) hx
  | refuse i =>
      refine effect_leave (fun ch ch' => ?_) hx
      split_ifs <;> simp
  | die r =>
      obtain rfl := Option.some.inj hx
      exact .quiet rfl rfl rfl rfl id
  | drop =>
      simp only [Conn.step] at hx
      split at hx
      · obtain rfl := Option.some.inj hx
        split_ifs
        · exact .quiet rfl rfl rfl rfl id
        · exact .quiet rfl rfl rfl rfl fun _ => rfl
      · cases hx
  | seeDone =>
      simp only [Conn.step] at hx
      split at hx
      · split_ifs at hx
        obtain rfl := Option.some.inj hx
        exact .quiet rfl rfl rfl rfl id
      · cases hx
  | closeMux i =>
      simp only [Conn.step] at hx
      split at hx
      · rename_i m _
        obtain rfl := Option.some.inj hx
        cases m <;> exact .quiet rfl rfl rfl rfl id
      · cases hx
  | read =>
      simp only [Conn.step] at hx
      split at hx
      · obtain rfl := Option.some.inj hx
        exact .quiet rfl rfl rfl rfl id
      · obtain rfl := Option.some.inj hx
        exact .quiet rfl rfl rfl rfl id
      · cases hx
  | seeClose =>
      simp only [Conn.step] at hx
      split at hx
      · obtain rfl := Option.some.inj hx
        exact .quiet rfl rfl rfl rfl id
      · obtain rfl := Option.some.inj hx
        exact .quiet rfl rfl rfl rfl id
      · obtain rfl := Option.some.inj hx
        exact .quiet rfl rfl rfl rfl id
      · cases hx
  | dial =>
      simp only [Conn.step] at hx
      split at hx
      · obtain rfl := Option.some.inj hx
        exact .quiet rfl rfl rfl rfl id
      · cases hx
  | dialOk =>
      simp only [Conn.step] at hx
      split at hx
      · obtain rfl := Option.some.inj hx
        exact .quiet rfl rfl rfl rfl id
      · cases hx
  | dialErr =>
      simp only [Conn.step] at hx
      split at hx
      · obtain rfl := Option.some.inj hx
        exact .quiet rfl rfl rfl rfl id
      · cases hx
  | timer =>
      simp only [Conn.step] at hx
      split at hx
      · obtain rfl := Option.some.inj hx
        exact .quiet rfl rfl rfl rfl id
      · cases hx
  | discard =>
      simp only [Conn.step] at hx
      split at hx
      · obtain rfl := Option.some.inj hx
        exact .quiet rfl rfl rfl rfl id
      · cases hx

/-- A broadcast closes the channel everybody may wait on. -/
theorem Answers.broadcast {y : Conn} (h : Answers x) (hcalls : y.calls = x.calls)
    (hchans : y.chans = x.chans) (hwait : y.waitCh = x.waitCh)
    (hclosed : x.closed = true → y.closed = true) : Answers y.broadcastLocked where
  newest := by
    simp [Conn.broadcastLocked]
  fresh := by
    simp [Conn.broadcastLocked]
  heard c hc ch hpc := by
    have hlt : x.waitCh < x.chans.length := by
      rw [h.newest]
      exact Nat.lt_succ_self _
    refine Or.inl ?_
    show (y.chans.set y.waitCh true ++ [false])[ch]? = some true
    rw [hchans, hwait]
    rcases h.heard c (by rw [← hcalls]; exact hc) ch hpc with hch | ⟨rfl, -, -⟩
    · have hlt' := (List.getElem?_eq_some_iff.1 hch).1
      rw [List.getElem?_append_left (by rw [List.length_set]; exact hlt'), List.getElem?_set]
      split_ifs
      · rfl
      · exact hch
    · rw [List.getElem?_append_left (by rw [List.length_set]; exact hlt),
        List.getElem?_set_self hlt]
  late c hc hl := by
    obtain ⟨hcl, hpc⟩ := h.late c (by rw [← hcalls]; exact hc) hl
    exact ⟨hclosed hcl, hpc⟩

/-- **One step** forgets no call. -/
theorem Answers.effect (h : Answers x) (he : Effect x x') : Answers x' := by
  cases he with
  | quiet hcalls hchans hwait hclosed hmux =>
      refine
        { newest := by rw [hchans, hwait]; exact h.newest
          fresh := by rw [hchans, hwait]; exact h.fresh
          heard := fun c hc ch hpc => ?_
          late := fun c hc hl => ?_ }
      · rw [hcalls] at hc
        rcases h.heard c hc ch hpc with hch | ⟨hch, hnone, hopen⟩
        · exact Or.inl (by rw [hchans]; exact hch)
        · exact Or.inr ⟨hch.trans hwait.symm, hmux hnone, hclosed.trans hopen⟩
      · rw [hcalls] at hc
        rw [hclosed]
        exact h.late c hc hl
  | broadcast hcalls hchans hwait hclosed => exact h.broadcast hcalls hchans hwait hclosed
  | @call i c pc hc hparked hrefused =>
      refine
        { newest := h.newest
          fresh := h.fresh
          heard := fun d hd ch hch => ?_
          late := fun d hd hl => ?_ }
      · rcases List.mem_or_eq_of_mem_set hd with hd | rfl
        · exact h.heard d hd ch hch
        · exact hparked ch hch
      · rcases List.mem_or_eq_of_mem_set hd with hd | rfl
        · exact h.late d hd hl
        · obtain ⟨hclosed, hcpc⟩ := h.late c (List.mem_of_getElem? hc) hl
          exact ⟨hclosed, hrefused hclosed hcpc⟩
  | start hlate =>
      refine
        { newest := h.newest
          fresh := h.fresh
          heard := fun d hd ch hch => ?_
          late := fun d hd hl => ?_ }
      · rcases List.mem_append.1 hd with hd | hd
        · exact h.heard d hd ch hch
        · rw [List.mem_singleton.1 hd] at hch
          cases hch
      · rcases List.mem_append.1 hd with hd | hd
        · exact h.late d hd hl
        · obtain rfl := List.mem_singleton.1 hd
          exact ⟨hlate hl, Or.inl rfl⟩

/-- A closed connection stays closed. -/
theorem Effect.closed (he : Effect x x') (h : x.closed = true) : x'.closed = true := by
  cases he with
  | quiet _ _ _ hclosed _ => exact hclosed.trans h
  | broadcast _ _ _ hclosed => exact hclosed h
  | call => exact h
  | start => exact h

/-! ## Whole runs -/

theorem inv_of_reach (h : Reach Conn.step Always {} x) : Inv x ∧ Answers x := by
  refine h.invariant (P := fun x => Inv x ∧ Answers x) ⟨inv_start, answers_start⟩ ?_
  rintro x a x' ⟨hi, ha⟩ - hx
  exact ⟨inv_step hi hx, ha.effect (effect_of_step hi hx)⟩

theorem closed_of_reach (hi : Inv x) (hclosed : x.closed = true) {y : Conn}
    (h : Reach Conn.step Always x y) : Inv y ∧ y.closed = true := by
  refine h.invariant (P := fun y => Inv y ∧ y.closed = true) ⟨hi, hclosed⟩ ?_
  rintro y a y' ⟨hi, hc⟩ - hy
  exact ⟨inv_step hi hy, (effect_of_step hi hy).closed hc⟩

/-- Where `run` has a mux in its hands, nobody else has one. -/
theorem Inv.alone (h : Inv x) (hr : x.run.holds = some r) :
    x.mux = none ∧ ∀ q, .closing (some q) ∉ x.closers := by
  have hrun := h.run
  have htaken := h.taken
  cases hpc : x.run with
  | dialed q =>
      rw [hpc] at hrun htaken
      exact ⟨hrun, fun q hq => nomatch htaken q hq⟩
  | discard q =>
      rw [hpc] at hrun htaken
      exact ⟨h.shut hrun, fun q hq => nomatch htaken q hq⟩
  | _ =>
      rw [hpc] at hr
      cases hr

/-- A `Close` that has taken a mux has left none. -/
theorem Inv.mux_of_closing (h : Inv x) (hr : .closing (some r) ∈ x.closers) : x.mux = none :=
  h.shut (h.closers (List.ne_nil_of_mem hr))

/-- One mux at most is open: those who may have one exclude each other. -/
theorem Inv.single (h : Inv x) {r r' : Ref} (hr : Placed x r) (hr' : Placed x r') : r = r' := by
  rcases hr with hr | hr | hr
  · rcases hr' with hr' | hr' | hr'
    · exact Option.some.inj (hr.symm.trans hr')
    · rw [(h.alone hr').1] at hr
      cases hr
    · rw [h.mux_of_closing hr'] at hr
      cases hr
  · rcases hr' with hr' | hr' | hr'
    · rw [(h.alone hr).1] at hr'
      cases hr'
    · exact Option.some.inj (hr.symm.trans hr')
    · exact absurd hr' ((h.alone hr).2 r')
  · rcases hr' with hr' | hr' | hr'
    · rw [h.mux_of_closing hr] at hr'
      cases hr'
    · exact absurd hr ((h.alone hr').2 r)
    · obtain ⟨i, hi⟩ := List.mem_iff_getElem?.1 hr
      obtain ⟨j, hj⟩ := List.mem_iff_getElem?.1 hr'
      obtain rfl : i = j := (h.first i _ hi).trans (h.first j _ hj).symm
      have heq := Option.some.inj (hi.symm.trans hj)
      exact Option.some.inj (ClosePc.closing.inj heq)

/-! ## Safety -/

/-- What a client can rely on. -/
structure Safe (x : Conn) : Prop where
  /-- Once a `Close` has returned, no mux is installed, now or later. -/
  shut : .returned ∈ x.closers → ∀ y, Reach Conn.step Always x y → y.mux = none
  /-- A mux is installed, in the hands of `run` before its install, terminated, closed, or
  in the hands of a `Close` that has not returned. -/
  placed : ∀ (r : Ref) (m : Sock), x.muxes[r]? = some m →
    x.mux = some r ∨ x.run.holds = some r ∨ m.terminated = true ∨ m.closed = true ∨
      .closing (some r) ∈ x.closers
  /-- One mux at most has not terminated, installed or not. -/
  single : ∀ (r r' : Ref) (m m' : Sock), x.muxes[r]? = some m → x.muxes[r']? = some m' →
    m.terminated = false → m'.terminated = false → r = r'
  /-- A `NewStream` that starts after a `Close` has returned does not wait: the next thing it
  does is to fail with Unavailable. -/
  refused : ∀ (i : ℕ) (c : Call), x.calls[i]? = some c → c.late = true →
    c.pc = .failed connClosedErr ∨ (c.pc = .called ∧
      (x.step (.enter i)).bind (fun y => (y.calls[i]?).map Call.pc) = some (.failed connClosedErr))
  /-- Nobody waits on a channel that is not closed while there is a mux or the connection is
  closed. -/
  heard : ∀ c ∈ x.calls, ∀ ch, c.pc = .parked ch → x.mux ≠ none ∨ x.closed = true →
    x.chans[ch]? = some true

/-- **The reconnecting client is safe**, in every state that any interleaving reaches. -/
theorem safe_of_reach (h : Reach Conn.step Always {} x) : Safe x := by
  obtain ⟨hi, ha⟩ := inv_of_reach h
  refine
    { shut := fun hret y hy => ?_
      placed := fun r m hm => ?_
      single := fun r r' m m' hm hm' hopen hopen' => ?_
      refused := fun i c hc hl => ?_
      heard := fun c hc ch hpc hready => ?_ }
  · obtain ⟨hi', hclosed⟩ := closed_of_reach hi (hi.closers (List.ne_nil_of_mem hret)) hy
    exact hi'.shut hclosed
  · by_cases hterm : m.terminated = true
    · exact Or.inr (Or.inr (Or.inl hterm))
    · rcases hi.placed r m hm (Bool.eq_false_iff.2 hterm) with hr | hr | hr
      · exact Or.inl hr
      · exact Or.inr (Or.inl hr)
      · exact Or.inr (Or.inr (Or.inr (Or.inr hr)))
  · exact hi.single (hi.placed r m hm hopen) (hi.placed r' m' hm' hopen')
  · obtain ⟨hclosed, hpc | hpc⟩ := ha.late c (List.mem_of_getElem? hc) hl
    · refine Or.inr ⟨hpc, ?_⟩
      have hlt := (List.getElem?_eq_some_iff.1 hc).1
      have henter : x.enter c.pc = some (.failed connClosedErr) := by
        simp only [hpc, Conn.enter, hi.shut hclosed, waitForMux_of_closed hclosed]
      simp only [Conn.step, Conn.setCall, hc, Option.bind_some, henter, Option.map_some,
        List.getElem?_set_self hlt]
    · exact Or.inl hpc
  · rcases ha.heard c hc ch hpc with hch | ⟨-, hnone, hopen⟩
    · exact hch
    · rcases hready with hmux | hclosed
      · exact absurd hnone hmux
      · rw [hopen] at hclosed
        cases hclosed

/-- The connection is lost, a call waits, a late dial succeeds after `Close` and is
discarded, and a later call is refused. -/
theorem safe_of_reach_late_dial :
    ∃ x, Reach Conn.step Always {} x ∧ Safe x ∧ x.muxes.length = 2 ∧ x.run = .returned ∧
      x.calls.map Call.pc = [.failed connClosedErr, .failed connClosedErr] := by
  obtain ⟨x, hx, hp⟩ := exists_reach_of_exec Conn.step Always {}
    (fun x : Conn => decide (x.muxes.length = 2 ∧ x.run = .returned ∧
      x.calls.map Call.pc = [.failed connClosedErr, .failed connClosedErr]))
    [.read, .die 0, .seeDone, .drop, .newStream, .enter 0, .dial, .close, .closeMux 0, .dialOk,
      .install, .discard, .refuse 0, .newStream, .enter 1] (by decide)
  exact ⟨x, hx, safe_of_reach hx, of_decide_eq_true hp⟩

/-- **A mux between hands.**  `Close` has marked the connection closed and released the
mutex; the mux it found is open, not installed and not in the hands of `run`. -/
theorem mux_between_hands :
    ∃ x, Reach Conn.step Always {} x ∧ x.muxes = [{ terminated := false, closed := false }] ∧
      x.mux = none ∧ x.run.holds = none := by
  obtain ⟨x, hx, hp⟩ := exists_reach_of_exec Conn.step Always {}
    (fun x : Conn => decide (x.muxes = [{ terminated := false, closed := false }] ∧
      x.mux = none ∧ x.run.holds = none)) [.read, .close] (by decide)
  exact ⟨x, hx, of_decide_eq_true hp⟩

end WsProto.Go.Reconnect
