import WsProto.Go.Inbound.Complete

/-!
# The inbound half of a Go stream: what a receive takes

`RecvContext` promises that "a buffered MSG is still delivered first" and that "a
receive that ends with ctx takes nothing".  The read loop appends a message and
signals it in two steps, the signal has one slot, and a receive may be abandoned
by its own context at any moment.

The runs are those of the inbound half, with what is needed to say it recorded
on the side: the payloads `tryDeliver` has appended, and of the latest receive
what the backlog held when it began, what it popped and what credit it returned.

* `Passes` — what a step of anybody but the receiver does to the backlog, and
  `recvStep_cases` — what a step of the receiver does;
* `receive_exact` — the promises hold in every state of every run.
-/

namespace WsProto.Go.Inbound

open Machine

variable {x x' : Inbound}

/-! ## The record of a receive -/

/-- The latest receive. -/
structure Call where
  /-- The oldest buffered payload when it began. -/
  head : Option Payload := none
  /-- The payloads it has removed from the backlog. -/
  taken : List Payload := []
  /-- What it has passed to `returnCredit`. -/
  credited : List ℕ := []
  /-- It has returned its own `ctx.Err()`. -/
  own : Bool := false
  deriving DecidableEq

/-- The messages `tryDeliver` appends in a step. -/
def appendedBy (x : Inbound) : InboundAct → List Frame
  | .route f =>
      if x.registered && routesAsMsg f.kind then
        match x.stream.deliver f with
        | .queued _ => [f]
        | _ => []
      else []
  | _ => []

/-- The receiver is about to call `popRecv`. -/
def pops : RecvPc → Bool
  | .pop | .halfPop | .endedPop | .ctxPop _ => true
  | _ => false

/-- What a step adds to the record of the latest receive. -/
def Call.note (c : Call) (x : Inbound) : InboundAct → Call
  | .recvRawContext _ => { head := x.stream.recvItems.head?.map (·.payload) }
  | .recv =>
      match x.recv with
      | .deliver f => { c with credited := c.credited ++ [f.payload.length] }
      | pc =>
          if pops pc then
            { c with taken := c.taken ++ (x.stream.popRecv.map (·.1.payload)).toList }
          else c
  | .select .callerDone => { c with own := true }
  | _ => c

/-- The inbound half, with the record. -/
structure Watched where
  x : Inbound
  /-- Every payload `tryDeliver` has appended, oldest first. -/
  appended : List Payload := []
  call : Call := {}
  deriving DecidableEq

namespace Watched

def step (w : Watched) (a : InboundAct) : Option Watched :=
  (w.x.step a).map fun x' =>
    { x := x'
      appended := w.appended ++ (w.x.appendedBy a).map (·.payload)
      call := w.call.note w.x a }

def start (server : Bool) (ctxErr : Option CtxErr) (id : UInt32) (method : Text) (W : ℤ) :
    Watched :=
  { x := Inbound.start server ctxErr id method W }

end Watched

/-! ## The steps of the others -/

/-- The steps of the receiver. -/
def byReceiver : InboundAct → Bool
  | .recvRawContext _ | .recv | .select _ => true
  | _ => false

/-- What a step of another party may do to what the receiver reads: it adds `new`
at the end of the backlog, and leaves a token for it. -/
structure Passes (x x' : Inbound) (new : List Frame) : Prop where
  recv : x'.recv = x.recv
  results : x'.results = x.results
  items : x'.stream.recvItems = x.stream.recvItems ++ new
  token : x.stream.recvSignal = true → x'.stream.recvSignal = true
  signals : x'.loop ≠ .signal → new = [] ∧ (x.loop = .signal → x'.stream.recvSignal = true)

/-- A step that touches neither the backlog nor its signal. -/
theorem Passes.of_eq (hrecv : x'.recv = x.recv) (hres : x'.results = x.results)
    (hitems : x'.stream.recvItems = x.stream.recvItems)
    (htoken : x'.stream.recvSignal = x.stream.recvSignal)
    (hloop : x.loop = .signal → x'.loop = .signal) : Passes x x' [] where
  recv := hrecv
  results := hres
  items := by simp [hitems]
  token := by rw [htoken]; exact id
  signals h := ⟨rfl, fun hs => absurd (hloop hs) h⟩

/-- A piece of `failWith` leaves the signal alone. -/
theorem failStep_recvSignal {busy : Bool} {err : GoError} {s : Stream} {pc : FailPc}
    {y : Stream × Option FailPc} (h : pc.step busy err s = some y) :
    y.1.recvSignal = s.recvSignal := by
  obtain ⟨-, rfl⟩ | ⟨-, -, rfl⟩ | ⟨-, rfl⟩ := failStep_cases h <;> rfl

theorem passes_routeMsg (hl : x.loop = .read) (hreg : x.registered = true) {f : Frame}
    (hk : routesAsMsg f.kind = true) : Passes x (x.routeMsg f) (x.appendedBy (.route f)) := by
  cases hd : x.stream.deliver f with
  | dropped =>
      simp only [appendedBy, routeMsg, hreg, hk, hd]
      exact .of_eq rfl rfl rfl rfl id
  | «over» =>
      simp only [appendedBy, routeMsg, hreg, hk, hd]
      exact .of_eq rfl rfl rfl rfl (by simp [hl])
  | queued s =>
      simp only [appendedBy, routeMsg, hreg, hk, hd]
      obtain rfl := deliver_queued hd
      -- the append, with the signal still to come
      exact ⟨rfl, rfl, rfl, id, fun h => absurd rfl h⟩

theorem appendedBy_of_not_msg {f : Frame} (h : routesAsMsg f.kind = false) :
    x.appendedBy (.route f) = [] := by simp [appendedBy, h]

theorem passes_route (hl : x.loop = .read) (f : Frame) :
    Passes x (x.route f) (x.appendedBy (.route f)) := by
  cases hreg : x.registered with
  | false =>
      simp only [route, appendedBy, hreg]
      exact .of_eq rfl rfl rfl rfl id
  | true =>
      have hother : routesAsMsg f.kind = false → Passes x (x.route f) [] →
          Passes x (x.route f) (x.appendedBy (.route f)) :=
        fun h hp => (appendedBy_of_not_msg h).symm ▸ hp
      cases hk : f.kind with
      | kindOpen | kindHalfClose =>
          refine hother (by simp [hk, routesAsMsg]) ?_
          simp only [route, hreg, hk, if_true]
          exact .of_eq rfl rfl rfl rfl id
      | kindWindowUpdate =>
          refine hother (by simp [hk, routesAsMsg]) ?_
          simp only [route, hreg, hk, if_true, Stream.creditSend]
          split <;> exact .of_eq rfl rfl rfl rfl id
      | kindHeader =>
          refine hother (by simp [hk, routesAsMsg]) ?_
          simp only [route, hreg, hk, if_true]
          cases x.server <;> exact .of_eq rfl rfl rfl rfl id
      | kindEnd | kindRst =>
          refine hother (by simp [hk, routesAsMsg]) ?_
          simp only [route, hreg, hk, if_true]
          split <;> exact .of_eq rfl rfl rfl rfl (by simp [hl])
      | _ =>
          have hmsg : x.route f = x.routeMsg f := by simp [route, hreg, hk]
          rw [hmsg]
          exact passes_routeMsg hl hreg (by simp [routesAsMsg, hk])

theorem passes_loop (h : x.loopStep = some x') : Passes x x' [] := by
  unfold loopStep at h
  split at h
  · cases h
  · cases h
  · -- the token for the message that was appended
    cases h
    exact ⟨rfl, rfl, by simp [Stream.signalRecv], fun _ => rfl, fun _ => ⟨rfl, fun _ => rfl⟩⟩
  · rename_i hpc
    cases h
    exact .of_eq rfl rfl rfl rfl (by simp [hpc])
  · rename_i hpc
    cases h
    exact .of_eq rfl rfl rfl rfl (by simp [hpc])
  · rename_i pc hpc
    obtain ⟨y, hy, rfl⟩ := Option.map_eq_some_iff.1 h
    have hitems := (failStep_view hy).1
    have htoken := failStep_recvSignal hy
    split <;> exact .of_eq rfl rfl hitems htoken (by simp [hpc])
  · rename_i closed pc hpc
    obtain ⟨y, hy, rfl⟩ := Option.map_eq_some_iff.1 h
    have hitems := (failStep_view hy).1
    have htoken := failStep_recvSignal hy
    split <;> exact .of_eq rfl rfl hitems htoken (by simp [hpc])

theorem passes_ender (h : x.enderStep = some x') : Passes x x' [] := by
  unfold enderStep at h
  split at h
  · cases h
  · cases h
  · obtain ⟨y, hy, rfl⟩ := Option.map_eq_some_iff.1 h
    have hitems := (failStep_view hy).1
    have htoken := failStep_recvSignal hy
    split <;> exact .of_eq rfl rfl hitems htoken id
  · cases h
    exact .of_eq rfl rfl rfl rfl id

/-- **The others only add to the backlog.** -/
theorem passes_of_step {a : InboundAct} (ha : byReceiver a = false) (h : x.step a = some x') :
    Passes x x' (x.appendedBy a) := by
  cases a with
  | route f =>
      obtain ⟨hl, ⟨⟩⟩ := Option.ite_none_right_eq_some.1 h
      exact passes_route hl f
  | loop => exact passes_loop h
  | connLost closed =>
      obtain ⟨hl, ⟨⟩⟩ := Option.ite_none_right_eq_some.1 h
      exact .of_eq rfl rfl rfl rfl (by simp [hl])
  | callEnd st =>
      obtain ⟨-, ⟨⟩⟩ := Option.ite_none_right_eq_some.1 h
      exact .of_eq rfl rfl rfl rfl id
  | ender => exact passes_ender h
  | expire e => cases h; exact .of_eq rfl rfl rfl rfl id
  | callerDone e => cases h; exact .of_eq rfl rfl rfl rfl id
  | recvRawContext ctx => cases ha
  | recv => cases ha
  | select c => cases ha

/-! ## The steps of the receiver -/

/-- The receiver holds no message, and is inside a receive. -/
def looking : RecvPc → Bool
  | .idle | .deliver _ => false
  | _ => true

@[simp] theorem inHand_idle : inHand .idle = [] := rfl

@[simp] theorem inHand_deliver (f : Frame) : inHand (.deliver f) = [f.payload] := rfl

theorem inHand_of_looking {pc : RecvPc} (h : looking pc = true) : inHand pc = [] := by
  cases pc <;> simp_all [looking, inHand]

/-- What a step of the receiver is: it takes the oldest message, gives its caller
the one it holds, or finds nothing to take and goes on or returns an error. -/
inductive RecvMove (x x' : Inbound) : Prop
  | take (f : Frame) (hpop : pops x.recv = true)
      (hitems : x.stream.recvItems = f :: x'.stream.recvItems) (hrecv : x'.recv = .deliver f)
      (hres : x'.results = x.results)
  | give (f : Frame) (hpc : x.recv = .deliver f) (hitems : x'.stream.recvItems = x.stream.recvItems)
      (hrecv : x'.recv = .idle) (hres : x'.results = x.results ++ [.ok f.payload])
  | go (hlook : looking x.recv = true) (hnone : pops x.recv = true → x.stream.recvItems = [])
      (hitems : x'.stream.recvItems = x.stream.recvItems) (hrecv : looking x'.recv = true)
      (hres : x'.results = x.results) (hselect : x'.recv = .select → x.recv = .pop)
  | fail (e : GoError) (hlook : looking x.recv = true)
      (hnone : pops x.recv = true → x.stream.recvItems = [])
      (hitems : x'.stream.recvItems = x.stream.recvItems) (hrecv : x'.recv = .idle)
      (hres : x'.results = x.results ++ [.error e])

/-- A `popRecv`: it takes, or the receive goes on as if it had not been there. -/
theorem RecvMove.popOr {o : Inbound} (hpop : pops x.recv = true)
    (ho : x.stream.recvItems = [] → RecvMove x o) : RecvMove x (x.popOr o) := by
  obtain ⟨hnil, he⟩ | ⟨f, rest, hitems, he⟩ := popOr_cases x o
  · rw [he]; exact ho hnil
  · rw [he]; exact .take f hpop hitems rfl rfl

theorem recvStep_cases (h : x.recvStep = some x') : RecvMove x x' := by
  unfold recvStep at h
  split at h
  · cases h
  · cases h
  · rename_i hpc
    cases h
    exact .popOr (by simp [hpc, pops]) fun hnil =>
      .go (by simp [hpc, looking]) (fun _ => hnil) rfl rfl rfl fun _ => hpc
  · rename_i hpc
    cases h
    exact .popOr (by simp [hpc, pops]) fun hnil =>
      .fail _ (by simp [hpc, looking]) (fun _ => hnil) rfl rfl rfl
  · rename_i hpc
    cases h
    exact .popOr (by simp [hpc, pops]) fun hnil =>
      .go (by simp [hpc, looking]) (fun _ => hnil) rfl rfl rfl nofun
  · rename_i hpc
    split at h
    · cases h
      exact .go (by simp [hpc, looking]) (by simp [hpc, pops]) rfl rfl rfl nofun
    · split at h
      · cases h
        exact .go (by simp [hpc, looking]) (by simp [hpc, pops]) rfl rfl rfl nofun
      · cases h
        exact .fail _ (by simp [hpc, looking]) (by simp [hpc, pops]) rfl rfl rfl
  · rename_i hpc
    cases h
    exact .fail _ (by simp [hpc, looking]) (by simp [hpc, pops]) rfl rfl rfl
  · rename_i hpc
    cases h
    exact .go (by simp [hpc, looking]) (by simp [hpc, pops]) rfl rfl rfl nofun
  · rename_i hpc
    cases h
    exact .fail _ (by simp [hpc, looking]) (by simp [hpc, pops]) rfl rfl rfl
  · rename_i hpc
    cases h
    refine .go (by simp [hpc, looking]) (by simp [hpc, pops]) rfl ?_ rfl ?_
    · dsimp only; split <;> rfl
    · dsimp only; split <;> simp
  · rename_i hpc
    cases h
    exact .popOr (by simp [hpc, pops]) fun hnil =>
      .fail _ (by simp [hpc, looking]) (fun _ => hnil) rfl rfl rfl
  · rename_i f hpc
    cases h
    obtain ⟨p, hp⟩ := x.stream.returnCredit_fst f.payload.length
    exact .give f hpc (by simp [finish, hp]) rfl rfl

/-- A chosen case of the `select` takes nothing. -/
theorem selectStep_cases {c : Case} (h : x.selectStep c = some x') :
    x'.stream.recvItems = x.stream.recvItems ∧
    ((c ≠ .callerDone ∧ looking x'.recv = true ∧ x'.recv ≠ .select ∧ x'.results = x.results) ∨
     (c = .callerDone ∧ x'.recv = .idle ∧ ∃ e, x'.results = x.results ++ [.error (.ctx e)])) := by
  cases c with
  | recvSignal =>
      obtain ⟨-, ⟨⟩⟩ := Option.ite_none_right_eq_some.1 h
      exact ⟨rfl, .inl ⟨nofun, rfl, nofun, rfl⟩⟩
  | halfClosed =>
      obtain ⟨-, ⟨⟩⟩ := Option.ite_none_right_eq_some.1 h
      exact ⟨rfl, .inl ⟨nofun, rfl, nofun, rfl⟩⟩
  | ended =>
      obtain ⟨-, ⟨⟩⟩ := Option.ite_none_right_eq_some.1 h
      exact ⟨rfl, .inl ⟨nofun, rfl, nofun, rfl⟩⟩
  | ctxDone =>
      obtain ⟨e, -, rfl⟩ := Option.map_eq_some_iff.1 h
      exact ⟨rfl, .inl ⟨nofun, rfl, nofun, rfl⟩⟩
  | callerDone =>
      obtain ⟨e, -, rfl⟩ := Option.map_eq_some_iff.1 h
      exact ⟨rfl, .inr ⟨rfl, rfl, e, rfl⟩⟩

/-! ## The invariant -/

namespace Watched

variable {w w' : Watched}

/-- What holds of the latest receive and of the messages so far. -/
structure Exact (w : Watched) : Prop where
  /-- What was appended was returned, is in the receiver's hand, or waits. -/
  all : w.appended = w.x.offered
  /-- No wake-up is missed. -/
  parked : w.x.recv = .select → w.x.loop ≠ .signal →
    w.x.stream.recvItems = [] ∨ w.x.stream.recvSignal = true
  /-- A receive that holds nothing has touched nothing. -/
  untouched : looking w.x.recv = true → w.call.taken = [] ∧ w.call.credited = []
  own : w.call.own = true → w.x.recv = .idle ∧
    (∃ e, w.x.results.getLast? = some (.error (.ctx e))) ∧
    w.call.taken = [] ∧ w.call.credited = []
  /-- A receive that began with a message buffered is on its way to return it. -/
  head : ∀ p, w.call.head = some p →
    (w.x.recv = .pop ∧ w.x.stream.recvItems.head?.map (·.payload) = some p) ∨
    (∃ f, w.x.recv = .deliver f ∧ f.payload = p) ∨
    (w.x.recv = .idle ∧ w.x.results.getLast? = some (.ok p))

theorem exact_start (server : Bool) (ctxErr : Option CtxErr) (id : UInt32) (method : Text)
    (W : ℤ) : Exact (start server ctxErr id method W) := by
  constructor <;> simp [start, Inbound.start, newStream, offered, inHand, looking]

/-- The record of the latest receive is the receiver's own. -/
theorem note_of_not_byReceiver (c : Call) (x : Inbound) {a : InboundAct}
    (ha : byReceiver a = false) : c.note x a = c := by
  cases a <;> first | rfl | cases ha

theorem appendedBy_of_byReceiver (x : Inbound) {a : InboundAct} (ha : byReceiver a = true) :
    x.appendedBy a = [] := by
  cases a <;> first | rfl | cases ha

/-- Another party moves. -/
theorem Exact.passes (hi : Exact w) {new : List Frame} (hp : Passes w.x x' new) :
    Exact { w with x := x', appended := w.appended ++ new.map (·.payload) } where
  all := by
    simp only [offered, hp.results, hp.recv, hp.items, hi.all, List.map_append, List.append_assoc]
  parked hpc hl := by
    obtain ⟨rfl, hsig⟩ := hp.signals hl
    have hpc' : w.x.recv = .select := hp.recv ▸ hpc
    by_cases hs : w.x.loop = .signal
    · exact Or.inr (hsig hs)
    · rcases hi.parked hpc' hs with h | h
      · left; simpa [h] using hp.items
      · exact Or.inr (hp.token h)
  untouched h := hi.untouched (hp.recv ▸ h)
  own h := by
    rw [hp.recv, hp.results]
    exact hi.own h
  head p h := by
    rw [hp.recv, hp.results, hp.items]
    -- a message at the end of the backlog does not change its head
    refine (hi.head p h).imp_left fun hpop => ⟨hpop.1, ?_⟩
    cases hitems : w.x.stream.recvItems with
    | nil => simp [hitems] at hpop
    | cons f rest => simpa [hitems] using hpop.2

/-- A receive begins. -/
theorem Exact.enter (hi : Exact w) (hidle : w.x.recv = .idle) (ctx : Option CtxErr) :
    Exact { w with
      x := { w.x with recv := .pop, callerErr := ctx }
      call := w.call.note w.x (.recvRawContext ctx) } where
  all := by simpa [offered, hidle, inHand] using hi.all
  parked := nofun
  untouched _ := ⟨rfl, rfl⟩
  own := nofun
  head _ hp := Or.inl ⟨rfl, hp⟩

/-- The record after a step of the receiver that takes nothing. -/
theorem note_recv_of_looking {c : Call} {x : Inbound} (hlook : looking x.recv = true)
    (hnone : pops x.recv = true → x.stream.recvItems = []) : c.note x .recv = c := by
  have hpop : pops x.recv = true → x.stream.popRecv = none := fun h => by
    simp [Stream.popRecv, hnone h]
  cases hpc : x.recv <;> simp_all [Call.note, looking, pops]

/-- The record after a `popRecv` that found a message. -/
theorem note_recv_of_pops {c : Call} {x : Inbound} {f : Frame} {rest : List Frame}
    (hpop : pops x.recv = true) (hitems : x.stream.recvItems = f :: rest) :
    c.note x .recv = { c with taken := c.taken ++ [f.payload] } := by
  cases hpc : x.recv <;> simp_all [Call.note, pops, Stream.popRecv]

theorem looking_of_pops {pc : RecvPc} (h : pops pc = true) : looking pc = true := by
  cases pc <;> simp_all [looking, pops]

/-- The receive in progress began with nothing buffered, unless it is about to
find it. -/
theorem Exact.head_none (hi : Exact w) (hlook : looking w.x.recv = true)
    (hnone : pops w.x.recv = true → w.x.stream.recvItems = []) : w.call.head = none := by
  rw [Option.eq_none_iff_forall_ne_some]
  intro p hp
  rcases hi.head p hp with ⟨hpc, h⟩ | ⟨f, hpc, -⟩ | ⟨hpc, -⟩
  · simp [hnone (by simp [hpc, pops])] at h
  · simp [hpc, looking] at hlook
  · simp [hpc, looking] at hlook

theorem Exact.own_false (hi : Exact w) (hpc : w.x.recv ≠ .idle) : w.call.own = false := by
  by_contra h
  exact hpc (hi.own (by simpa using h)).1

/-- The receiver moves. -/
theorem Exact.recv (hi : Exact w) (hm : RecvMove w.x x') :
    Exact { w with x := x', call := w.call.note w.x .recv } := by
  have hall := hi.all
  cases hm with
  | take f hpop hitems hrecv hres =>
      have hlook := looking_of_pops hpop
      obtain ⟨htaken, hcredit⟩ := hi.untouched hlook
      have hown := hi.own_false (by rintro h; simp [h, looking] at hlook)
      rw [note_recv_of_pops hpop hitems]
      refine ⟨?_, by simp [hrecv], by simp [hrecv, looking], by simp [hown], ?_⟩
      · simpa [offered, inHand_of_looking hlook, hitems, hrecv, hres] using hall
      · intro p hp
        rcases hi.head p hp with ⟨-, h⟩ | ⟨g, hpc, -⟩ | ⟨hpc, -⟩
        · exact Or.inr (Or.inl ⟨f, hrecv, by simpa [hitems] using h⟩)
        · simp [hpc, looking] at hlook
        · simp [hpc, looking] at hlook
  | give f hpc hitems hrecv hres =>
      have hown := hi.own_false (by simp [hpc])
      have hnote : w.call.note w.x .recv =
          { w.call with credited := w.call.credited ++ [f.payload.length] } := by
        simp [Call.note, hpc]
      rw [hnote]
      refine ⟨?_, by simp [hrecv], by simp [hrecv, looking], by simp [hown], ?_⟩
      · simpa [offered, hpc, hitems, hrecv, hres] using hall
      · intro p hp
        rcases hi.head p hp with ⟨h, -⟩ | ⟨g, hg, rfl⟩ | ⟨h, -⟩
        · simp [hpc] at h
        · obtain rfl : f = g := by simpa [hpc] using hg
          exact Or.inr (Or.inr ⟨hrecv, by simp [hres]⟩)
        · simp [hpc] at h
  | go hlook hnone hitems hrecv hres hselect =>
      have hown := hi.own_false (by rintro h; simp [h, looking] at hlook)
      have hhead := hi.head_none hlook hnone
      rw [note_recv_of_looking hlook hnone]
      refine ⟨?_, ?_, fun _ => hi.untouched hlook, by simp [hown], by simp [hhead]⟩
      · simpa [offered, inHand_of_looking hlook, inHand_of_looking hrecv, hitems, hres] using hall
      · -- the receiver parks only after it found the backlog empty
        intro hpc _
        left
        rw [hitems]
        exact hnone (by simp [hselect hpc, pops])
  | fail e hlook hnone hitems hrecv hres =>
      have hown := hi.own_false (by rintro h; simp [h, looking] at hlook)
      have hhead := hi.head_none hlook hnone
      rw [note_recv_of_looking hlook hnone]
      refine ⟨?_, by simp [hrecv], by simp [hrecv, looking], by simp [hown], by simp [hhead]⟩
      simpa [offered, inHand_of_looking hlook, hitems, hrecv, hres] using hall

/-- The receiver's `select` chooses. -/
theorem Exact.select (hi : Exact w) {c : Case} (hpc : w.x.recv = .select)
    (h : w.x.selectStep c = some x') :
    Exact { w with x := x', call := w.call.note w.x (.select c) } := by
  have hall := hi.all
  have hlook : looking w.x.recv = true := by simp [hpc, looking]
  have hhead := hi.head_none hlook (by simp [hpc, pops])
  have hown := hi.own_false (by simp [hpc])
  obtain ⟨hitems, ⟨hc, hrecv, hsel, hres⟩ | ⟨rfl, hrecv, e, hres⟩⟩ := selectStep_cases h
  · have hnote : w.call.note w.x (.select c) = w.call := by
      cases c <;> first | rfl | exact absurd rfl hc
    rw [hnote]
    refine ⟨?_, fun h => absurd h hsel, fun _ => hi.untouched hlook, by simp [hown],
      by simp [hhead]⟩
    simpa [offered, inHand_of_looking hlook, inHand_of_looking hrecv, hitems, hres] using hall
  · have hnote : w.call.note w.x (.select .callerDone) = { w.call with own := true } := rfl
    rw [hnote]
    refine ⟨?_, by simp [hrecv], by simp [hrecv, looking], fun _ => ?_, by simp [hhead]⟩
    · simpa [offered, inHand_of_looking hlook, hitems, hrecv, hres] using hall
    · exact ⟨hrecv, ⟨e, by simp [hres]⟩, hi.untouched hlook⟩

theorem exact_step {a : InboundAct} (hi : Exact w) (h : w.step a = some w') : Exact w' := by
  obtain ⟨x', hx, rfl⟩ := Option.map_eq_some_iff.1 h
  cases ha : byReceiver a with
  | false =>
      rw [note_of_not_byReceiver _ _ ha]
      exact hi.passes (passes_of_step ha hx)
  | true =>
      rw [appendedBy_of_byReceiver _ ha, List.map_nil, List.append_nil]
      cases a with
      | recvRawContext ctx =>
          obtain ⟨hidle, ⟨⟩⟩ := Option.ite_none_right_eq_some.1 hx
          exact hi.enter hidle ctx
      | recv => exact hi.recv (recvStep_cases hx)
      | select c =>
          obtain ⟨hpc, hs⟩ := Option.ite_none_right_eq_some.1 hx
          exact hi.select hpc hs
      | route | loop | connLost | callEnd | ender | expire | callerDone => cases ha

/-! ## Every run -/

/-- The receiver, left alone, returns `p` in at most `n` steps. -/
def Returns (w : Watched) (n : ℕ) (p : Payload) : Prop :=
  ∃ k ≤ n, ∃ w', exec step Always w (List.replicate k .recv) = some w' ∧
    w'.x.recv = .idle ∧ w'.x.results.getLast? = some (.ok p)

theorem step_recv (hx : w.x.recvStep = some x') : ∃ w', w.step .recv = some w' ∧ w'.x = x' :=
  ⟨_, Option.map_eq_some_iff.2 ⟨x', hx, rfl⟩, rfl⟩

theorem returns_deliver {f : Frame} (hpc : w.x.recv = .deliver f) : Returns w 1 f.payload := by
  obtain ⟨x', hx⟩ : ∃ x', w.x.recvStep = some x' := by simp [recvStep, hpc]
  obtain ⟨w', hw, rfl⟩ := step_recv hx
  refine ⟨1, le_rfl, w', by rw [List.replicate_one, exec_always_cons, hw]; rfl, ?_⟩
  cases recvStep_cases hx with
  | take g hpop => simp [hpc, pops] at hpop
  | give g hg hitems hrecv hres =>
      obtain rfl : f = g := by simpa [hpc] using hg
      exact ⟨hrecv, by simp [hres]⟩
  | go hlook => simp [hpc, looking] at hlook
  | fail e hlook => simp [hpc, looking] at hlook

theorem returns_pop {p : Payload} (hpc : w.x.recv = .pop)
    (hp : w.x.stream.recvItems.head?.map (·.payload) = some p) : Returns w 2 p := by
  obtain ⟨x', hx⟩ : ∃ x', w.x.recvStep = some x' := by simp [recvStep, hpc]
  obtain ⟨w₁, hw, rfl⟩ := step_recv hx
  have hne : w.x.stream.recvItems ≠ [] := by rintro h; simp [h] at hp
  cases recvStep_cases hx with
  | take f hpop hitems hrecv hres =>
      -- one step takes the head, the next returns it
      obtain rfl : f.payload = p := by simpa [hitems] using hp
      obtain ⟨k, hk, w', hw', hret⟩ := returns_deliver hrecv
      refine ⟨k + 1, by omega, w', ?_, hret⟩
      rw [List.replicate_succ, exec_always_cons, hw]
      exact hw'
  | give g hg => simp [hpc] at hg
  | go hlook hnone => exact absurd (hnone (by simp [hpc, pops])) hne
  | fail e hlook hnone => exact absurd (hnone (by simp [hpc, pops])) hne

/-- **What a receive takes.**  In every state of every run: the payloads returned
so far begin, in order, the payloads `tryDeliver` appended; a receive that
returned its own `ctx.Err()` removed nothing and returned no credit; a receive
that found a message buffered when it began has returned it, or is at most two
steps of its own from doing so; and a receiver parked in its `select`, with no
message between its append and its signal, has an empty backlog or a token. -/
theorem receive_exact (server : Bool) (ctxErr : Option CtxErr) (id : UInt32) (method : Text)
    (W : ℤ) {w : Watched} (h : Reach step Always (start server ctxErr id method W) w) :
    payloads w.x.results <+: w.appended ∧
    (w.call.own = true → (∃ e, w.x.results.getLast? = some (.error (.ctx e))) ∧
      w.call.taken = [] ∧ w.call.credited = []) ∧
    (∀ p, w.call.head = some p →
      (w.x.recv = .idle → w.x.results.getLast? = some (.ok p)) ∧
      (w.x.recv ≠ .idle → Returns w 2 p)) ∧
    (w.x.recv = .select → w.x.loop ≠ .signal →
      w.x.stream.recvItems = [] ∨ w.x.stream.recvSignal = true) := by
  have hi : Exact w := h.invariant (exact_start server ctxErr id method W)
    fun _ _ _ hi _ hs => exact_step hi hs
  refine ⟨?_, fun ho => (hi.own ho).2, fun p hp => ?_, hi.parked⟩
  · rw [hi.all, offered, List.append_assoc]
    exact List.prefix_append _ _
  · rcases hi.head p hp with ⟨hpc, hitems⟩ | ⟨f, hpc, rfl⟩ | ⟨hpc, hres⟩
    · exact ⟨by simp [hpc], fun _ => returns_pop hpc hitems⟩
    · refine ⟨by simp [hpc], fun _ => ?_⟩
      obtain ⟨k, hk, hrest⟩ := returns_deliver hpc
      exact ⟨k, by omega, hrest⟩
    · exact ⟨fun _ => hres, fun hne => absurd hpc hne⟩

/-- A receive is abandoned by its own deadline while a message is being appended;
the next one, whose context is done from the start, returns the message. -/
theorem receive_exact_abandoned :
    ∃ w, Reach step Always (start true none 1 .empty 4) w ∧
      w.x.results = [.error (.ctx .deadlineExceeded), .ok [7]] ∧ w.appended = [[7], [8]] ∧
      payloads w.x.results <+: w.appended ∧ w.call.head = some [7] ∧
      (w.x.recv = .idle → w.x.results.getLast? = some (.ok [7])) := by
  obtain ⟨w, hw, hp⟩ := exists_reach_of_exec step Always (start true none 1 .empty 4)
    (fun w => decide (w.x.results = [.error (.ctx .deadlineExceeded), .ok [7]] ∧
      w.appended = [[7], [8]] ∧ w.call.head = some [7]))
    [.recvRawContext none, .recv, .route { streamId := 1, kind := .kindMsg, payload := [7] },
      .callerDone .deadlineExceeded, .select .callerDone, .loop, .recvRawContext (some .canceled),
      .route { streamId := 1, kind := .kindMsg, payload := [8] }, .recv, .recv] (by decide)
  simp only [decide_eq_true_eq] at hp
  obtain ⟨hpre, -, hhead, -⟩ := receive_exact true none 1 .empty 4 hw
  exact ⟨w, hw, hp.1, hp.2.1, hpre, hp.2.2, (hhead [7] hp.2.2).1⟩

end Watched

end WsProto.Go.Inbound
