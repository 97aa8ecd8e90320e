import WsProto.Lib.Outbox
import WsProto.Go.Handlers

/-!
# The control writer

The read loop answers an OPEN it rejects, and a stream whose backlog overflowed, with an
RST.  It must never wait for the socket, so `writeCtrl` puts the frame into a channel of
256 and drops it if the channel is full; `ctrlWriter` takes the frames out and writes
them, waiting behind whoever holds the write lock.

The comment at `ctrlBufferSize` says a drop is safe because the affected stream has
failed locally.  That is the side that resets; a rejected OPEN has no stream on this side,
and its client waits for the verdict.

* `outbox_server` — the read loop and the control writer are the producer and the writer of
  an `Outbox` of RST frames;
* `answered_of_room` — with nothing queued and nothing being written every rejection has
  been answered, in every run in which each rejection finds room in the channel, and the
  first one that does not is lost;
* `rejection_unanswered` — 256 rejections behind a stalled write leave the next one
  without an answer for ever.
-/

namespace WsProto.Go.Control

open Machine Handlers

/-! ## The model -/

/-- The RST of an OPEN whose id is registered. -/
def duplicateRst (id : UInt32) : Frame := rstFrame id Code.internal "duplicate stream id"

/-- The RST of an OPEN past the cap. -/
def capRst (id : UInt32) : Frame :=
  rstFrame id Code.resourceExhausted "max concurrent streams exceeded"

/-- The RST of a stream whose backlog overflowed. -/
def overflowRst (id : UInt32) : Frame :=
  rstFrame id Code.resourceExhausted "receive buffer overflow"

/-- A server with its control writer. -/
structure Conn where
  srv : Server
  /-- The connection has not been lost. -/
  alive : Bool := true
  /-- The frame `ctrlWriter` has taken and not yet written. -/
  writing : Option Frame := none
  /-- The control frames written to the connection. -/
  written : List Frame := []
  /-- Ghost: the RST that is due for every rejected OPEN and every overflow. -/
  rejected : List Frame := []

inductive Act where
  | server (a : Handlers.Act)
  /-- `ctrlWriter` receives from the channel. -/
  | ctrlTake
  /-- Its `write` returns. -/
  | ctrlWritten
  /-- Its `write` fails: the connection is lost. -/
  | ctrlFailed
  /-- The connection is lost, or the context of the mux ends. -/
  | lose

/-- The RST that is due for a step of the server. -/
def due (x : Server) : Handlers.Act → Option Frame
  | .frame f =>
      if f.kind = .kindOpen then
        if x.mux.dupOpen f then some (duplicateRst f.streamId) else none
      else
        match x.mux.find f.streamId with
        | none => none
        | some (_, s) =>
            if (s.onFrame x.mux.server f).overflows then some (overflowRst f.streamId) else none
  | .loop =>
      match x.loop with
      | .capCheck f => if x.mux.overCap then some (capRst f.streamId) else none
      | _ => none
  | _ => none

/-- The step ends the connection. -/
def loses : Handlers.Act → Bool
  | .connLost => true
  | _ => false

namespace Conn

def step (x : Conn) : Act → Option Conn
  | .server a =>
      (x.srv.step a).map fun srv =>
        { x with
          srv
          alive := x.alive && !loses a
          rejected := x.rejected ++ (due x.srv a).toList }
  | .ctrlTake =>
      match x.writing, x.srv.mux.ctrlCh with
      | none, f :: rest =>
          some { x with
            srv := { x.srv with mux := { x.srv.mux with ctrlCh := rest } }, writing := some f }
      | _, _ => none
  | .ctrlWritten =>
      if x.alive then
        x.writing.map fun f => { x with writing := none, written := x.written ++ [f] }
      else none
  | .ctrlFailed => if x.alive then none else some { x with writing := none }
  | .lose => some { x with alive := false }

def start (W N : ℤ) : Conn := { srv := Server.start W N }

/-- The control frames of the connection as an outbox. -/
def outbox (x : Conn) : Outbox Frame :=
  { queue := x.srv.mux.ctrlCh, holding := x.writing, written := x.written, offered := x.rejected }

end Conn

/-- If the connection lives, the channel is empty and no control write is in progress,
then an RST has been written for every rejected OPEN and every overflow. -/
def Answered (x : Conn) : Prop :=
  x.alive = true → x.srv.mux.ctrlCh = [] → x.writing = none →
    ∀ f ∈ x.rejected, ∃ w ∈ x.written, w.kind = .kindRst ∧ w.streamId = f.streamId

/-- The condition on a step: an RST that is due finds room in the channel. -/
def Room (x : Conn) : Act → Prop
  | .server a => x.alive = true → ∀ f ∈ due x.srv a, x.srv.mux.ctrlCh.length < ctrlBufferSize
  | _ => True

instance (x : Conn) : (a : Act) → Decidable (Room x a)
  | .server _ => inferInstanceAs (Decidable (_ → ∀ f ∈ _, _))
  | .ctrlTake | .ctrlWritten | .ctrlFailed | .lose => inferInstanceAs (Decidable True)

/-! ## The read loop offers to the outbox -/

variable {x x' : Conn}

/-- The channel after `writeCtrl`. -/
def pushCtrl (ctrlCh : List Frame) (f : Frame) : List Frame :=
  if ctrlCh.length < ctrlBufferSize then ctrlCh ++ [f] else ctrlCh

theorem writeCtrl_ctrlCh (m : Mux) (f : Frame) : (m.writeCtrl f).ctrlCh = pushCtrl m.ctrlCh f := by
  rw [Mux.writeCtrl, pushCtrl]
  split <;> rfl

theorem ctrlCh_takeFrame (s : Server) (f : Frame) :
    (s.takeFrame f).mux.ctrlCh = (due s (.frame f)).elim s.mux.ctrlCh (pushCtrl s.mux.ctrlCh) := by
  by_cases hopen : f.kind = .kindOpen
  · by_cases hdup : s.mux.dupOpen f = true
    · simp only [Server.takeFrame, due, hopen, hdup, if_true, writeCtrl_ctrlCh]
      rfl
    · simp [Server.takeFrame, due, hopen, hdup]
  · rcases Option.eq_none_or_eq_some (s.mux.find f.streamId) with hfind | ⟨⟨r, t⟩, hfind⟩
    · simp [Server.takeFrame, due, hopen, hfind]
    · cases hon : t.onFrame s.mux.server f with
      | kept t' =>
          simp [Server.takeFrame, due, hopen, hfind, hon, Routed.overflows, Mux.setObj]
      | removed t' =>
          simp [Server.takeFrame, due, hopen, hfind, hon, Routed.overflows, Mux.setObj]
      | overflowed t' =>
          simp only [Server.takeFrame, due, hopen, hfind, hon, Routed.overflows, if_false, if_true,
            writeCtrl_ctrlCh]
          rfl

theorem ctrlCh_loopStep {s s' : Server} (h : s.loopStep = some s') :
    s'.mux.ctrlCh = (due s .loop).elim s.mux.ctrlCh (pushCtrl s.mux.ctrlCh) := by
  unfold Server.loopStep at h
  unfold due
  split at h
  · cases h
  · cases h
  · rename_i f hl
    simp only [hl]
    split_ifs at h ⊢ with hcap
    · cases h; exact writeCtrl_ctrlCh _ _
    · cases h; rfl
  · rename_i f hl; cases h; simp [hl, Mux.register]
  · rename_i r hl; cases h; simp [hl]
  · rename_i id hl; cases h; simp [hl, Mux.remove]

/-- **What a step of the server does to the channel**: an RST that is due is offered to
it, and nothing else changes. -/
theorem ctrlCh_step {s s' : Server} {a : Handlers.Act} (h : s.step a = some s') :
    s'.mux.ctrlCh = (due s a).elim s.mux.ctrlCh (pushCtrl s.mux.ctrlCh) := by
  cases a with
  | frame f =>
      simp only [Server.step] at h
      split_ifs at h
      cases h
      exact ctrlCh_takeFrame s f
  | loop => exact ctrlCh_loopStep h
  | connLost =>
      simp only [Server.step] at h
      split_ifs at h
      cases h
      rfl
  | op r o => obtain ⟨t, -, rfl⟩ := Option.map_eq_some_iff.1 h; rfl
  | callEnd r st => obtain ⟨t, -, rfl⟩ := Option.map_eq_some_iff.1 h; rfl
  | ret r =>
      simp only [Server.step] at h
      split_ifs at h
      obtain ⟨t, -, rfl⟩ := Option.map_eq_some_iff.1 h
      rfl

/-- The outbox after a step of the server. -/
theorem outbox_server {a : Handlers.Act} (h : x.step (.server a) = some x') :
    x'.outbox = (due x.srv a).elim x.outbox (x.outbox.offer ctrlBufferSize) := by
  obtain ⟨srv, hsrv, rfl⟩ := Option.map_eq_some_iff.1 h
  simp only [Conn.outbox, ctrlCh_step hsrv]
  cases due x.srv a with
  | none => simp
  | some f => rfl

/-- Every RST that is due is one. -/
theorem due_kind {s : Server} {a : Handlers.Act} {f : Frame} (h : due s a = some f) :
    f.kind = .kindRst := by
  unfold due at h
  split at h
  · split_ifs at h
    · cases h; rfl
    · split at h
      · cases h
      · split_ifs at h
        cases h; rfl
  · split at h
    · split_ifs at h
      cases h; rfl
    · cases h
  · cases h

/-! ## One step -/

/-- While the connection lives, the outbox has lost nothing. -/
structure Inv (x : Conn) : Prop where
  settled : x.alive = true → x.outbox.Settled
  rst : ∀ f ∈ x.rejected, f.kind = .kindRst

/-- **The read loop and the control writer.**  A step of a connection that is settled and
lives on keeps it settled exactly if it meets the condition. -/
theorem settled_step_iff {a : Act} (hx : x.outbox.Settled) (h : x.step a = some x')
    (halive : x'.alive = true) : x'.outbox.Settled ↔ Room x a := by
  cases a with
  | server a =>
      have hout := outbox_server h
      obtain ⟨srv, -, rfl⟩ := Option.map_eq_some_iff.1 h
      have hx' : x.alive = true := (Bool.and_eq_true_iff.1 halive).1
      rw [hout]
      cases hdue : due x.srv a with
      | none => exact iff_of_true hx fun _ f hf => by rw [hdue] at hf; cases hf
      | some f =>
          have hroom : Room x (.server a) ↔ x.srv.mux.ctrlCh.length < ctrlBufferSize := by
            simp [Room, hx', hdue]
          rw [hroom]
          exact Outbox.settled_offer_iff hx
  | ctrlTake =>
      have htake : x.outbox.take = some x'.outbox := by
        simp only [Conn.step] at h
        split at h
        · rename_i f rest hw hc
          cases h
          simp [Outbox.take, Conn.outbox, hw, hc]
        · cases h
      exact iff_of_true (hx.take htake) trivial
  | ctrlWritten =>
      simp only [Conn.step] at h
      split_ifs at h
      obtain ⟨f, hf, rfl⟩ := Option.map_eq_some_iff.1 h
      exact iff_of_true (hx.finish (by simp [Outbox.finish, Conn.outbox, hf])) trivial
  | ctrlFailed =>
      simp only [Conn.step] at h
      split_ifs at h with hdead
      cases h
      exact absurd halive hdead
  | lose => cases h; cases halive

theorem alive_of_step {a : Act} (h : x.step a = some x') (halive : x'.alive = true) :
    x.alive = true := by
  cases a with
  | server a =>
      obtain ⟨srv, -, rfl⟩ := Option.map_eq_some_iff.1 h
      exact (Bool.and_eq_true_iff.1 halive).1
  | ctrlTake =>
      simp only [Conn.step] at h
      split at h
      · cases h; exact halive
      · cases h
  | ctrlWritten =>
      simp only [Conn.step] at h
      split_ifs at h with ha
      exact ha
  | ctrlFailed =>
      simp only [Conn.step] at h
      split_ifs at h
      cases h; exact halive
  | lose => cases h; cases halive

theorem rejected_step {a : Act} (hx : ∀ f ∈ x.rejected, f.kind = .kindRst)
    (h : x.step a = some x') : ∀ f ∈ x'.rejected, f.kind = .kindRst := by
  cases a with
  | server a =>
      obtain ⟨srv, -, rfl⟩ := Option.map_eq_some_iff.1 h
      intro f hf
      rcases List.mem_append.1 hf with hf | hf
      · exact hx f hf
      · exact due_kind (by simpa using hf)
  | ctrlTake =>
      simp only [Conn.step] at h
      split at h
      · cases h; exact hx
      · cases h
  | ctrlWritten =>
      simp only [Conn.step] at h
      split_ifs at h
      obtain ⟨f, -, rfl⟩ := Option.map_eq_some_iff.1 h
      exact hx
  | ctrlFailed =>
      simp only [Conn.step] at h
      split_ifs at h
      cases h; exact hx
  | lose => cases h; exact hx

theorem inv_step {a : Act} (hi : Inv x) (hroom : Room x a) (h : x.step a = some x') : Inv x' where
  settled halive :=
    (settled_step_iff (hi.settled (alive_of_step h halive)) h halive).2 hroom
  rst := rejected_step hi.rst h

/-! ## Whole runs -/

/-- **Every rejection is answered exactly as long as each finds room.**  In every run in
which each RST that is due finds room in the channel, every rejected OPEN and every
overflow has been answered once the control writer is idle, in the order of the
rejections; and a step keeps the connection's account of its rejections complete exactly
if it meets the condition. -/
theorem answered_of_room (W N : ℤ) :
    ∀ x, Reach Conn.step Room (Conn.start W N) x →
      Answered x ∧
      ∀ a x', x.step a = some x' → x'.alive = true → (x'.outbox.Settled ↔ Room x a) := by
  intro x hr
  have hi : Inv x := by
    refine hr.invariant ?_ fun _ _ _ hi hroom hs => inv_step hi hroom hs
    exact { settled := fun _ => Outbox.settled_empty, rst := fun f hf => by cases hf }
  constructor
  · intro halive hq hw f hf
    have hwritten : x.written = x.rejected := (hi.settled halive).written_eq hq hw
    exact ⟨f, by rw [hwritten]; exact hf, hi.rst f hf, rfl⟩
  · intro a x' h halive
    exact settled_step_iff (hi.settled (alive_of_step h halive)) h halive

/-- A duplicate OPEN, answered. -/
theorem answered_of_room_duplicate :
    ∃ x, Reach Conn.step Room (Conn.start 0 0) x ∧ x.alive = true ∧ x.srv.mux.ctrlCh = [] ∧
      x.writing = none ∧ x.rejected = [duplicateRst 1] ∧
      ∃ w ∈ x.written, w.kind = .kindRst ∧ w.streamId = 1 := by
  obtain ⟨x, hr, hp⟩ := exists_reach_of_exec Conn.step Room (Conn.start 0 0)
    (fun x : Conn => decide (x.alive = true ∧ x.srv.mux.ctrlCh = [] ∧ x.writing = none ∧
      x.rejected = [duplicateRst 1]))
    [.server (.frame { streamId := 1, kind := .kindOpen }), .server .loop, .server .loop,
      .server .loop, .server (.frame { streamId := 1, kind := .kindOpen }), .ctrlTake,
      .ctrlWritten] (by decide)
  obtain ⟨halive, hq, hw, hrej⟩ := of_decide_eq_true hp
  refine ⟨x, hr, halive, hq, hw, hrej, ?_⟩
  exact (answered_of_room 0 0 x hr).1 halive hq hw (duplicateRst 1) (by simp [hrej])

/-! ## A stalled writer -/

/-- An OPEN with the id. -/
def openFrame (id : UInt32) : Frame := { streamId := id, kind := .kindOpen }

/-- A server at its cap with stream 1 registered, whose control writer has not moved:
`n` answers to a repeated OPEN wait in the channel. -/
structure Stalled (n : ℕ) (x : Conn) : Prop where
  alive : x.alive = true
  loop : x.srv.loop = .read
  idle : x.writing = none
  registered : x.srv.mux.dupOpen (openFrame 1) = true
  free : x.srv.mux.dupOpen (openFrame 3) = false
  full : x.srv.mux.overCap = true
  queue : x.srv.mux.ctrlCh = List.replicate n (duplicateRst 1)
  written : x.written = []

/-- The OPEN is repeated once more. -/
theorem stalled_succ {n : ℕ} (h : Stalled n x) (hn : n < ctrlBufferSize) :
    ∃ x', Reach Conn.step Always x x' ∧ Stalled (n + 1) x' := by
  have htake : x.srv.takeFrame (openFrame 1) =
      { x.srv with mux := x.srv.mux.writeCtrl (duplicateRst 1) } := by
    simp only [Server.takeFrame, h.registered, if_true]
    rfl
  have hstep : x.step (.server (.frame (openFrame 1))) =
      some { x with
        srv := { x.srv with mux := x.srv.mux.writeCtrl (duplicateRst 1) }
        alive := x.alive && true
        rejected := x.rejected ++ (due x.srv (.frame (openFrame 1))).toList } := by
    simp only [Conn.step, Server.step, h.loop, if_true, htake, Option.map_some]
    rfl
  refine ⟨_, Reach.refl.tail trivial hstep, ?_⟩
  have hqueue : (x.srv.mux.writeCtrl (duplicateRst 1)).ctrlCh =
      List.replicate (n + 1) (duplicateRst 1) := by
    simp [writeCtrl_ctrlCh, pushCtrl, h.queue, hn, List.replicate_succ']
  exact {
    alive := by simp [h.alive]
    loop := h.loop
    idle := h.idle
    registered := by simpa [Mux.dupOpen] using h.registered
    free := by simpa [Mux.dupOpen] using h.free
    full := by simpa [Mux.overCap] using h.full
    queue := hqueue
    written := h.written }

theorem stalled_full (h : Stalled 0 x) (n : ℕ) (hn : n ≤ ctrlBufferSize) :
    ∃ x', Reach Conn.step Always x x' ∧ Stalled n x' := by
  induction n with
  | zero => exact ⟨x, .refl, h⟩
  | succ n ih =>
      obtain ⟨y, hy, hstalled⟩ := ih (by omega)
      obtain ⟨x', hx', hstalled'⟩ := stalled_succ hstalled hn
      exact ⟨x', hy.trans hx', hstalled'⟩

/-- With the channel full, the verdict on another OPEN is dropped. -/
theorem stalled_drop (h : Stalled ctrlBufferSize x) :
    ∃ x', Reach Conn.step Always x x' ∧ x'.alive = true ∧ x'.writing = none ∧
      x'.srv.mux.ctrlCh = List.replicate ctrlBufferSize (duplicateRst 1) ∧ x'.written = [] ∧
      capRst 3 ∈ x'.rejected := by
  have hkind : (openFrame 3).kind = .kindOpen := rfl
  have htake : x.srv.takeFrame (openFrame 3) = { x.srv with loop := .capCheck (openFrame 3) } := by
    simp [Server.takeFrame, hkind, h.free]
  have hdue : due x.srv (.frame (openFrame 3)) = none := by
    simp [due, hkind, h.free]
  have hopen : x.step (.server (.frame (openFrame 3))) =
      some { x with srv := { x.srv with loop := .capCheck (openFrame 3) } } := by
    simp [Conn.step, Server.step, h.loop, htake, hdue, loses]
  have hfull : ∀ f, (x.srv.mux.writeCtrl f) = x.srv.mux := fun f => by
    simp [Mux.writeCtrl, h.queue]
  have hreject : Conn.step { x with srv := { x.srv with loop := .capCheck (openFrame 3) } }
      (.server .loop) =
        some { x with
          srv := { x.srv with loop := .read }, rejected := x.rejected ++ [capRst 3] } := by
    simp [Conn.step, Server.step, Server.loopStep, h.full, hfull, due, loses, openFrame]
  refine ⟨_, (Reach.refl.tail trivial hopen).tail trivial hreject, h.alive, h.idle, h.queue,
    h.written, ?_⟩
  simp

/-- The control writer empties the channel. -/
theorem drain (q : List Frame) : ∀ {x : Conn}, x.alive = true → x.writing = none →
    x.srv.mux.ctrlCh = q →
    ∃ x', Reach Conn.step Always x x' ∧ x'.alive = true ∧ x'.writing = none ∧
      x'.srv.mux.ctrlCh = [] ∧ x'.written = x.written ++ q ∧ x'.rejected = x.rejected := by
  induction q with
  | nil => intro x ha hw hq; exact ⟨x, .refl, ha, hw, hq, by simp, rfl⟩
  | cons f q ih =>
      intro x ha hw hq
      let y : Conn :=
        { x with srv := { x.srv with mux := { x.srv.mux with ctrlCh := q } }, writing := some f }
      have htake : x.step .ctrlTake = some y := by simp [Conn.step, hw, hq, y]
      have hwrite : y.step .ctrlWritten =
          some { y with writing := none, written := x.written ++ [f] } := by
        simp [Conn.step, y, ha]
      obtain ⟨x', hx', ha', hw', hq', hwritten, hrej⟩ :=
        ih (x := { y with writing := none, written := x.written ++ [f] }) ha rfl rfl
      refine ⟨x', ((Reach.refl.tail trivial htake).tail trivial hwrite).trans hx', ha', hw', hq',
        ?_, hrej⟩
      simpa using hwritten

/-- **A rejected OPEN is never answered.**  The connection lives, the channel is empty and
the control writer idle; the OPEN with id 3 was rejected, and no frame with its id has been
written. -/
theorem rejection_unanswered :
    ∃ x, Reach Conn.step Always (Conn.start 0 1) x ∧ x.alive = true ∧ x.srv.mux.ctrlCh = [] ∧
      x.writing = none ∧ capRst 3 ∈ x.rejected ∧ ∀ w ∈ x.written, w.streamId ≠ 3 := by
  obtain ⟨x, hr, hp⟩ := exists_reach_of_exec Conn.step Always (Conn.start 0 1)
    (fun x : Conn => decide (x.alive = true ∧ x.srv.loop = .read ∧ x.writing = none ∧
      x.srv.mux.dupOpen (openFrame 1) = true ∧ x.srv.mux.dupOpen (openFrame 3) = false ∧
      x.srv.mux.overCap = true ∧ x.srv.mux.ctrlCh = [] ∧ x.written = []))
    [.server (.frame (openFrame 1)), .server .loop, .server .loop, .server .loop] (by decide)
  obtain ⟨ha, hl, hw, h1, h3, hcap, hq, hwritten⟩ := of_decide_eq_true hp
  obtain ⟨y, hy, hfull⟩ := stalled_full ⟨ha, hl, hw, h1, h3, hcap, hq, hwritten⟩ ctrlBufferSize le_rfl
  obtain ⟨z, hz, hza, hzw, hzq, hzwritten, hrej⟩ := stalled_drop hfull
  obtain ⟨t, ht, hta, htw, htq, htwritten, htrej⟩ := drain _ hza hzw hzq
  refine ⟨t, ((hr.trans hy).trans hz).trans ht, hta, htq, htw, htrej ▸ hrej, ?_⟩
  intro w hmem
  rw [htwritten, hzwritten] at hmem
  obtain ⟨-, rfl⟩ : _ ∧ w = duplicateRst 1 := by simpa using hmem
  decide

end WsProto.Go.Control
