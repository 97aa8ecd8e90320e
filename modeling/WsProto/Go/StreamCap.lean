import WsProto.Go.Control

/-!
# The cap and a client that respects it

`WithMaxConcurrentStreams(N)` rejects an OPEN while `N` streams are registered.  A client
counts the streams for which it has received neither END nor RST and opens another one
only while they are fewer than `N`.  Both counts follow the same events, but not at the
same time: the handler writes END, then fails its stream, and the last thing it does is
the deferred `remove`.

* `unrefused_of_cleaned` — no OPEN of such a client is refused for the cap, in every run
  in which the read loop checks the cap only when every stream the client has seen the end
  of has left the registry;
* `polite_client_refused` — with one stream allowed, a client that opens the next stream
  when it has received END is refused if its OPEN is routed before the deferred `remove`.
-/

namespace WsProto.Go.StreamCap

open Machine Handlers
open Control (capRst duplicateRst overflowRst due pushCtrl ctrlCh_step)

/-! ## The model -/

/-- A client that respects the cap, its connection, and the server. -/
structure Conn where
  srv : Server
  /-- The handlers that have written END. -/
  ended : List Ref := []
  toServer : List Frame := []
  toClient : List Frame := []
  /-- The ids of the OPENs the client has sent, in order. -/
  opened : List UInt32 := []
  /-- The frames the client has received. -/
  received : List Frame := []

inductive Act where
  /-- The client sends an OPEN. -/
  | openStream (f : Frame)
  /-- The client sends another frame. -/
  | send (f : Frame)
  /-- The client receives a frame. -/
  | deliver
  /-- The read loop takes a frame. -/
  | take
  /-- The read loop goes on inside `route`. -/
  | loop
  | connLost
  /-- A handler works on its stream, or the stream's context ends. -/
  | op (r : Ref) (o : StreamOp)
  /-- `end` of a handler writes END. -/
  | writeEnd (r : Ref) (st : Status)
  /-- `end` fails the stream. -/
  | failEnd (r : Ref) (st : Status)
  /-- The deferred `remove`; the handler returns. -/
  | ret (r : Ref)
  /-- The control writer writes a frame. -/
  | ctrl
  deriving DecidableEq

/-- The ids for which END or RST has arrived. -/
def finished (received : List Frame) : List UInt32 :=
  (received.filter fun f => f.kind = .kindEnd ∨ f.kind = .kindRst).map (·.streamId)

/-- The streams the client counts as open. -/
def live (opened : List UInt32) (received : List Frame) : List UInt32 :=
  opened.filter (· ∉ finished received)

namespace Conn

/-- A step of the server that is not about frames on the wire. -/
def server (x : Conn) (a : Handlers.Act) : Option Conn :=
  (x.srv.step a).map fun srv => { x with srv }

def step (x : Conn) : Act → Option Conn
  | .openStream f =>
      if f.kind = .kindOpen ∧ f.streamId ∉ x.opened ∧
          ((live x.opened x.received).length : ℤ) < x.srv.mux.maxStreams then
        some { x with toServer := x.toServer ++ [f], opened := x.opened ++ [f.streamId] }
      else none
  | .send f =>
      if f.kind = .kindOpen then none else some { x with toServer := x.toServer ++ [f] }
  | .deliver =>
      match x.toClient with
      | [] => none
      | f :: rest => some { x with toClient := rest, received := x.received ++ [f] }
  | .take =>
      match x.toServer with
      | [] => none
      | f :: rest => { x with toServer := rest }.server (.frame f)
  | .loop => x.server .loop
  | .connLost => x.server .connLost
  | .op r o =>
      (x.srv.mux.objs[r]?).bind fun s =>
        { x with toClient := x.toClient ++ (o.run s).2.toList }.server (.op r o)
  | .writeEnd r st =>
      if r ∈ x.srv.running ∧ r ∉ x.ended then
        (x.srv.mux.objs[r]?).map fun s =>
          { x with
            toClient := x.toClient ++ [s.endFrameOf st s.takeTrailer], ended := x.ended ++ [r] }
      else none
  | .failEnd r st => if r ∈ x.ended then x.server (.callEnd r st) else none
  | .ret r => if r ∈ x.ended then x.server (.ret r) else none
  | .ctrl =>
      match x.srv.mux.ctrlCh with
      | [] => none
      | f :: rest =>
          some { x with
            srv := { x.srv with mux := { x.srv.mux with ctrlCh := rest } }
            toClient := x.toClient ++ [f] }

/-- A fresh connection with cap `N`. -/
def start (W N : ℤ) : Conn := { srv := Server.start W N }

end Conn

/-- The read loop is about to check the cap. -/
def checking (x : Server) : Option Frame :=
  match x.loop with
  | .capCheck f => some f
  | _ => none

/-- The condition on a step: the cap is checked only when every stream whose END or RST
the client has received has left the registry. -/
def Cleaned (x : Conn) : Act → Prop
  | .loop => ∀ f ∈ checking x.srv, ∀ e ∈ x.srv.mux.streams.entries, e.1 ∉ finished x.received
  | _ => True

instance (x : Conn) : (a : Act) → Decidable (Cleaned x a)
  | .loop => inferInstanceAs (Decidable (∀ f ∈ _, _))
  | .openStream _ | .send _ | .deliver | .take | .connLost | .op _ _ | .writeEnd _ _ | .failEnd _ _
  | .ret _ | .ctrl => inferInstanceAs (Decidable True)

/-- No OPEN has been answered with the RST of the cap: it is neither queued nor on the
wire nor received. -/
def Unrefused (x : Conn) : Prop :=
  ∀ f ∈ x.received ++ x.toClient ++ x.srv.mux.ctrlCh, ∀ id, f ≠ capRst id

/-! ## The invariant -/

variable {N : ℤ} {x x' : Conn}

/-- The OPEN inside `route` that is not yet registered. -/
def routing : Handlers.LoopPc → List Frame
  | .capCheck f | .register f => [f]
  | .read | .onOpen _ | .remove _ | .exited => []

/-- The OPENs of the client that are neither registered nor refused, in order. -/
def pending (x : Conn) : List UInt32 :=
  (routing x.srv.loop ++ x.toServer.filter (·.kind = .kindOpen)).map (·.streamId)

structure Inv (N : ℤ) (x : Conn) : Prop where
  cap : x.srv.mux.maxStreams = N
  /-- The OPENs are routed in the order they were sent, and what is registered was sent
  before everything that is pending. -/
  order : ∃ routed, x.opened = routed ++ pending x ∧
    ∀ id ∈ x.srv.mux.streams.keys, id ∈ routed
  /-- When an OPEN was sent, fewer than `N` of the earlier ones were open. -/
  polite : ∀ k < x.opened.length, ((live (x.opened.take k) x.received).length : ℤ) < N
  unrefused : Unrefused x

theorem inv_start (W N : ℤ) : Inv N (Conn.start W N) where
  cap := rfl
  order := ⟨[], rfl, fun id h => by cases h⟩
  polite k h := by cases h
  unrefused f h := by cases h

/-- More frames received, fewer streams open. -/
theorem live_length_le (opened : List UInt32) (received : List Frame) (f : Frame) :
    (live opened (received ++ [f])).length ≤ (live opened received).length := by
  refine (List.monotone_filter_right opened fun id hid => ?_).length_le
  simp only [decide_eq_true_eq, finished, List.filter_append, List.map_append, List.mem_append,
    not_or] at hid ⊢
  exact decide_eq_true hid.1

/-- **The cap check.**  The registered streams are among those the client counted when it
sent the OPEN. -/
theorem overCap_eq_false {f : Frame} (hi : Inv N x) (hl : x.srv.loop = .capCheck f)
    (hc : Cleaned x .loop) : x.srv.mux.overCap = false := by
  obtain ⟨routed, hopened, hreg⟩ := hi.order
  have hpend : pending x = f.streamId :: (x.toServer.filter (·.kind = .kindOpen)).map (·.streamId) := by
    simp [pending, hl, routing]
  rw [hpend] at hopened
  have hlive := hi.polite routed.length (by rw [hopened]; simp)
  rw [hopened, List.take_left] at hlive
  have hsub : x.srv.mux.streams.keys ⊆ live routed x.received := by
    intro id hid
    obtain ⟨e, he, rfl⟩ := List.mem_map.1 hid
    have hnot := hc f (by simp [checking, hl]) e he
    exact List.mem_filter.2 ⟨hreg e.1 hid, by simpa using hnot⟩
  have hle : x.srv.mux.streams.keys.length ≤ (live routed x.received).length :=
    (List.subperm_of_subset x.srv.mux.streams.keys_nodup hsub).length_le
  simp only [Mux.overCap, hi.cap, Bool.and_eq_false_iff, decide_eq_false_iff_not]
  right
  omega

/-! ## The frames of the server -/

theorem ne_capRst_of_kind {f : Frame} (h : f.kind ≠ .kindRst) (id : UInt32) : f ≠ capRst id := by
  rintro rfl
  exact h rfl

/-- The other two RSTs differ from that of the cap in code or message. -/
theorem duplicateRst_ne_capRst (i j : UInt32) : duplicateRst i ≠ capRst j := by
  intro h
  have hstatus : (duplicateRst i).status = (capRst j).status := by rw [h]
  revert hstatus
  show ¬ (duplicateRst 0).status = (capRst 0).status
  decide

theorem overflowRst_ne_capRst (i j : UInt32) : overflowRst i ≠ capRst j := by
  intro h
  have hstatus : (overflowRst i).status = (capRst j).status := by rw [h]
  revert hstatus
  show ¬ (overflowRst 0).status = (capRst 0).status
  decide

theorem mem_pushCtrl {l : List Frame} {f g : Frame} (h : f ∈ pushCtrl l g) : f ∈ l ∨ f = g := by
  rw [pushCtrl] at h
  split_ifs at h
  · simpa using h
  · exact Or.inl h

/-- Only a cap check that finds the registry full makes the RST of the cap due. -/
theorem due_ne_capRst {s : Server} {a : Handlers.Act} {g : Frame} (h : due s a = some g)
    (hcap : a = .loop → ∀ f, s.loop = .capCheck f → s.mux.overCap = false) (id : UInt32) :
    g ≠ capRst id := by
  unfold due at h
  split at h
  · split_ifs at h
    · cases h; exact duplicateRst_ne_capRst _ id
    · split at h
      · cases h
      · split_ifs at h
        cases h; exact overflowRst_ne_capRst _ id
  · split at h
    · rename_i f hl
      rw [hcap rfl f hl] at h
      cases h
    · cases h
  · cases h

/-- A step of the server that refuses nobody. -/
theorem Unrefused.server {srv : Server} {a : Handlers.Act} (hx : Unrefused x)
    (hs : x.srv.step a = some srv)
    (hcap : a = .loop → ∀ f, x.srv.loop = .capCheck f → x.srv.mux.overCap = false) :
    Unrefused { x with srv } := by
  intro f hf id
  rcases List.mem_append.1 hf with hf | hf
  · exact hx f (List.mem_append_left _ hf) id
  · have hch : f ∈ srv.mux.ctrlCh := hf
    rw [ctrlCh_step hs] at hch
    cases hdue : due x.srv a with
    | none =>
        rw [hdue] at hch
        exact hx f (List.mem_append_right _ hch) id
    | some g =>
        rw [hdue] at hch
        rcases mem_pushCtrl hch with hf | rfl
        · exact hx f (List.mem_append_right _ hf) id
        · exact due_ne_capRst hdue hcap id

/-- The server writes a frame that is no RST. -/
theorem Unrefused.write (hx : Unrefused x) {fs : List Frame} (hfs : ∀ f ∈ fs, f.kind ≠ .kindRst) :
    Unrefused { x with toClient := x.toClient ++ fs } := by
  intro f hf id
  rcases List.mem_append.1 hf with hf | hf
  · rcases List.mem_append.1 hf with hf | hf
    · exact hx f (List.mem_append_left _ (List.mem_append_left _ hf)) id
    · rcases List.mem_append.1 hf with hf | hf
      · exact hx f (List.mem_append_left _ (List.mem_append_right _ hf)) id
      · exact ne_capRst_of_kind (hfs f hf) id
  · exact hx f (List.mem_append_right _ hf) id

/-! ## One step -/

/-- A step after which the same OPENs are pending and nobody else is registered. -/
theorem Inv.keeps (hi : Inv N x) (hcap : x'.srv.mux.maxStreams = x.srv.mux.maxStreams)
    (hkeys : ∀ id ∈ x'.srv.mux.streams.keys, id ∈ x.srv.mux.streams.keys)
    (hpend : pending x' = pending x) (hopened : x'.opened = x.opened)
    (hrec : x'.received = x.received) (hun : Unrefused x') : Inv N x' where
  cap := hcap.trans hi.cap
  order := by
    obtain ⟨routed, ho, hreg⟩ := hi.order
    exact ⟨routed, by rw [hopened, hpend, ho], fun id hid => hreg id (hkeys id hid)⟩
  polite k hk := by
    rw [hopened] at hk ⊢
    rw [hrec]
    exact hi.polite k hk
  unrefused := hun

/-- A step with which the first pending OPEN is settled: refused, or registered. -/
theorem Inv.settle {id : UInt32} {rest : List UInt32} (hi : Inv N x)
    (hcap : x'.srv.mux.maxStreams = x.srv.mux.maxStreams)
    (hkeys : ∀ i ∈ x'.srv.mux.streams.keys, i = id ∨ i ∈ x.srv.mux.streams.keys)
    (hpend : pending x = id :: rest) (hpend' : pending x' = rest) (hopened : x'.opened = x.opened)
    (hrec : x'.received = x.received) (hun : Unrefused x') : Inv N x' where
  cap := hcap.trans hi.cap
  order := by
    obtain ⟨routed, ho, hreg⟩ := hi.order
    refine ⟨routed ++ [id], by rw [hopened, hpend', ho, hpend]; simp, fun i hid => ?_⟩
    rcases hkeys i hid with rfl | hid
    · simp
    · exact List.mem_append_left _ (hreg i hid)
  polite k hk := by
    rw [hopened] at hk ⊢
    rw [hrec]
    exact hi.polite k hk
  unrefused := hun

theorem mem_keys_erase {m : Mux} {k id : UInt32} (h : id ∈ (m.remove k).streams.keys) :
    id ∈ m.streams.keys := by
  rw [Mux.remove, AList.keys_erase] at h
  exact List.erase_subset h

/-- The client opens a stream. -/
theorem inv_openStream {f : Frame} (hi : Inv N x) (h : x.step (.openStream f) = some x') :
    Inv N x' := by
  simp only [Conn.step] at h
  split_ifs at h with hok
  obtain ⟨hkind, -, hlive⟩ := hok
  cases h
  refine { cap := hi.cap, order := ?_, polite := ?_, unrefused := hi.unrefused }
  · obtain ⟨routed, ho, hreg⟩ := hi.order
    refine ⟨routed, ?_, hreg⟩
    show x.opened ++ [f.streamId] = _
    rw [ho]
    simp [pending, List.filter_append, hkind]
  · intro k hk
    rcases Nat.lt_or_ge k x.opened.length with hlt | hge
    · rw [List.take_append_of_le_length hlt.le]
      exact hi.polite k hlt
    · have hk' : k < (x.opened ++ [f.streamId]).length := hk
      obtain rfl : k = x.opened.length := by
        simp only [List.length_append, List.length_singleton] at hk'
        omega
      rw [List.take_left]
      exact hi.cap ▸ hlive

/-- The client receives a frame. -/
theorem inv_deliver (hi : Inv N x) (h : x.step .deliver = some x') : Inv N x' := by
  simp only [Conn.step] at h
  split at h
  · cases h
  · rename_i f rest hto
    cases h
    refine { cap := hi.cap, order := hi.order, polite := fun k hk => ?_, unrefused := ?_ }
    · have := live_length_le (x.opened.take k) x.received f
      have := hi.polite k hk
      show ((live (x.opened.take k) (x.received ++ [f])).length : ℤ) < N
      omega
    · intro g hg id
      refine hi.unrefused g ?_ id
      rw [hto]
      simpa using hg

/-- The read loop takes a frame. -/
theorem inv_take (hi : Inv N x) (h : x.step .take = some x') : Inv N x' := by
  simp only [Conn.step] at h
  split at h
  · cases h
  · rename_i f rest hto
    obtain ⟨srv, hsrv, rfl⟩ := Option.map_eq_some_iff.1 h
    have hun : Unrefused { x with srv := srv, toServer := rest } :=
      Unrefused.server (x := { x with toServer := rest }) hi.unrefused hsrv fun ha => by cases ha
    simp only [Server.step] at hsrv
    split_ifs at hsrv with hread
    cases hsrv
    obtain ⟨hstreams, -, hmax, -, -, hloop⟩ := Server.takeFrame_spec x.srv f
    have hkeys : ∀ id ∈ (x.srv.takeFrame f).mux.streams.keys, id ∈ x.srv.mux.streams.keys :=
      fun id hid => by rwa [hstreams] at hid
    by_cases hopen : f.kind = .kindOpen
    · cases hdup : x.srv.mux.dupOpen f with
      | false =>
          refine hi.keeps hmax hkeys ?_ rfl rfl hun
          simp [pending, hloop, hopen, hdup, routing, hto, hread]
      | true =>
          have hpend : pending x =
              f.streamId :: (rest.filter (·.kind = .kindOpen)).map (·.streamId) := by
            simp [pending, hread, routing, hto, hopen]
          refine hi.settle hmax (fun i hi => Or.inr (hkeys i hi)) hpend ?_ rfl rfl hun
          simp [pending, hloop, hopen, hdup, routing, hread, Server.leaver]
    · refine hi.keeps hmax hkeys ?_ rfl rfl hun
      rw [pending, pending, hloop, hread, hto]
      simp only [hopen, false_and, if_false]
      split_ifs <;> simp [routing, hopen]

/-- The read loop inside `route`: the cap check passes, and the OPEN is registered. -/
theorem inv_loop (hi : Inv N x) (hc : Cleaned x .loop) (h : x.step .loop = some x') : Inv N x' := by
  obtain ⟨srv, hsrv, rfl⟩ := Option.map_eq_some_iff.1 h
  have hcap : ∀ f, x.srv.loop = .capCheck f → x.srv.mux.overCap = false :=
    fun f hl => overCap_eq_false hi hl hc
  have hun : Unrefused { x with srv } := hi.unrefused.server hsrv fun _ => hcap
  simp only [Server.step, Server.loopStep] at hsrv
  split at hsrv
  · cases hsrv
  · cases hsrv
  · rename_i f hl
    simp only [hcap f hl, Bool.false_eq_true, if_false] at hsrv
    cases hsrv
    exact hi.keeps rfl (fun _ hid => hid) (by simp [pending, hl, routing]) rfl rfl hun
  · rename_i f hl
    cases hsrv
    have hpend : pending x =
        f.streamId :: (x.toServer.filter (·.kind = .kindOpen)).map (·.streamId) := by
      simp [pending, hl, routing]
    refine hi.settle rfl (fun i hid => ?_) hpend (by simp [pending, routing]) rfl rfl hun
    have hmem : i ∈ (x.srv.mux.streams.insert f.streamId x.srv.mux.objs.length).keys := hid
    rw [AList.keys_insert] at hmem
    rcases List.mem_cons.1 hmem with rfl | hmem
    · exact Or.inl rfl
    · exact Or.inr (List.erase_subset hmem)
  · rename_i r hl
    cases hsrv
    exact hi.keeps rfl (fun _ hid => hid) (by simp [pending, hl, routing]) rfl rfl hun
  · rename_i id hl
    cases hsrv
    exact hi.keeps rfl (fun _ hid => mem_keys_erase hid) (by simp [pending, hl, routing]) rfl rfl hun

/-- **One step** that meets the condition. -/
theorem inv_step {a : Act} (hi : Inv N x) (hc : Cleaned x a) (h : x.step a = some x') :
    Inv N x' := by
  cases a with
  | openStream f => exact inv_openStream hi h
  | send f =>
      simp only [Conn.step] at h
      split_ifs at h with hkind
      cases h
      exact hi.keeps rfl (fun _ hid => hid) (by simp [pending, hkind]) rfl rfl hi.unrefused
  | deliver => exact inv_deliver hi h
  | take => exact inv_take hi h
  | loop => exact inv_loop hi hc h
  | connLost =>
      obtain ⟨srv, hsrv, rfl⟩ := Option.map_eq_some_iff.1 h
      have hun : Unrefused { x with srv } := hi.unrefused.server hsrv fun ha => by cases ha
      simp only [Server.step] at hsrv
      split_ifs at hsrv with hread
      cases hsrv
      exact hi.keeps rfl (fun _ hid => by cases hid) (by simp [pending, hread, routing]) rfl rfl hun
  | op r o =>
      obtain ⟨s, hs, h⟩ := Option.bind_eq_some_iff.1 h
      obtain ⟨srv, hsrv, rfl⟩ := Option.map_eq_some_iff.1 h
      have hwrite : Unrefused { x with toClient := x.toClient ++ (o.run s).2.toList } := by
        refine hi.unrefused.write fun f hf => ?_
        have hkind := (o.run_writes s (Option.mem_toList.1 hf)).1
        rcases hkind with hk | hk | hk | hk <;> rw [hk] <;> decide
      have hun := hwrite.server hsrv fun ha => by cases ha
      obtain ⟨t, -, rfl⟩ := Option.map_eq_some_iff.1 hsrv
      exact hi.keeps rfl (fun _ hid => hid) rfl rfl rfl hun
  | writeEnd r st =>
      simp only [Conn.step] at h
      split_ifs at h
      obtain ⟨s, -, rfl⟩ := Option.map_eq_some_iff.1 h
      have hend : ∀ f ∈ [s.endFrameOf st s.takeTrailer], f.kind ≠ .kindRst := by
        intro f hf
        obtain rfl : f = s.endFrameOf st s.takeTrailer := by simpa using hf
        exact fun hk => by cases hk
      exact hi.keeps rfl (fun _ hid => hid) rfl rfl rfl (hi.unrefused.write hend)
  | failEnd r st =>
      simp only [Conn.step] at h
      split_ifs at h
      obtain ⟨srv, hsrv, rfl⟩ := Option.map_eq_some_iff.1 h
      have hun : Unrefused { x with srv } := hi.unrefused.server hsrv fun ha => by cases ha
      obtain ⟨t, -, rfl⟩ := Option.map_eq_some_iff.1 hsrv
      exact hi.keeps rfl (fun _ hid => hid) rfl rfl rfl hun
  | ret r =>
      simp only [Conn.step] at h
      split_ifs at h
      obtain ⟨srv, hsrv, rfl⟩ := Option.map_eq_some_iff.1 h
      have hun : Unrefused { x with srv } := hi.unrefused.server hsrv fun ha => by cases ha
      simp only [Server.step] at hsrv
      split_ifs at hsrv
      obtain ⟨t, -, rfl⟩ := Option.map_eq_some_iff.1 hsrv
      exact hi.keeps rfl (fun _ hid => mem_keys_erase hid) rfl rfl rfl hun
  | ctrl =>
      simp only [Conn.step] at h
      split at h
      · cases h
      · rename_i f rest hch
        cases h
        refine hi.keeps rfl (fun _ hid => hid) rfl rfl rfl fun g hg id => ?_
        refine hi.unrefused g ?_ id
        rw [hch]
        simpa using hg

/-! ## Whole runs -/

/-- **A client that respects the cap is not refused, as long as its finished streams are
cleaned up in time.**  In every run of such a client in which the cap is checked only when
every stream whose END or RST it has received has left the registry, the RST of the cap is
never sent, and every cap check that meets the condition lets the OPEN pass. -/
theorem unrefused_of_cleaned (W N : ℤ) :
    ∀ x, Reach Conn.step Cleaned (Conn.start W N) x →
      Unrefused x ∧
      ∀ f, x.srv.loop = .capCheck f → Cleaned x .loop → x.srv.mux.overCap = false := by
  intro x hr
  have hi : Inv N x := hr.invariant (inv_start W N) fun _ _ _ hi hc hs => inv_step hi hc hs
  exact ⟨hi.unrefused, fun f hl hc => overCap_eq_false hi hl hc⟩

/-- One stream at a time, each routed after the handler of the last one has returned. -/
theorem unrefused_of_cleaned_returned :
    ∃ x, Reach Conn.step Cleaned (Conn.start 0 1) x ∧ x.opened = [1, 3] ∧
      finished x.received = [1] ∧ x.srv.running = [1] ∧ Unrefused x := by
  obtain ⟨x, hr, hp⟩ := exists_reach_of_exec Conn.step Cleaned (Conn.start 0 1)
    (fun x : Conn => decide (x.opened = [1, 3] ∧ finished x.received = [1] ∧ x.srv.running = [1]))
    [.openStream { streamId := 1, kind := .kindOpen }, .take, .loop, .loop, .loop,
      .writeEnd 0 { code := Code.ok, message := .empty }, .deliver,
      .openStream { streamId := 3, kind := .kindOpen },
      .failEnd 0 { code := Code.ok, message := .empty }, .ret 0, .take, .loop, .loop, .loop]
    (by decide)
  obtain ⟨ho, hf, hrun⟩ := of_decide_eq_true hp
  exact ⟨x, hr, ho, hf, hrun, (unrefused_of_cleaned 0 1 x hr).1⟩

/-- **A client that respects the cap is refused.**  It has received END of its only stream
when it opens the next one, and the read loop checks the cap before the handler's deferred
`remove` has run. -/
theorem polite_client_refused :
    ∃ x, Reach Conn.step Always (Conn.start 0 1) x ∧ x.opened = [1, 3] ∧ capRst 3 ∈ x.received := by
  obtain ⟨x, hr, hp⟩ := exists_reach_of_exec Conn.step Always (Conn.start 0 1)
    (fun x : Conn => decide (x.opened = [1, 3] ∧ capRst 3 ∈ x.received))
    [.openStream { streamId := 1, kind := .kindOpen }, .take, .loop, .loop, .loop,
      .writeEnd 0 { code := Code.ok, message := .empty }, .deliver,
      .openStream { streamId := 3, kind := .kindOpen }, .take, .loop, .ctrl, .deliver] (by decide)
  exact ⟨x, hr, of_decide_eq_true hp⟩

end WsProto.Go.StreamCap
