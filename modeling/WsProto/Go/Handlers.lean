import WsProto.Lib.Run
import WsProto.Go.Ops

/-!
# Handlers of a server connection

A server mux whose `onOpen` starts `serveStream` in a goroutine of its own.  The
read loop goes through `route` in its critical sections — the duplicate check, the
cap check, the registration, the start of the handler; the removal of a stream
that has ended — and between any two of them handlers work on their streams and
return.

`WithMaxConcurrentStreams` promises to bound the goroutines a client can make the
server run.

* `running_le` — the handlers that run are at most the cap, in every run in which
  no stream leaves the registry while its handler runs;
* `running_exceeds_cap` — END, RST and an overflow do take streams out of the
  registry, and then the cap no longer counts their handlers.
-/

namespace WsProto.Go.Handlers

open Machine

/-! ## The model -/

/-- Where the read loop stands in `route`. -/
inductive LoopPc where
  /-- In `ReadFrame`. -/
  | read
  /-- An OPEN has passed the duplicate check. -/
  | capCheck (f : Frame)
  /-- An OPEN has passed the cap check. -/
  | register (f : Frame)
  /-- The stream is registered; `onOpen` is next. -/
  | onOpen (r : Ref)
  /-- The stream has ended or overflowed; `remove` is next. -/
  | remove (id : UInt32)
  /-- The connection is lost and the read loop has returned. -/
  | exited
  deriving DecidableEq

/-- A server mux, its read loop, and the `serveStream` calls that have not
returned. -/
structure Server where
  mux : Mux
  loop : LoopPc := .read
  running : List Ref := []

inductive Act where
  /-- The read loop takes a frame. -/
  | frame (f : Frame)
  /-- The read loop goes on inside `route`. -/
  | loop
  | connLost
  /-- A handler works on its stream, or the stream's context ends. -/
  | op (r : Ref) (o : StreamOp)
  /-- The handler is done and `end` fails the stream. -/
  | callEnd (r : Ref) (st : Status)
  /-- `serveStream` returns.  The deferred `remove` is the last thing it does. -/
  | ret (r : Ref)

namespace Server

/-- The first critical section of `route`. -/
def takeFrame (x : Server) (f : Frame) : Server :=
  if f.kind = .kindOpen then
    if x.mux.dupOpen f then
      { x with mux := x.mux.writeCtrl (rstFrame f.streamId Code.internal "duplicate stream id") }
    else { x with loop := .capCheck f }
  else
    match x.mux.find f.streamId with
    | none => x
    | some (r, s) =>
        match s.onFrame x.mux.server f with
        | .kept s' => { x with mux := x.mux.setObj r s' }
        | .removed s' => { x with mux := x.mux.setObj r s', loop := .remove f.streamId }
        | .overflowed s' =>
            { x with
              mux := (x.mux.setObj r s').writeCtrl
                (rstFrame f.streamId Code.resourceExhausted "receive buffer overflow")
              loop := .remove f.streamId }

/-- The later ones. -/
def loopStep (x : Server) : Option Server :=
  match x.loop with
  | .read | .exited => none
  | .capCheck f =>
      if x.mux.overCap then
        some { x with
          mux := x.mux.writeCtrl (rstFrame f.streamId Code.resourceExhausted
            "max concurrent streams exceeded")
          loop := .read }
      else some { x with loop := .register f }
  | .register f => some { x with mux := (x.mux.register f).1, loop := .onOpen (x.mux.register f).2 }
  | .onOpen r => some { x with running := x.running ++ [r], loop := .read }
  | .remove id => some { x with mux := x.mux.remove id, loop := .read }

def step (x : Server) : Act → Option Server
  | .frame f => if x.loop = .read then some (x.takeFrame f) else none
  | .loop => x.loopStep
  | .connLost =>
      if x.loop = .read then
        some { x with mux := x.mux.failAll x.mux.disconnectErr, loop := .exited }
      else none
  | .op r o => (x.mux.objs[r]?).map fun s => { x with mux := x.mux.setObj r (o.run s).1 }
  | .callEnd r st =>
      (x.mux.objs[r]?).map fun s =>
        { x with mux := x.mux.setObj r (s.failWith (some (.status st))) }
  | .ret r =>
      if r ∈ x.running then
        (x.mux.objs[r]?).map fun s =>
          { x with mux := x.mux.remove s.id, running := x.running.erase r }
      else none

/-- A fresh server mux with window `W` and cap `N`. -/
def start (W N : ℤ) : Server := { mux := newMuxConfig true W N }

/-- **The pieces make up `route`.**  If nobody else takes a step between them, the
read loop's critical sections have the effect of `Mux.route`, and the stream it
gives to `onOpen` has a handler. -/
theorem exec_frame {x : Server} (f : Frame) (hl : x.loop = .read) (hs : x.mux.server = true) :
    ∃ n, exec step Always x (.frame f :: List.replicate n .loop) =
      some { x with mux := (x.mux.route f).1, running := x.running ++ (x.mux.route f).2.toList } := by
  have hframe : ∀ n, exec step Always x (.frame f :: List.replicate n .loop) =
      exec step Always (x.takeFrame f) (List.replicate n .loop) := by
    intro n
    simp [exec, step, hl, Always]
  obtain ⟨m, l, running⟩ := x
  obtain rfl : l = .read := hl
  simp only [hframe, takeFrame, Mux.route]
  split
  case isTrue hopen =>
    simp only [Mux.routeOpen, show m.server = true from hs, Bool.not_true, Bool.false_eq_true,
      if_false]
    split
    case isTrue => exact ⟨0, by simp [exec]⟩
    case isFalse =>
      split
      case isTrue hc => exact ⟨1, by simp [exec, step, loopStep, hc, Always]⟩
      case isFalse hc => exact ⟨3, by simp [exec, step, loopStep, hc, Always, List.replicate]⟩
  case isFalse =>
    cases hf : m.find f.streamId with
    | none => exact ⟨0, by simp [exec, Mux.routeFrame, hf]⟩
    | some y =>
        obtain ⟨r, s⟩ := y
        cases ho : s.onFrame m.server f with
        | kept s' => exact ⟨0, by simp [exec, Mux.routeFrame, hf, ho]⟩
        | removed s' => exact ⟨1, by simp [exec, step, loopStep, Always, Mux.routeFrame, hf, ho]⟩
        | overflowed s' =>
            exact ⟨1, by simp [exec, step, loopStep, Always, Mux.routeFrame, hf, ho]⟩

/-! ## The invariant -/

/-- The stream a frame takes out of the registry: END, RST and an overflow do. -/
def leaver (m : Mux) (f : Frame) : Option Ref :=
  if f.kind = .kindOpen then none
  else
    (m.find f.streamId).bind fun p =>
      if (p.2.onFrame m.server f).leaves then some p.1 else none

theorem leaver_lookup {m : Mux} {f : Frame} {r : Ref} (h : leaver m f = some r) :
    m.streams.lookup f.streamId = some r := by
  rw [leaver] at h
  split_ifs at h
  obtain ⟨p, hp, h⟩ := Option.bind_eq_some_iff.1 h
  split_ifs at h
  cases h
  exact (Mux.find_eq_some.1 hp).1

/-- **What the first critical section does**: the registry and the handlers stay, the
objects are kept, and the read loop goes on to the cap check of a new OPEN, to the removal
of a stream that leaves, or nowhere. -/
theorem takeFrame_spec (x : Server) (f : Frame) :
    (x.takeFrame f).mux.streams = x.mux.streams ∧ (x.takeFrame f).running = x.running ∧
      (x.takeFrame f).mux.maxStreams = x.mux.maxStreams ∧
      Mux.Keeps x.mux (x.takeFrame f).mux ∧
      (x.takeFrame f).mux.objs.length = x.mux.objs.length ∧
      (x.takeFrame f).loop =
        if f.kind = .kindOpen ∧ x.mux.dupOpen f = false then .capCheck f
        else if (leaver x.mux f).isSome then .remove f.streamId else x.loop := by
  unfold takeFrame leaver
  by_cases hopen : f.kind = .kindOpen
  · by_cases hdup : x.mux.dupOpen f = true
    · have hk := Mux.keeps_of_objs (m := x.mux) (x.mux.writeCtrl_objs
        (rstFrame f.streamId Code.internal "duplicate stream id"))
      simp [hopen, hdup, hk]
    · simp [hopen, hdup, Mux.keeps_of_objs]
  · rcases Option.eq_none_or_eq_some (x.mux.find f.streamId) with hfind | ⟨⟨r, s⟩, hfind⟩
    · simp [hopen, hfind, Mux.keeps_of_objs]
    · have hk := Mux.keeps_onFrame (f := f) (Mux.find_eq_some.1 hfind).2
      cases hon : s.onFrame x.mux.server f with
      | kept s' =>
          rw [hon] at hk
          simp only [hopen, hfind, hon]
          exact ⟨rfl, rfl, rfl, hk, by simp [Mux.setObj], by simp [Routed.leaves, hon]⟩
      | removed s' =>
          rw [hon] at hk
          simp only [hopen, hfind, hon]
          exact ⟨rfl, rfl, rfl, hk, by simp [Mux.setObj], by simp [Routed.leaves, hon]⟩
      | overflowed s' =>
          rw [hon] at hk
          simp only [hopen, hfind, hon]
          exact ⟨by simp [Mux.setObj], rfl, by simp [Mux.setObj],
            hk.trans (Mux.keeps_of_objs (by simp [Routed.stream])), by simp [Mux.setObj],
            by simp [Routed.leaves, hon]⟩

variable {N : ℤ} {x x' : Server}

/-- Reference `r` is a stream registered under its own id. -/
def Registered (m : Mux) (r : Ref) : Prop :=
  ∃ s, m.objs[r]? = some s ∧ m.streams.lookup s.id = some r

/-- What the read loop's position in `route` has established. -/
def LoopOk (N : ℤ) (m : Mux) (running : List Ref) : LoopPc → Prop
  | .read | .exited => True
  | .capCheck f => m.streams.lookup f.streamId = none
  | .register f => m.streams.lookup f.streamId = none ∧ m.streams.keys.length < N
  | .onOpen r => r ∉ running ∧ Registered m r
  | .remove _ => False

/-- The invariant: until the connection is lost, the handlers that run are
registered, and the registry is within the cap. -/
structure Inv (N : ℤ) (x : Server) : Prop where
  cap : x.mux.maxStreams = N
  nodup : x.running.Nodup
  /-- A handler's reference exists. -/
  bound : ∀ r ∈ x.running, r < x.mux.objs.length
  registered : x.loop ≠ .exited → ∀ r ∈ x.running, Registered x.mux r
  size : x.mux.streams.keys.length ≤ N
  loop : LoopOk N x.mux x.running x.loop
  running : x.running.length ≤ N

/-- The condition on a step: a frame does not take its stream out of the
registry — no END, no RST, no overflow. -/
def Stays (x : Server) : Act → Prop
  | .frame f => f.kind ≠ .kindOpen →
      ∀ y ∈ x.mux.find f.streamId, (y.2.onFrame x.mux.server f).leaves = false
  | _ => True

instance (x : Server) : (a : Act) → Decidable (Stays x a)
  | .frame _ => inferInstanceAs (Decidable (_ → _))
  | .loop | .connLost | .op _ _ | .callEnd _ _ | .ret _ => inferInstanceAs (Decidable True)

/-- Distinct references that are registered are no more than the registry has
entries. -/
theorem length_le_of_registered {m : Mux} {l : List Ref} (hl : l.Nodup)
    (h : ∀ r ∈ l, Registered m r) : l.length ≤ m.streams.keys.length := by
  have hsub : l ⊆ m.streams.entries.map (·.2) := by
    intro r hr
    obtain ⟨s, -, hs⟩ := h r hr
    exact List.mem_map.2 ⟨⟨s.id, r⟩, AList.mem_lookup_iff.1 hs, rfl⟩
  have hlen := (List.subperm_of_subset hl hsub).length_le
  simpa [AList.keys, List.keys] using hlen

theorem Registered.setObj {m : Mux} {r r' : Ref} {s s' : Stream} (h : Registered m r)
    (hs : m.objs[r']? = some s) (hid : s'.id = s.id) : Registered (m.setObj r' s') r := by
  obtain ⟨t, ht, hl⟩ := h
  by_cases hrr : r' = r
  · subst hrr
    obtain rfl : t = s := Option.some.inj (ht.symm.trans hs)
    have hlt : r' < m.objs.length := (List.getElem?_eq_some_iff.1 ht).1
    refine ⟨s', by simp [Mux.setObj, hlt], ?_⟩
    rw [hid]
    exact hl
  · exact ⟨t, by simpa [Mux.setObj, List.getElem?_set_ne hrr] using ht, hl⟩

/-! ## Steps -/

theorem inv_start (W : ℤ) (hN : 0 < N) : Inv N (start W N) where
  cap := rfl
  nodup := List.nodup_nil
  bound := by simp [start]
  registered := by simp [start]
  size := by simp [start, newMuxConfig]; omega
  loop := by simp [LoopOk, start]
  running := by simp [start]; omega

/-- A stream object changes, its id does not. -/
theorem Inv.setObj (hi : Inv N x) {r : Ref} {s s' : Stream} (hs : x.mux.objs[r]? = some s)
    (hid : s'.id = s.id) : Inv N { x with mux := x.mux.setObj r s' } where
  cap := hi.cap
  nodup := hi.nodup
  bound := by simpa [Mux.setObj] using hi.bound
  registered hne r' hr' := (hi.registered hne r' hr').setObj hs hid
  size := hi.size
  loop := by
    have hl := hi.loop
    show LoopOk N (x.mux.setObj r s') x.running x.loop
    cases hpc : x.loop with
    | read | exited => trivial
    | capCheck f | register f => simpa [LoopOk, Mux.setObj, hpc] using hl
    | onOpen r' => rw [hpc] at hl; exact ⟨hl.1, hl.2.setObj hs hid⟩
    | remove id => rw [hpc] at hl; exact hl.elim
  running := hi.running

/-- A control frame is queued. -/
theorem Inv.writeCtrl (hi : Inv N x) (f : Frame) : Inv N { x with mux := x.mux.writeCtrl f } where
  cap := by simpa using hi.cap
  nodup := hi.nodup
  bound := by simpa using hi.bound
  registered := by simpa [Registered] using hi.registered
  size := by simpa using hi.size
  loop := by
    have hl := hi.loop
    show LoopOk N (x.mux.writeCtrl f) x.running x.loop
    cases hpc : x.loop with
    | read | exited => trivial
    | capCheck g | register g | onOpen r => simpa [LoopOk, Registered, hpc] using hl
    | remove id => rw [hpc] at hl; exact hl.elim
  running := hi.running

/-- The read loop moves on. -/
theorem Inv.setLoop (hi : Inv N x) {l : LoopPc} (hx : x.loop ≠ .exited)
    (hl : LoopOk N x.mux x.running l) : Inv N { x with loop := l } :=
  { hi with registered := fun _ => hi.registered hx, loop := hl }

theorem inv_takeFrame (hi : Inv N x) {f : Frame} (hread : x.loop = .read)
    (hk : Stays x (.frame f)) : Inv N (x.takeFrame f) := by
  unfold takeFrame
  split
  · split
    · exact hi.writeCtrl _
    · rename_i hdup
      refine hi.setLoop (by simp [hread]) ?_
      simpa [LoopOk, Mux.dupOpen] using hdup
  · rename_i hkind
    split
    · exact hi
    · rename_i r s hfind
      have hs := (Mux.find_eq_some.1 hfind).2
      have hid := (s.onFrame_fixed x.mux.server f).id
      have hstay := hk hkind (r, s) hfind
      split
      · rename_i s' hr
        simp only [hr, Routed.stream] at hid
        exact hi.setObj hs hid
      · simp_all [Routed.leaves]
      · simp_all [Routed.leaves]

/-- Registering a free id keeps what is registered. -/
theorem Registered.register {m : Mux} {f : Frame} (hfree : m.streams.lookup f.streamId = none)
    {r : Ref} (h : Registered m r) : Registered (m.register f).1 r := by
  obtain ⟨s, hs, hlook⟩ := h
  have hr : r < m.objs.length := (List.getElem?_eq_some_iff.1 hs).1
  have hne : s.id ≠ f.streamId := by
    intro he
    rw [he, hfree] at hlook
    cases hlook
  refine ⟨s, by simpa [Mux.register, List.getElem?_append_left hr] using hs, ?_⟩
  simpa [Mux.register, AList.lookup_insert_ne hne] using hlook

theorem registered_register (m : Mux) (f : Frame) :
    Registered (m.register f).1 (m.register f).2 :=
  ⟨{ newStream m.ctxErr f.streamId f.method m.initialWindow with header := f.headers },
    by simp [Mux.register], by simp [Mux.register, newStream]⟩

/-- The registration: a fresh reference under a free id. -/
theorem Inv.register (hi : Inv N x) {f : Frame} (hl : x.loop = .register f) :
    Inv N { x with mux := (x.mux.register f).1, loop := .onOpen (x.mux.register f).2 } := by
  have hloop := hi.loop
  rw [hl] at hloop
  obtain ⟨hfree, hlt⟩ := hloop
  refine {
    cap := hi.cap
    nodup := hi.nodup
    bound := fun r hr => (hi.bound r hr).trans (by simp [Mux.register])
    registered := fun _ r hr => (hi.registered (by simp [hl]) r hr).register hfree
    size := ?_
    loop := ⟨fun hmem => ?_, registered_register x.mux f⟩
    running := hi.running }
  · show ((x.mux.streams.insert f.streamId x.mux.objs.length).keys.length : ℤ) ≤ N
    rw [AList.insert_of_notMem (AList.lookup_eq_none.1 hfree)]
    simp only [AList.keys, List.keys_cons, List.length_cons, Nat.cast_add, Nat.cast_one] at hlt ⊢
    omega
  · exact absurd (hi.bound _ hmem) (by simp [Mux.register])

/-- The start of the handler: it is registered, and so is one of those that count. -/
theorem Inv.onOpen (hi : Inv N x) {r : Ref} (hl : x.loop = .onOpen r) :
    Inv N { x with running := x.running ++ [r], loop := .read } := by
  have hloop := hi.loop
  rw [hl] at hloop
  obtain ⟨hnew, hreg⟩ := hloop
  have hmem : ∀ r' ∈ x.running ++ [r], Registered x.mux r' := by
    intro r' hr'
    rcases List.mem_append.1 hr' with hr' | hr'
    · exact hi.registered (by simp [hl]) r' hr'
    · rw [List.mem_singleton.1 hr']; exact hreg
  have hnodup : (x.running ++ [r]).Nodup := by
    simpa [List.nodup_append, hi.nodup] using fun a ha => (ne_of_mem_of_not_mem ha hnew)
  have hlen := length_le_of_registered hnodup hmem
  refine { hi with
    nodup := hnodup
    bound := fun r' hr' => ?_
    registered := fun _ => hmem
    loop := trivial
    running := by have := hi.size; simp only; omega }
  obtain ⟨s, hs, -⟩ := hmem r' hr'
  exact (List.getElem?_eq_some_iff.1 hs).1

theorem inv_loop (hi : Inv N x) (hN : 0 < N) (h : x.loopStep = some x') : Inv N x' := by
  have hloop := hi.loop
  unfold loopStep at h
  split at h
  · cases h
  · cases h
  · rename_i f hl
    rw [hl] at hloop
    split at h
    · cases h
      exact (hi.writeCtrl _).setLoop (by simp [hl]) trivial
    · rename_i hcap
      cases h
      refine hi.setLoop (by simp [hl]) ⟨hloop, ?_⟩
      simpa [Mux.overCap, hi.cap, hN] using hcap
  · rename_i f hl
    cases h
    exact hi.register hl
  · rename_i r hl
    cases h
    exact hi.onOpen hl
  · rename_i id hl
    rw [hl] at hloop
    exact hloop.elim

/-- `serveStream` returns: its own entry leaves the registry, and no other. -/
theorem inv_ret (hi : Inv N x) {r : Ref} (h : x.step (.ret r) = some x') : Inv N x' := by
  obtain ⟨hr, h⟩ := Option.ite_none_right_eq_some.1 h
  obtain ⟨s, hs, rfl⟩ := Option.map_eq_some_iff.1 h
  have hsub : x.running.erase r ⊆ x.running := List.erase_subset
  have hkeys : (x.mux.streams.keys.erase s.id).length ≤ x.mux.streams.keys.length :=
    List.length_erase_le
  have hrun : (x.running.erase r).length ≤ x.running.length := List.length_erase_le
  -- an entry of another handler is under another id
  have hother : x.loop ≠ .exited → ∀ r', r' ≠ r → Registered x.mux r' →
      Registered (x.mux.remove s.id) r' := by
    rintro hne r' hr' ⟨t, ht, hlook⟩
    refine ⟨t, ht, ?_⟩
    have hids : t.id ≠ s.id := by
      intro he
      obtain ⟨u, hu, hlook'⟩ := hi.registered hne r hr
      obtain rfl : s = u := Option.some.inj (hs.symm.trans hu)
      rw [he] at hlook
      exact hr' (Option.some.inj (hlook.symm.trans hlook'))
    simpa [Mux.remove, AList.lookup_erase_ne hids] using hlook
  refine {
    cap := hi.cap
    nodup := hi.nodup.erase r
    bound := fun r' hr' => hi.bound r' (hsub hr')
    registered := fun hne r' hr' => ?_
    size := by have := hi.size; simp only [Mux.remove, AList.keys_erase]; omega
    loop := ?_
    running := by have := hi.running; simp only; omega }
  · have hrr : r' ≠ r := by
      rintro rfl
      exact (List.Nodup.not_mem_erase hi.nodup) hr'
    exact hother hne r' hrr (hi.registered hne r' (hsub hr'))
  · have hgone : ∀ id, x.mux.streams.lookup id = none →
        (x.mux.remove s.id).streams.lookup id = none := by
      intro id hid
      by_cases he : id = s.id
      · rw [he]; exact AList.lookup_erase _ _
      · rw [Mux.remove, AList.lookup_erase_ne he]; exact hid
    have hloop := hi.loop
    show LoopOk N (x.mux.remove s.id) (x.running.erase r) x.loop
    cases hpc : x.loop with
    | read | exited => trivial
    | capCheck f => rw [hpc] at hloop; exact hgone _ hloop
    | register f =>
        rw [hpc] at hloop
        refine ⟨hgone _ hloop.1, ?_⟩
        have := hloop.2
        simp only [Mux.remove, AList.keys_erase]
        omega
    | onOpen r' =>
        rw [hpc] at hloop
        refine ⟨fun hmem => hloop.1 (hsub hmem), ?_⟩
        exact hother (by simp [hpc]) r' (fun he => hloop.1 (he ▸ hr)) hloop.2
    | remove id => rw [hpc] at hloop; exact hloop.elim

theorem inv_step (hN : 0 < N) {a : Act} (hi : Inv N x) (hk : Stays x a)
    (h : x.step a = some x') : Inv N x' := by
  cases a with
  | frame f =>
      obtain ⟨hread, ⟨⟩⟩ := Option.ite_none_right_eq_some.1 h
      exact inv_takeFrame hi hread hk
  | loop => exact inv_loop hi hN h
  | connLost =>
      obtain ⟨hread, ⟨⟩⟩ := Option.ite_none_right_eq_some.1 h
      exact { hi with
        cap := hi.cap
        bound := fun r hr => by rw [Mux.length_failAll]; exact hi.bound r hr
        registered := fun hne => absurd rfl hne
        size := by simp [Mux.failAll]; omega
        loop := trivial }
  | op r o =>
      obtain ⟨s, hs, rfl⟩ := Option.map_eq_some_iff.1 h
      exact hi.setObj hs (o.run_spec s).1
  | callEnd r st =>
      obtain ⟨s, hs, rfl⟩ := Option.map_eq_some_iff.1 h
      exact hi.setObj hs rfl
  | ret r => exact inv_ret hi h

/-- **The handlers are within the cap**, in every run in which no frame takes a
registered stream out of the registry: whatever is opened, sent and returned, in
whatever order, at most `N` calls of `serveStream` have not returned. -/
theorem running_le (W : ℤ) {N : ℤ} (hN : 0 < N) {x : Server} (h : Reach step Stays (start W N) x) :
    x.running.length ≤ N := by
  have hi : Inv N x := h.invariant (inv_start W hN) fun _ _ _ hi hk hs => inv_step hN hi hk hs
  exact hi.running

/-- With a cap of one: the second OPEN is rejected while the handler of the first
runs, and accepted once it has returned. -/
theorem running_le_one :
    ∃ x : Server, Reach step Stays (start 4 1) x ∧ x.running = [1] ∧
      x.mux.ctrlCh.map (·.streamId) = [3] ∧ (x.running.length : ℤ) ≤ 1 := by
  obtain ⟨x, hx, hp⟩ := exists_reach_of_exec step Stays (start 4 1)
    (fun x => decide (x.running = [1] ∧ x.mux.ctrlCh.map (·.streamId) = [3]))
    [.frame { streamId := 1, kind := .kindOpen }, .loop, .loop, .loop,
      .frame { streamId := 3, kind := .kindOpen }, .loop, .ret 0,
      .frame { streamId := 5, kind := .kindOpen }, .loop, .loop, .loop] (by decide)
  simp only [decide_eq_true_eq] at hp
  exact ⟨x, hx, hp.1, hp.2, running_le 4 (by decide) hx⟩

/-- **More handlers than the cap.**  With a cap of one, a client opens a stream,
resets it and opens another: the reset takes the first stream out of the registry
while its handler still runs, and a second handler is started. -/
theorem running_exceeds_cap :
    ∃ x : Server, Reach step Always (start 4 1) x ∧ x.running = [0, 1] ∧
      ¬ (x.running.length : ℤ) ≤ 1 := by
  obtain ⟨x, hx, hp⟩ := exists_reach_of_exec step Always (start 4 1)
    (fun x => decide (x.running = [0, 1]))
    [.frame { streamId := 1, kind := .kindOpen }, .loop, .loop, .loop,
      .frame { streamId := 1, kind := .kindRst }, .loop,
      .frame { streamId := 3, kind := .kindOpen }, .loop, .loop, .loop] (by decide)
  simp only [decide_eq_true_eq] at hp
  exact ⟨x, hx, hp, by simp [hp]⟩

end Server

end WsProto.Go.Handlers
