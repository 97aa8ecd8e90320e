import WsProto.Go.Handlers

/-!
# Who owns an id

The registry of a server mux is keyed by stream id, and three places let go of an id: the
read loop after END, RST and an overflow, the loss of the connection, and the deferred
`remove` of `serveStream`, which may run long after the read loop has let go of the id and
given it to another stream.  A stream stays the owner of its id from its admission until
something happens to *it*: a terminal frame or an overflow, the loss of the connection,
the return of its own handler.

* `owns_of_fresh` — this holds in every run in which an id is registered again only after
  the handlers of its earlier streams have returned, and it is at the mercy of the next
  return exactly if a registration does not meet this;
* `owner_detached` — `remove` and END go by the id alone: the handler of a stream that was
  reset takes its successor out of the registry, after an END the client takes for the
  successor's.
-/

namespace WsProto.Go.Ownership

open Machine Handlers

/-! ## The model -/

/-- A server, with a record of what has happened to its streams. -/
structure Traced where
  srv : Server
  /-- Ghost: the streams that have seen END or RST, an overflow, the loss of the
  connection or the return of their own handler. -/
  released : List Ref := []
  /-- Ghost: for every END, the stream of the handler that wrote it and the stream that
  was registered under its id. -/
  ends : List (Ref × Option Ref) := []

/-- The streams a step releases. -/
def releases (x : Server) : Act → List Ref
  | .frame f => (Server.leaver x.mux f).toList
  | .connLost => List.range x.mux.objs.length
  | .ret r => [r]
  | .loop | .op _ _ | .callEnd _ _ => []

/-- The END a step writes. -/
def endsOf (x : Server) : Act → List (Ref × Option Ref)
  | .callEnd r _ => (x.mux.objs[r]?).toList.map fun s => (r, x.mux.streams.lookup s.id)
  | _ => []

/-- `end` is called by a handler that runs. -/
def permitted (x : Server) : Act → Bool
  | .callEnd r _ => r ∈ x.running
  | _ => true

namespace Traced

def step (x : Traced) (a : Act) : Option Traced :=
  if permitted x.srv a then
    (x.srv.step a).map fun srv =>
      { srv, released := x.released ++ releases x.srv a, ends := x.ends ++ endsOf x.srv a }
  else none

def start (W N : ℤ) : Traced := { srv := Server.start W N }

end Traced

/-- Every stream that has not been released is the one registered under its id, and every
END was written while nobody else was. -/
structure Owns (x : Traced) : Prop where
  registered : ∀ (r : Ref) (s : Stream), x.srv.mux.objs[r]? = some s → r ∉ x.released →
    x.srv.mux.streams.lookup s.id = some r
  ends : ∀ e ∈ x.ends, e.2 = none ∨ e.2 = some e.1

/-- The OPEN whose stream the read loop is about to register. -/
def registering (x : Server) : Option Frame :=
  match x.loop with
  | .register f => some f
  | _ => none

/-- The condition on a step: an id is registered only if no handler of an earlier stream
with that id still runs. -/
def Fresh (x : Traced) : Act → Prop
  | .loop => ∀ f ∈ registering x.srv, ∀ r ∈ x.srv.running, ∀ s ∈ x.srv.mux.objs[r]?,
      s.id ≠ f.streamId
  | _ => True

instance (x : Traced) : (a : Act) → Decidable (Fresh x a)
  | .loop => inferInstanceAs (Decidable (∀ f ∈ _, _))
  | .frame _ | .connLost | .op _ _ | .callEnd _ _ | .ret _ => inferInstanceAs (Decidable True)

/-! ## The invariant -/

variable {x x' : Traced}

/-- What the read loop's position in `route` has established. -/
def LoopOk (m : Mux) (released running : List Ref) : Handlers.LoopPc → Prop
  | .read | .exited => True
  | .capCheck f | .register f => m.streams.lookup f.streamId = none
  | .onOpen r => r ∉ released ++ running ∧ ∃ s, m.objs[r]? = some s
  | .remove id => ∀ r, m.streams.lookup id = some r → r ∈ released

structure Inv (x : Traced) : Prop where
  named : x.srv.mux.Named
  owns : Owns x
  /-- Nobody else is registered under the id of a stream whose handler runs. -/
  sole : ∀ r ∈ x.srv.running, ∀ s, x.srv.mux.objs[r]? = some s →
    ∀ r', x.srv.mux.streams.lookup s.id = some r' → r' = r
  bound : ∀ r ∈ x.released ++ x.srv.running, r < x.srv.mux.objs.length
  loop : LoopOk x.srv.mux x.released x.srv.running x.srv.loop

theorem inv_start (W N : ℤ) : Inv (Traced.start W N) where
  named := Mux.named_new true W N
  owns := { registered := fun r s h => (by cases h), ends := fun e h => (by cases h) }
  sole r h := by cases h
  bound r h := by cases h
  loop := trivial

/-- A step that leaves the registry and the handlers alone. -/
theorem Inv.keeps (hi : Inv x) (hk : Mux.Keeps x.srv.mux x'.srv.mux)
    (hlen : x'.srv.mux.objs.length = x.srv.mux.objs.length)
    (hstreams : x'.srv.mux.streams = x.srv.mux.streams) (hrun : x'.srv.running = x.srv.running)
    (hrel : x.released ⊆ x'.released) (hbound : ∀ r ∈ x'.released, r < x.srv.mux.objs.length)
    (hends : ∀ e ∈ x'.ends, e.2 = none ∨ e.2 = some e.1)
    (hloop : LoopOk x'.srv.mux x'.released x'.srv.running x'.srv.loop) : Inv x' where
  named := hi.named.keeps hk fun id r hl => by rw [hstreams] at hl; exact hl
  owns :=
    { registered := fun r s' hs' hr => by
        obtain ⟨s, hs, hid⟩ := hk.back hlen hs'
        rw [hid, hstreams]
        exact hi.owns.registered r s hs fun hmem => hr (hrel hmem)
      ends := hends }
  sole r hr s' hs' r' hl := by
    obtain ⟨s, hs, hid⟩ := hk.back hlen hs'
    rw [hrun] at hr
    rw [hid, hstreams] at hl
    exact hi.sole r hr s hs r' hl
  bound r hr := by
    rw [hlen]
    rcases List.mem_append.1 hr with hr | hr
    · exact hbound r hr
    · exact hi.bound r (List.mem_append_right _ (hrun ▸ hr))
  loop := hloop

/-- The position of the read loop is not affected by a change of objects. -/
theorem LoopOk.keeps {m m' : Mux} {released running : List Ref} {l : Handlers.LoopPc}
    (h : LoopOk m released running l) (hk : Mux.Keeps m m') (hstreams : m'.streams = m.streams) :
    LoopOk m' released running l := by
  cases l with
  | read | exited => trivial
  | capCheck f | register f =>
      show m'.streams.lookup f.streamId = none
      rw [hstreams]
      exact h
  | onOpen r =>
      obtain ⟨s, hs⟩ := h.2
      obtain ⟨s', hs', -⟩ := hk r s hs
      exact ⟨h.1, s', hs'⟩
  | remove id =>
      intro r hl
      rw [hstreams] at hl
      exact h r hl

/-! ## One step -/

/-- A frame: the stream it takes out of the registry is released at once, and removed
later. -/
theorem inv_frame {f : Frame} (hi : Inv x) (h : x.step (.frame f) = some x') : Inv x' := by
  simp only [Traced.step, permitted, if_true] at h
  obtain ⟨srv, hsrv, rfl⟩ := Option.map_eq_some_iff.1 h
  simp only [Server.step] at hsrv
  split_ifs at hsrv with hread
  cases hsrv
  obtain ⟨hstreams, hrun, -, hk, hlen, hloop⟩ := Server.takeFrame_spec x.srv f
  refine hi.keeps hk hlen hstreams hrun (List.subset_append_left _ _) ?_ ?_ ?_
  · intro r hr
    rcases List.mem_append.1 hr with hr | hr
    · exact hi.bound r (List.mem_append_left _ hr)
    · obtain ⟨s, hs, -⟩ := hi.named _ r (Server.leaver_lookup (by simpa [releases] using hr))
      exact (List.getElem?_eq_some_iff.1 hs).1
  · simpa [endsOf] using hi.owns.ends
  · show LoopOk (x.srv.takeFrame f).mux (x.released ++ releases x.srv (.frame f))
      (x.srv.takeFrame f).running (x.srv.takeFrame f).loop
    rw [hloop]
    split_ifs with hopen hleave
    · show (x.srv.takeFrame f).mux.streams.lookup f.streamId = none
      rw [hstreams]
      simpa [Mux.dupOpen] using hopen.2
    · intro r hl
      obtain ⟨r', hr'⟩ := Option.isSome_iff_exists.1 hleave
      rw [hstreams, Server.leaver_lookup hr'] at hl
      cases hl
      simp [releases, hr']
    · rw [hread]
      trivial

/-- The registration of a fresh id. -/
theorem inv_register {f : Frame} (hi : Inv x) (hl : x.srv.loop = .register f)
    (hfresh : Fresh x .loop) :
    Inv { x with
      srv := { x.srv with
        mux := (x.srv.mux.register f).1, loop := .onOpen (x.srv.mux.register f).2 } } := by
  have hfree : x.srv.mux.streams.lookup f.streamId = none := by
    have := hi.loop
    rwa [hl] at this
  have hold : ∀ {r : Ref}, r < x.srv.mux.objs.length →
      (x.srv.mux.register f).1.objs[r]? = x.srv.mux.objs[r]? := fun hlt => by
    simp [Mux.register, List.getElem?_append_left hlt]
  exact {
    named := hi.named.register f
    owns :=
      { registered := fun r s hs hr => by
          rcases of_getElem?_concat hs with hs₀ | ⟨rfl, -⟩
          · obtain ⟨t, ht, hlook⟩ := Server.Registered.register hfree
              ⟨s, hs₀, hi.owns.registered r s hs₀ hr⟩
            obtain rfl : s = t := Option.some.inj (hs.symm.trans ht)
            exact hlook
          · obtain ⟨t, ht, hlook⟩ := Server.registered_register x.srv.mux f
            obtain rfl : s = t := Option.some.inj (hs.symm.trans ht)
            exact hlook
        ends := hi.owns.ends }
    sole := fun r hr s hs r' hlook => by
      have hlt := hi.bound r (List.mem_append_right _ hr)
      have hs₀ : x.srv.mux.objs[r]? = some s := (hold hlt).symm.trans hs
      have hne : s.id ≠ f.streamId := hfresh f (by simp [registering, hl]) r hr s hs₀
      refine hi.sole r hr s hs₀ r' ?_
      simpa [Mux.register, AList.lookup_insert_ne hne] using hlook
    bound := fun r hr => by
      show r < (x.srv.mux.register f).1.objs.length
      simp only [Mux.register, List.length_append, List.length_singleton]
      exact Nat.lt_succ_of_lt (hi.bound r hr)
    loop :=
      ⟨fun hmem => absurd (hi.bound _ hmem) (lt_irrefl _), _, by simp [Mux.register]; rfl⟩ }

/-- The handler of the registered stream starts. -/
theorem inv_onOpen {r : Ref} (hi : Inv x) (hl : x.srv.loop = .onOpen r) :
    Inv { x with srv := { x.srv with running := x.srv.running ++ [r], loop := .read } } := by
  have hloop := hi.loop
  rw [hl] at hloop
  obtain ⟨hr, s, hs⟩ := hloop
  exact {
    named := hi.named
    owns := { registered := hi.owns.registered, ends := hi.owns.ends }
    sole := fun r' hr' t ht r'' hlook => by
      rcases List.mem_append.1 hr' with hr' | hr'
      · exact hi.sole r' hr' t ht r'' hlook
      · obtain rfl : r' = r := by simpa using hr'
        rw [hi.owns.registered r' t ht fun hmem => hr (List.mem_append_left _ hmem)] at hlook
        exact (Option.some.inj hlook).symm
    bound := fun r' hr' => by
      rw [← List.append_assoc] at hr'
      rcases List.mem_append.1 hr' with hr' | hr'
      · exact hi.bound r' hr'
      · obtain rfl : r' = r := by simpa using hr'
        exact (List.getElem?_eq_some_iff.1 hs).1
    loop := trivial }

/-- An id is let go of: whoever owned it is released. -/
theorem Inv.remove (hi : Inv x) (id : UInt32) (released : List Ref) (running : List Ref)
    (hid : ∀ r s, x.srv.mux.objs[r]? = some s → r ∉ released → s.id = id →
      x.srv.mux.streams.lookup id ≠ some r)
    (hrel : x.released ⊆ released) (hbound : ∀ r ∈ released, r < x.srv.mux.objs.length)
    (hrun : running ⊆ x.srv.running) (l : Handlers.LoopPc)
    (hloop : LoopOk (x.srv.mux.remove id) released running l) :
    Inv { x with srv := { mux := x.srv.mux.remove id, loop := l, running }, released } where
  named := hi.named.remove id
  owns :=
    { registered := fun r s hs hr => by
        have hlook := hi.owns.registered r s hs fun hmem => hr (hrel hmem)
        have hne : s.id ≠ id := by
          rintro rfl
          exact hid r s hs hr rfl hlook
        rw [Mux.remove, AList.lookup_erase_ne hne]
        exact hlook
      ends := hi.owns.ends }
  sole r hr s hs r' hlook := hi.sole r (hrun hr) s hs r' (Mux.lookup_of_lookup_erase hlook)
  bound r hr := by
    rcases List.mem_append.1 hr with hr | hr
    · exact hbound r hr
    · exact hi.bound r (List.mem_append_right _ (hrun hr))
  loop := hloop

theorem inv_loop (hi : Inv x) (hfresh : Fresh x .loop) (h : x.step .loop = some x') : Inv x' := by
  simp only [Traced.step, permitted, if_true, releases, endsOf, List.append_nil] at h
  obtain ⟨srv, hsrv, rfl⟩ := Option.map_eq_some_iff.1 h
  have hbound : ∀ r ∈ x.released, r < x.srv.mux.objs.length :=
    fun r hr => hi.bound r (List.mem_append_left _ hr)
  have hloop := hi.loop
  simp only [Server.step, Server.loopStep] at hsrv
  split at hsrv
  · cases hsrv
  · cases hsrv
  · rename_i f hl
    rw [hl] at hloop
    split_ifs at hsrv with hcap
    · cases hsrv
      exact hi.keeps (Mux.keeps_of_objs (by simp)) (by simp) (by simp) rfl (List.Subset.refl _)
        hbound hi.owns.ends trivial
    · cases hsrv
      exact hi.keeps (Mux.keeps_of_objs rfl) rfl rfl rfl (List.Subset.refl _) hbound hi.owns.ends
        hloop
  · rename_i f hl; cases hsrv; exact inv_register hi hl hfresh
  · rename_i r hl; cases hsrv; exact inv_onOpen hi hl
  · rename_i id hl
    rw [hl] at hloop
    cases hsrv
    refine hi.remove id x.released x.srv.running ?_ (List.Subset.refl _) hbound (List.Subset.refl _)
      .read trivial
    intro r s _ hr _ hlook
    exact hr (hloop r hlook)

/-- A handler returns: nobody but its own stream has the id. -/
theorem inv_ret {r : Ref} (hi : Inv x) (h : x.step (.ret r) = some x') : Inv x' := by
  simp only [Traced.step, permitted, if_true, releases, endsOf, List.append_nil] at h
  obtain ⟨srv, hsrv, rfl⟩ := Option.map_eq_some_iff.1 h
  simp only [Server.step] at hsrv
  split_ifs at hsrv with hrun
  obtain ⟨s, hs, rfl⟩ := Option.map_eq_some_iff.1 hsrv
  refine hi.remove s.id (x.released ++ [r]) (x.srv.running.erase r) ?_ (List.subset_append_left _ _)
    ?_ List.erase_subset x.srv.loop ?_
  · intro r' s' _ hr' _ hlook
    obtain rfl : r' = r := hi.sole r hrun s hs r' hlook
    simp at hr'
  · intro r' hr'
    rcases List.mem_append.1 hr' with hr' | hr'
    · exact hi.bound r' (List.mem_append_left _ hr')
    · obtain rfl : r' = r := by simpa using hr'
      exact (List.getElem?_eq_some_iff.1 hs).1
  · have hloop := hi.loop
    cases hl : x.srv.loop with
    | read | exited => trivial
    | capCheck f | register f =>
        rw [hl] at hloop
        show (x.srv.mux.streams.erase s.id).lookup f.streamId = none
        by_cases hid : f.streamId = s.id
        · rw [hid, AList.lookup_erase]
        · rw [AList.lookup_erase_ne hid]; exact hloop
    | onOpen r' =>
        rw [hl] at hloop
        obtain ⟨hr', hobj⟩ := hloop
        refine ⟨fun hmem => ?_, hobj⟩
        rcases List.mem_append.1 hmem with hmem | hmem
        · rcases List.mem_append.1 hmem with hmem | hmem
          · exact hr' (List.mem_append_left _ hmem)
          · obtain rfl : r' = r := by simpa using hmem
            exact hr' (List.mem_append_right _ hrun)
        · exact hr' (List.mem_append_right _ (List.erase_subset hmem))
    | remove id =>
        rw [hl] at hloop
        intro r' hlook
        exact List.mem_append_left _ (hloop r' (Mux.lookup_of_lookup_erase hlook))

/-- A handler writes END: nobody else has its id. -/
theorem inv_callEnd {r : Ref} {st : Status} (hi : Inv x) (h : x.step (.callEnd r st) = some x') :
    Inv x' := by
  simp only [Traced.step, permitted, decide_eq_true_eq, releases, List.append_nil] at h
  split_ifs at h with hrun
  obtain ⟨srv, hsrv, rfl⟩ := Option.map_eq_some_iff.1 h
  obtain ⟨s, hs, rfl⟩ := Option.map_eq_some_iff.1 hsrv
  have hk : Mux.Keeps x.srv.mux (x.srv.mux.setObj r (s.failWith (some (.status st)))) :=
    Mux.keeps_failWith hs _
  refine hi.keeps hk (by simp [Mux.setObj]) rfl rfl (List.Subset.refl _)
    (fun r hr => hi.bound r (List.mem_append_left _ hr)) ?_ (hi.loop.keeps hk rfl)
  intro e he
  rcases List.mem_append.1 he with he | he
  · exact hi.owns.ends e he
  · obtain rfl : e = (r, x.srv.mux.streams.lookup s.id) := by simpa [endsOf, hs] using he
    rcases Option.eq_none_or_eq_some (x.srv.mux.streams.lookup s.id) with hnone | ⟨r', hlook⟩
    · exact Or.inl hnone
    · obtain rfl : r' = r := hi.sole r hrun s hs r' hlook
      exact Or.inr hlook

/-- The connection is lost: every stream is released. -/
theorem inv_connLost (hi : Inv x) (h : x.step .connLost = some x') : Inv x' := by
  simp only [Traced.step, permitted, if_true, endsOf, List.append_nil] at h
  obtain ⟨srv, hsrv, rfl⟩ := Option.map_eq_some_iff.1 h
  simp only [Server.step] at hsrv
  split_ifs at hsrv
  cases hsrv
  have hlen := x.srv.mux.length_failAll x.srv.mux.disconnectErr
  exact {
    named := hi.named.failAll _
    owns :=
      { registered := fun r s hs hr => by
          have hlt : r < x.srv.mux.objs.length := hlen ▸ (List.getElem?_eq_some_iff.1 hs).1
          exact absurd (List.mem_append_right _ (List.mem_range.2 hlt)) hr
        ends := hi.owns.ends }
    sole := fun r _ s _ r' hlook => by cases hlook
    bound := fun r hr => by
      rw [hlen]
      rcases List.mem_append.1 hr with hr | hr
      · rcases List.mem_append.1 hr with hr | hr
        · exact hi.bound r (List.mem_append_left _ hr)
        · exact List.mem_range.1 hr
      · exact hi.bound r (List.mem_append_right _ hr)
    loop := trivial }

/-- **One step** that meets the condition. -/
theorem inv_step {a : Act} (hi : Inv x) (hfresh : Fresh x a) (h : x.step a = some x') : Inv x' := by
  cases a with
  | frame f => exact inv_frame hi h
  | loop => exact inv_loop hi hfresh h
  | connLost => exact inv_connLost hi h
  | op r o =>
      simp only [Traced.step, permitted, if_true, releases, endsOf, List.append_nil] at h
      obtain ⟨srv, hsrv, rfl⟩ := Option.map_eq_some_iff.1 h
      obtain ⟨s, hs, rfl⟩ := Option.map_eq_some_iff.1 hsrv
      have hk := Mux.keeps_op hs o
      exact hi.keeps hk (by simp [Mux.setObj]) rfl rfl (List.Subset.refl _)
        (fun r hr => hi.bound r (List.mem_append_left _ hr)) hi.owns.ends (hi.loop.keeps hk rfl)
  | callEnd r st => exact inv_callEnd hi h
  | ret r => exact inv_ret hi h

/-! ## Whole runs -/

/-- A registration under the id of a handler that runs: the return of the handler takes
the new stream out of the registry. -/
theorem not_owns_of_ret {f : Frame} {r : Ref} {s : Stream} (hi : Inv x)
    (hl : x.srv.loop = .register f) (hr : r ∈ x.srv.running) (hs : x.srv.mux.objs[r]? = some s)
    (hid : s.id = f.streamId) :
    ∃ y z, x.step .loop = some y ∧ y.step (.ret r) = some z ∧ ¬ Owns z := by
  have hlt : r < x.srv.mux.objs.length := (List.getElem?_eq_some_iff.1 hs).1
  let y : Traced :=
    { x with
      srv := { x.srv with
        mux := (x.srv.mux.register f).1, loop := .onOpen (x.srv.mux.register f).2 } }
  have hy : x.step .loop = some y := by
    simp [Traced.step, permitted, Server.step, Server.loopStep, hl, releases, endsOf, y]
  have hs' : y.srv.mux.objs[r]? = some s := by
    simpa [y, Mux.register, List.getElem?_append_left hlt] using hs
  let z : Traced :=
    { y with
      srv := { y.srv with mux := y.srv.mux.remove s.id, running := y.srv.running.erase r }
      released := x.released ++ [r] }
  have hz : y.step (.ret r) = some z := by
    simp [Traced.step, permitted, Server.step, show r ∈ y.srv.running from hr, hs', releases,
      endsOf, z, y]
  refine ⟨y, z, hy, hz, fun howns => ?_⟩
  -- the new stream has not been released, but its id has been erased
  have hnew : x.srv.mux.objs.length ∉ z.released := by
    intro hmem
    rcases List.mem_append.1 hmem with hmem | hmem
    · exact absurd (hi.bound _ (List.mem_append_left _ hmem)) (lt_irrefl _)
    · obtain rfl : x.srv.mux.objs.length = r := by simpa using hmem
      exact absurd hlt (lt_irrefl _)
  obtain ⟨t, ht, hlook⟩ := Server.registered_register x.srv.mux f
  have hidt : t.id = f.streamId := by
    obtain rfl : _ = t := by simpa [Mux.register] using ht
    rfl
  have hgone : z.srv.mux.streams.lookup t.id = none := by
    show ((x.srv.mux.register f).1.streams.erase s.id).lookup t.id = none
    rw [hidt, hid, AList.lookup_erase]
  rw [howns.registered _ t ht hnew] at hgone
  cases hgone

/-- **Ownership holds exactly as long as ids are reused only after their handlers have
returned.**  In every run that meets the condition every stream that has not been released
is registered under its id, and no END was written while another stream had the id; and a
step of the read loop leaves every later return harmless exactly if it meets the
condition. -/
theorem owns_of_fresh (W N : ℤ) :
    ∀ x, Reach Traced.step Fresh (Traced.start W N) x →
      Owns x ∧
      ((∀ y z r, x.step .loop = some y → y.step (.ret r) = some z → Owns z) ↔ Fresh x .loop) := by
  intro x hr
  have hi : Inv x := hr.invariant (inv_start W N) fun _ _ _ hi hf hs => inv_step hi hf hs
  refine ⟨hi.owns, fun hall => ?_, fun hf y z r hy hz => ?_⟩
  · intro f hreg r hr s hs hid
    have hl : x.srv.loop = .register f := by
      rw [registering] at hreg
      split at hreg
      · rename_i g hg
        obtain rfl : g = f := by simpa using hreg
        exact hg
      · cases hreg
    obtain ⟨y, z, hy, hz, hnot⟩ := not_owns_of_ret hi hl hr hs hid
    exact hnot (hall y z r hy hz)
  · exact (inv_ret (inv_step hi hf hy) hz).owns

/-- An id that is reused after the handler of the reset stream has returned. -/
theorem owns_of_fresh_reused :
    ∃ x, Reach Traced.step Fresh (Traced.start 0 0) x ∧ x.released = [0, 0] ∧
      x.srv.running = [1] ∧ Owns x := by
  obtain ⟨x, hr, hp⟩ := exists_reach_of_exec Traced.step Fresh (Traced.start 0 0)
    (fun x : Traced => decide (x.released = [0, 0] ∧ x.srv.running = [1]))
    [.frame { streamId := 1, kind := .kindOpen }, .loop, .loop, .loop,
      .frame { streamId := 1, kind := .kindRst }, .loop,
      .callEnd 0 { code := Code.ok, message := .empty }, .ret 0,
      .frame { streamId := 1, kind := .kindOpen }, .loop, .loop, .loop] (by decide)
  obtain ⟨hrel, hrun⟩ := of_decide_eq_true hp
  exact ⟨x, hr, hrel, hrun, (owns_of_fresh 0 0 x hr).1⟩

/-- **A handler detaches the successor of its stream.**  Stream 1 is reset and its id
opened again; the first handler then writes its END, with the new stream registered under
the id, and its return takes the new stream out of the registry. -/
theorem owner_detached :
    ∃ x, Reach Traced.step Always (Traced.start 0 0) x ∧
      (x.srv.mux.objs[1]?).map Stream.id = some 1 ∧ 1 ∉ x.released ∧
      x.srv.mux.streams.lookup 1 = none ∧ (0, some 1) ∈ x.ends := by
  obtain ⟨x, hr, hp⟩ := exists_reach_of_exec Traced.step Always (Traced.start 0 0)
    (fun x : Traced => decide ((x.srv.mux.objs[1]?).map Stream.id = some 1 ∧ 1 ∉ x.released ∧
      x.srv.mux.streams.lookup 1 = none ∧ (0, some 1) ∈ x.ends))
    [.frame { streamId := 1, kind := .kindOpen }, .loop, .loop, .loop,
      .frame { streamId := 1, kind := .kindRst }, .loop,
      .frame { streamId := 1, kind := .kindOpen }, .loop, .loop, .loop,
      .callEnd 0 { code := Code.ok, message := .empty }, .ret 0] (by decide)
  exact ⟨x, hr, of_decide_eq_true hp⟩

end WsProto.Go.Ownership
