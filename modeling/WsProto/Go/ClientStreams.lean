import WsProto.Lib.Run
import WsProto.Go.Ops
import WsProto.Go.Inbound.Model

/-!
# Client streams and the end of their connection

A client mux, any number of `newClientStream` calls, and the read loop.  A call
allocates an id and makes its stream, registers it, and writes OPEN — three steps
between which the read loop may fail, run `failAll` over the registry, and return.
The connection is any `FrameConn`: its `WriteFrame` may still accept a frame after
the read side has failed, as the in-memory pipe does when a buffer slot is free.

* `ended_of_noticed` — once the read loop has returned, every stream a call has
  returned has ended or has a done context, and a receive on it finds a ready case,
  in every run in which no OPEN is accepted for a stream registered too late for
  `failAll`, and no id is taken while it is in use;
* `stream_survives_connection` — the race between a registration and `failAll`
  does leave a live stream on a dead connection.
-/

namespace WsProto.Go.ClientStreams

open Machine

/-! ## The model -/

/-- Where a `newClientStream` call stands. -/
inductive CallPc where
  /-- The id is allocated and the stream made. -/
  | made (r : Ref)
  /-- The stream is registered, the write of OPEN is next; `late` if the read loop
  had already returned. -/
  | registered (r : Ref) (late : Bool)
  /-- The call has returned the stream. -/
  | returned (r : Ref)
  /-- The call has removed the stream and returned an error. -/
  | failed
  deriving DecidableEq

/-- A client mux, its calls, and whether its read loop still runs. -/
structure Client where
  mux : Mux
  calls : List CallPc := []
  reading : Bool := true
  deriving DecidableEq

inductive Act where
  | newClientStream (ctxErr : Option CtxErr) (method : Text)
  | register (i : ℕ)
  /-- `WriteFrame` accepts OPEN. -/
  | openOk (i : ℕ)
  /-- `WriteFrame` fails. -/
  | openErr (i : ℕ)
  | route (f : Frame)
  | op (r : Ref) (o : StreamOp)
  /-- `Close`, up to closing the connection. -/
  | close
  /-- `ReadFrame` fails: `failAll`, and the read loop returns. -/
  | readFail
  deriving DecidableEq

/-- The stream of a call that is registered or was. -/
def CallPc.active : CallPc → Option Ref
  | .registered r _ | .returned r => some r
  | .made _ | .failed => none

namespace Client

/-- The first part of `newClientStream`: allocate an id and make the stream. -/
def newClientStream (m : Mux) (ctxErr : Option CtxErr) (method : Text) : Mux :=
  { m with
    nextID := m.nextID + 2
    objs := m.objs ++ [newStream ctxErr m.nextID method m.initialWindow] }

def step (x : Client) : Act → Option Client
  | .newClientStream ctxErr method =>
      some { x with
        mux := newClientStream x.mux ctxErr method
        calls := x.calls ++ [.made x.mux.objs.length] }
  | .register i =>
      match x.calls[i]? with
      | some (.made r) =>
          (x.mux.objs[r]?).map fun s =>
            { x with
              mux := { x.mux with streams := x.mux.streams.insert s.id r }
              calls := x.calls.set i (.registered r !x.reading) }
      | _ => none
  | .openOk i =>
      match x.calls[i]? with
      | some (.registered r _) => some { x with calls := x.calls.set i (.returned r) }
      | _ => none
  | .openErr i =>
      match x.calls[i]? with
      | some (.registered r _) =>
          (x.mux.objs[r]?).map fun s =>
            { x with mux := x.mux.remove s.id, calls := x.calls.set i .failed }
      | _ => none
  | .route f => if x.reading then some { x with mux := (x.mux.route f).1 } else none
  | .op r o => (x.mux.objs[r]?).map fun s => { x with mux := x.mux.setObj r (o.run s).1 }
  | .close => some { x with mux := { x.mux with closedFlag := true } }
  | .readFail =>
      if x.reading then
        some { x with
          mux := { x.mux.failAll x.mux.disconnectErr with ctxErr := some .canceled }
          reading := false }
      else none

/-- A fresh client mux with window `W`. -/
def start (W : ℤ) : Client := { mux := newMuxConfig false W 0 }

/-! ## The condition -/

/-- The id of a stream. -/
def idOf (m : Mux) (r : Ref) : Option UInt32 := (m.objs[r]?).map (·.id)

/-- The stream of call `i`, made and not yet registered. -/
def madeRef (x : Client) (i : ℕ) : Option Ref :=
  match x.calls[i]? with
  | some (.made r) => some r
  | _ => none

/-- The stream of call `i`, registered after the read loop had returned. -/
def lateRef (x : Client) (i : ℕ) : Option Ref :=
  match x.calls[i]? with
  | some (.registered r true) => some r
  | _ => none

/-- The stream of a call that has registered it and not yet returned. -/
def openRef : CallPc → Option Ref
  | .registered r _ => some r
  | _ => none

/-- The id is registered, or the id of a call that has not returned. -/
def busy (x : Client) (id : Option UInt32) : Prop :=
  (∃ k ∈ id, k ∈ x.mux.streams) ∨ ∃ pc ∈ x.calls, ∃ r ∈ openRef pc, idOf x.mux r = id

instance (x : Client) (id : Option UInt32) : Decidable (busy x id) :=
  inferInstanceAs (Decidable (_ ∨ _))

/-- The condition on a step: an id is not taken while it is in use, and OPEN is
not accepted for a stream that was registered after the read loop had returned,
unless its context is done. -/
def Noticed (x : Client) : Act → Prop
  | .register i => x.reading = true → ∀ r ∈ x.madeRef i, ¬ x.busy (idOf x.mux r)
  | .openOk i => ∀ r ∈ x.lateRef i, ∃ s ∈ x.mux.objs[r]?, s.ctxErr ≠ none
  | _ => True

instance (x : Client) : (a : Act) → Decidable (Noticed x a)
  | .register _ => inferInstanceAs (Decidable (_ → ∀ r ∈ _, _))
  | .openOk _ => inferInstanceAs (Decidable (∀ r ∈ _, _))
  | .newClientStream _ _ | .openErr _ | .route _ | .op _ _ | .close | .readFail =>
      inferInstanceAs (Decidable True)

/-! ## What is kept about a stream -/

variable {x x' : Client} {m m' : Mux} {r r' : Ref}

/-- The stream has ended. -/
def Ended (m : Mux) (r : Ref) : Prop := ∃ s, m.objs[r]? = some s ∧ s.ended = true

/-- The stream has ended, or its context is done. -/
def Over (m : Mux) (r : Ref) : Prop := ∃ s, m.objs[r]? = some s ∧ (s.ended = true ∨ s.ctxErr ≠ none)

/-- The stream is registered under its id. -/
def Under (m : Mux) (r : Ref) : Prop := ∃ s, m.objs[r]? = some s ∧ m.streams.lookup s.id = some r

/-- The stream a call makes is the next object. -/
theorem newClientStream_obj (m : Mux) (ctxErr : Option CtxErr) (method : Text) :
    (newClientStream m ctxErr method).objs[m.objs.length]? =
      some (newStream ctxErr m.nextID method m.initialWindow) := by
  simp [newClientStream]

theorem keeps_newClientStream (m : Mux) (ctxErr : Option CtxErr) (method : Text) :
    Mux.Keeps m (newClientStream m ctxErr method) :=
  (Mux.keeps_append _).trans (Mux.keeps_of_objs rfl)

theorem named_newClientStream (h : m.Named) (ctxErr : Option CtxErr) (method : Text) :
    (newClientStream m ctxErr method).Named :=
  h.keeps (keeps_newClientStream m ctxErr method) fun _ _ hl => hl

theorem Ended.keeps (h : Ended m r) (hk : Mux.Keeps m m') : Ended m' r := by
  obtain ⟨s, hs, he⟩ := h
  obtain ⟨s', hs', -, hend, -⟩ := hk r s hs
  exact ⟨s', hs', hend he⟩

theorem Over.keeps (h : Over m r) (hk : Mux.Keeps m m') : Over m' r := by
  obtain ⟨s, hs, he⟩ := h
  obtain ⟨s', hs', -, hend, hctx⟩ := hk r s hs
  exact ⟨s', hs', he.imp hend hctx⟩

theorem Under.keeps (h : Under m r) (hk : Mux.Keeps m m')
    (hl : ∀ s, m.objs[r]? = some s → m.streams.lookup s.id = some r →
      m'.streams.lookup s.id = some r) : Under m' r := by
  obtain ⟨s, hs, hlook⟩ := h
  obtain ⟨s', hs', hid, -, -⟩ := hk r s hs
  exact ⟨s', hs', by rw [hid]; exact hl s hs hlook⟩

theorem Ended.over (h : Ended m r) : Over m r := by
  obtain ⟨s, hs, he⟩ := h
  exact ⟨s, hs, Or.inl he⟩

/-- Only objects that were there matter for ids. -/
theorem idOf_keeps (hk : Mux.Keeps m m') {s : Stream} (hs : m.objs[r]? = some s) :
    idOf m' r = idOf m r := by
  obtain ⟨s', hs', hid, -, -⟩ := hk r s hs
  simp [Client.idOf, hs, hs', hid]

/-- The invariant.  While the read loop runs, the stream of a call is registered
or has ended, and no other stream that counts shares the id of a call that has not
returned; afterwards, every stream `failAll` had to see is over. -/
structure Inv (x : Client) : Prop where
  client : x.mux.server = false
  held : x.reading = true → ∀ pc ∈ x.calls, ∀ r ∈ pc.active, Ended x.mux r ∨ Under x.mux r
  unique : x.reading = true → ∀ (i j : ℕ) (pc pc' : CallPc) (r r' : Ref), i ≠ j → x.calls[i]? = some pc →
    openRef pc = some r → x.calls[j]? = some pc' → pc'.active = some r' →
    idOf x.mux r = idOf x.mux r' → Ended x.mux r'
  finished : x.reading = false → ∀ pc ∈ x.calls, ∀ r, pc = .registered r false ∨ pc = .returned r →
    Over x.mux r

theorem inv_start (W : ℤ) : Inv (start W) := by
  constructor <;> simp [start, newMuxConfig]

/-- A registered or ended stream exists. -/
theorem exists_obj (h : Ended m r ∨ Under m r) : ∃ s, m.objs[r]? = some s := by
  rcases h with ⟨s, hs, -⟩ | ⟨s, hs, -⟩ <;> exact ⟨s, hs⟩

theorem active_of_openRef {pc : CallPc} (h : openRef pc = some r) : pc.active = some r := by
  cases pc <;> simp_all [openRef, CallPc.active]

/-- A step of the mux that keeps its objects, and whose registry lets go only of
streams that have ended. -/
theorem Inv.of_keeps (hi : Inv x) (hc : m'.server = x.mux.server) (hk : Mux.Keeps x.mux m')
    (hreg : x.reading = true → ∀ r, Under x.mux r → Ended m' r ∨ Under m' r) :
    Inv { x with mux := m' } where
  client := hc.trans hi.client
  held hr pc hpc r hact := by
    rcases hi.held hr pc hpc r hact with he | hu
    · exact Or.inl (he.keeps hk)
    · exact hreg hr r hu
  unique hr i j pc pc' r r' hij hi' hpc hj hact hid := by
    obtain ⟨s, hs⟩ := exists_obj (hi.held hr pc (List.mem_of_getElem? hi') r
      (active_of_openRef hpc))
    obtain ⟨s', hs'⟩ := exists_obj (hi.held hr pc' (List.mem_of_getElem? hj) r' hact)
    have hid' : idOf x.mux r = idOf x.mux r' := by
      rw [← idOf_keeps hk hs, ← idOf_keeps hk hs']; exact hid
    exact (hi.unique hr i j pc pc' r r' hij hi' hpc hj hact hid').keeps hk
  finished hr pc hpc r hd := (hi.finished hr pc hpc r hd).keeps hk

/-! ## Steps of the mux -/

/-- Letting go of an id: whoever was registered under it must have ended. -/
theorem under_remove {id : UInt32} (h : Under m r)
    (hid : ∀ s, m.objs[r]? = some s → s.id = id → s.ended = true) :
    Ended (m.remove id) r ∨ Under (m.remove id) r := by
  obtain ⟨s, hs, hlook⟩ := h
  by_cases he : s.id = id
  · exact Or.inl ⟨s, hs, hid s hs he⟩
  · exact Or.inr ⟨s, hs, by rw [Mux.remove, AList.lookup_erase_ne he]; exact hlook⟩

/-- A registration under a free id displaces nobody. -/
theorem under_register {f : Frame} (hfree : m.dupOpen f = false) (hu : Under m r) :
    Under (m.register f).1 r := by
  refine hu.keeps ((Mux.keeps_append _).trans (Mux.keeps_of_objs rfl)) fun s _ hlook => ?_
  have hne : s.id ≠ f.streamId := by
    intro hid
    rw [hid] at hlook
    simp [Mux.dupOpen, hlook] at hfree
  rw [← hlook]
  exact AList.lookup_insert_ne hne

/-- A stream that a mux lets go of when it routes a frame has ended. -/
theorem under_route (f : Frame) (hu : Under m r) :
    Ended (m.route f).1 r ∨ Under (m.route f).1 r := by
  unfold Mux.route
  split
  · right
    unfold Mux.routeOpen
    split_ifs with _ hdup
    · exact hu
    · simpa [Under] using hu
    · simpa [Under] using hu
    · exact under_register (by simpa using hdup) hu
  · unfold Mux.routeFrame
    split
    · exact Or.inr hu
    · rename_i r₀ s₀ hfind
      obtain ⟨hlook, hs⟩ := Mux.find_eq_some.1 hfind
      have hk := Mux.keeps_onFrame (f := f) hs
      have hu' := hu.keeps hk fun t _ hl => hl
      have hgone : ∀ s', (s₀.onFrame m.server f = .removed s' ∨
          s₀.onFrame m.server f = .overflowed s') →
          Ended ((m.setObj r₀ s').remove f.streamId) r ∨
            Under ((m.setObj r₀ s').remove f.streamId) r := by
        intro s' hr
        have hstream : (s₀.onFrame m.server f).stream = s' := by
          rcases hr with hr | hr <;> rw [hr] <;> rfl
        rw [hstream] at hu'
        refine under_remove hu' fun t ht hid => ?_
        obtain ⟨t', ht', hlook'⟩ := hu'
        obtain rfl : t = t' := Option.some.inj (ht.symm.trans ht')
        obtain rfl : r₀ = r := by
          rw [hid] at hlook'
          exact Option.some.inj (hlook.symm.trans hlook')
        have hlt : r₀ < m.objs.length := (List.getElem?_eq_some_iff.1 hs).1
        obtain rfl : s' = t := by simpa [Mux.setObj, hlt] using ht
        exact Stream.onFrame_ended hr
      split
      · rename_i s' hr
        rw [hr] at hu'
        exact Or.inr hu'
      · rename_i s' hr
        exact hgone s' (Or.inl hr)
      · rename_i s' hr
        simpa [Ended, Under, Mux.remove] using hgone s' (Or.inr hr)

/-- `failAll` ends whatever is registered, so nothing that counts is left alive. -/
theorem inv_readFail (hi : Inv x) (hr : x.reading = true) :
    Inv { x with
      mux := { x.mux.failAll x.mux.disconnectErr with ctxErr := some .canceled }
      reading := false } where
  client := hi.client
  held h := by cases h
  unique h := by cases h
  finished _ pc hpc r hd := by
    have hact : pc.active = some r := by rcases hd with rfl | rfl <;> rfl
    rcases hi.held hr pc hpc r hact with he | ⟨s, hs, hlook⟩
    · exact (he.keeps (Mux.keeps_failAll x.mux _)).over
    · obtain ⟨s', hs', -, -, -, hend⟩ := x.mux.failAll_objs x.mux.disconnectErr hs
      exact ⟨s', hs', Or.inl (hend ⟨_, hlook⟩)⟩

/-! ## Steps of a call -/

theorem inv_new (hi : Inv x) (ctxErr : Option CtxErr) (method : Text) :
    Inv { x with
      mux := newClientStream x.mux ctxErr method
      calls := x.calls ++ [.made x.mux.objs.length] } := by
  have hk : Mux.Keeps x.mux (newClientStream x.mux ctxErr method) :=
    keeps_newClientStream x.mux ctxErr method
  have hm : Inv { x with mux := newClientStream x.mux ctxErr method } :=
    hi.of_keeps rfl hk fun _ r hu => Or.inr (hu.keeps hk fun t _ hl => hl)
  -- the new call has no stream that counts yet
  have hnew : ∀ (i : ℕ) (pc : CallPc) (r : Ref), (x.calls ++ [.made x.mux.objs.length])[i]? = some pc →
      pc.active = some r → x.calls[i]? = some pc := by
    intro i pc r hi' hact
    rcases of_getElem?_concat hi' with hold | ⟨-, rfl⟩
    · exact hold
    · cases hact
  refine {
    client := hm.client
    held := fun hr pc hpc r hact => ?_
    unique := fun hr i j pc pc' r r' hij hi' hpc hj hact =>
      hm.unique hr i j pc pc' r r' hij (hnew i pc r hi' (active_of_openRef hpc)) hpc
        (hnew j pc' r' hj hact) hact
    finished := fun hr pc hpc r hd => ?_ }
  · obtain ⟨i, hi'⟩ := List.mem_iff_getElem?.1 hpc
    exact hm.held hr pc (List.mem_of_getElem? (hnew i pc r hi' hact)) r hact
  · obtain ⟨i, hi'⟩ := List.mem_iff_getElem?.1 hpc
    have hact : pc.active = some r := by rcases hd with rfl | rfl <;> rfl
    exact hm.finished hr pc (List.mem_of_getElem? (hnew i pc r hi' hact)) r hd

/-- The calls after call `i` has moved to `pc`. -/
theorem getElem?_set_calls {calls : List CallPc} {i j : ℕ} {pc pc' : CallPc}
    (h : (calls.set i pc)[j]? = some pc') :
    (j = i ∧ pc' = pc) ∨ (j ≠ i ∧ calls[j]? = some pc') := by
  by_cases hj : i = j
  · subst hj
    left
    rw [List.getElem?_set_self'] at h
    obtain ⟨_, -, rfl⟩ := Option.map_eq_some_iff.1 h
    exact ⟨rfl, rfl⟩
  · right
    rw [List.getElem?_set_ne hj] at h
    exact ⟨Ne.symm hj, h⟩

theorem inv_register (hi : Inv x) {i : ℕ} {r : Ref} {s : Stream}
    (hcall : x.calls[i]? = some (.made r)) (hs : x.mux.objs[r]? = some s)
    (hk : Noticed x (.register i)) :
    Inv { x with
      mux := { x.mux with streams := x.mux.streams.insert s.id r }
      calls := x.calls.set i (.registered r !x.reading) } := by
  have hmade : x.madeRef i = some r := by simp [madeRef, hcall]
  have hidr : idOf x.mux r = some s.id := by simp [Client.idOf, hs]
  -- while the read loop runs, the id is free
  have hfree : x.reading = true → x.mux.streams.lookup s.id = none := by
    intro hr
    by_contra hne
    refine hk hr r hmade (Or.inl ⟨s.id, hidr, ?_⟩)
    exact AList.lookup_isSome.1 (Option.isSome_iff_ne_none.2 hne)
  have hother : x.reading = true → ∀ r', Under x.mux r' →
      Under { x.mux with streams := x.mux.streams.insert s.id r } r' := by
    rintro hr r' ⟨t, ht, hlook⟩
    refine ⟨t, ht, ?_⟩
    have hne : t.id ≠ s.id := by
      intro he
      rw [he, hfree hr] at hlook
      cases hlook
    rw [AList.lookup_insert_ne hne]
    exact hlook
  refine {
    client := hi.client
    held := fun hr pc hpc r' hact => ?_
    unique := fun hr j k pc pc' r₁ r₂ hjk hj hpc hk' hact hid => ?_
    finished := fun hr pc hpc r' hd => ?_ }
  · obtain ⟨j, hj⟩ := List.mem_iff_getElem?.1 hpc
    rcases getElem?_set_calls hj with ⟨-, rfl⟩ | ⟨-, hj⟩
    · obtain rfl : r = r' := by simpa [CallPc.active] using hact
      exact Or.inr ⟨s, hs, AList.lookup_insert _⟩
    · rcases hi.held hr pc (List.mem_of_getElem? hj) r' hact with he | hu
      · exact Or.inl he
      · exact Or.inr (hother hr r' hu)
  · rcases getElem?_set_calls hj with ⟨rfl, rfl⟩ | ⟨hji, hj⟩
    · -- the new registration: the others with this id have ended
      rcases getElem?_set_calls hk' with ⟨rfl, -⟩ | ⟨-, hk'⟩
      · exact absurd rfl hjk
      · obtain rfl : r = r₁ := by simpa [openRef] using hpc
        rcases hi.held hr pc' (List.mem_of_getElem? hk') r₂ hact with he | ⟨t, ht, hlook⟩
        · exact he
        · have hst : s.id = t.id := by simpa [Client.idOf, hs, ht] using hid
          rw [← hst, hfree hr] at hlook
          cases hlook
    · rcases getElem?_set_calls hk' with ⟨hki, rfl⟩ | ⟨-, hk'⟩
      · -- no call that has not returned has the id
        obtain rfl : r = r₂ := by simpa [CallPc.active] using hact
        exact absurd (Or.inr ⟨pc, List.mem_of_getElem? hj, r₁, hpc, hid⟩) (hk hr r hmade)
      · exact hi.unique hr j k pc pc' r₁ r₂ hjk hj hpc hk' hact hid
  · obtain ⟨j, hj⟩ := List.mem_iff_getElem?.1 hpc
    rcases getElem?_set_calls hj with ⟨-, rfl⟩ | ⟨-, hj⟩
    · have hr' : x.reading = false := hr
      simp [hr'] at hd
    · exact hi.finished hr pc (List.mem_of_getElem? hj) r' hd

theorem inv_openOk (hi : Inv x) {i : ℕ} {r : Ref} {late : Bool}
    (hcall : x.calls[i]? = some (.registered r late)) (hk : Noticed x (.openOk i)) :
    Inv { x with calls := x.calls.set i (.returned r) } := by
  have hmem := List.mem_of_getElem? hcall
  refine {
    client := hi.client
    held := fun hr pc hpc r' hact => ?_
    unique := fun hr j k pc pc' r₁ r₂ hjk hj hpc hk' hact hid => ?_
    finished := fun hr pc hpc r' hd => ?_ }
  · obtain ⟨j, hj⟩ := List.mem_iff_getElem?.1 hpc
    rcases getElem?_set_calls hj with ⟨-, rfl⟩ | ⟨-, hj⟩
    · exact hi.held hr _ hmem r' (by simpa [CallPc.active] using hact)
    · exact hi.held hr pc (List.mem_of_getElem? hj) r' hact
  · rcases getElem?_set_calls hj with ⟨rfl, rfl⟩ | ⟨hji, hj⟩
    · cases hpc
    · rcases getElem?_set_calls hk' with ⟨hki, rfl⟩ | ⟨-, hk'⟩
      · exact hi.unique hr j i pc _ r₁ r₂ hji hj hpc hcall (by simpa [CallPc.active] using hact) hid
      · exact hi.unique hr j k pc pc' r₁ r₂ hjk hj hpc hk' hact hid
  · obtain ⟨j, hj⟩ := List.mem_iff_getElem?.1 hpc
    rcases getElem?_set_calls hj with ⟨-, rfl⟩ | ⟨-, hj⟩
    · obtain rfl : r = r' := by simpa using hd
      cases late with
      | false => exact hi.finished hr _ hmem r (Or.inl rfl)
      | true =>
          obtain ⟨s, hs, hctx⟩ := hk r (by simp [lateRef, hcall])
          exact ⟨s, hs, Or.inr hctx⟩
    · exact hi.finished hr pc (List.mem_of_getElem? hj) r' hd

theorem inv_openErr (hi : Inv x) {i : ℕ} {r : Ref} {late : Bool} {s : Stream}
    (hcall : x.calls[i]? = some (.registered r late)) (hs : x.mux.objs[r]? = some s) :
    Inv { x with mux := x.mux.remove s.id, calls := x.calls.set i .failed } := by
  refine {
    client := hi.client
    held := fun hr pc hpc r' hact => ?_
    unique := fun hr j k pc pc' r₁ r₂ hjk hj hpc hk' hact hid => ?_
    finished := fun hr pc hpc r' hd => ?_ }
  · obtain ⟨j, hj⟩ := List.mem_iff_getElem?.1 hpc
    rcases getElem?_set_calls hj with ⟨-, rfl⟩ | ⟨hji, hj⟩
    · cases hact
    · rcases hi.held hr pc (List.mem_of_getElem? hj) r' hact with he | hu
      · exact Or.inl he
      · -- the entry removed is the call's own, or that of a stream that has ended
        refine under_remove hu fun t ht hid => ?_
        have hsame : idOf x.mux r = idOf x.mux r' := by simp [Client.idOf, hs, ht, hid]
        obtain ⟨t', ht', hend⟩ := hi.unique hr i j _ pc r r' hji.symm hcall rfl hj hact hsame
        obtain rfl : t = t' := Option.some.inj (ht.symm.trans ht')
        exact hend
  · rcases getElem?_set_calls hj with ⟨-, rfl⟩ | ⟨-, hj⟩
    · cases hpc
    · rcases getElem?_set_calls hk' with ⟨-, rfl⟩ | ⟨-, hk'⟩
      · cases hact
      · exact hi.unique hr j k pc pc' r₁ r₂ hjk hj hpc hk' hact hid
  · obtain ⟨j, hj⟩ := List.mem_iff_getElem?.1 hpc
    rcases getElem?_set_calls hj with ⟨-, rfl⟩ | ⟨-, hj⟩
    · simp at hd
    · exact hi.finished hr pc (List.mem_of_getElem? hj) r' hd

/-! ## Every run -/

theorem inv_step {a : Act} (hi : Inv x) (hk : Noticed x a) (h : x.step a = some x') : Inv x' := by
  cases a with
  | newClientStream ctxErr method => cases h; exact inv_new hi ctxErr method
  | register i =>
      simp only [step] at h
      split at h
      · rename_i r hcall
        obtain ⟨s, hs, rfl⟩ := Option.map_eq_some_iff.1 h
        exact inv_register hi hcall hs hk
      · cases h
  | openOk i =>
      simp only [step] at h
      split at h
      · rename_i r late hcall
        cases h
        exact inv_openOk hi hcall hk
      · cases h
  | openErr i =>
      simp only [step] at h
      split at h
      · rename_i r late hcall
        obtain ⟨s, hs, rfl⟩ := Option.map_eq_some_iff.1 h
        exact inv_openErr hi hcall hs
      · cases h
  | route f =>
      obtain ⟨-, ⟨⟩⟩ := Option.ite_none_right_eq_some.1 h
      exact hi.of_keeps (x.mux.route_mux f).2 (Mux.keeps_route x.mux f) fun _ r hu =>
        under_route f hu
  | op r o =>
      obtain ⟨s, hs, rfl⟩ := Option.map_eq_some_iff.1 h
      have hkeep := Mux.keeps_op hs o
      exact hi.of_keeps rfl hkeep fun _ r' hu => Or.inr (hu.keeps hkeep fun t _ hl => hl)
  | close =>
      cases h
      have hkeep : Mux.Keeps x.mux { x.mux with closedFlag := true } := Mux.keeps_of_objs rfl
      exact hi.of_keeps rfl hkeep fun _ r' hu => Or.inr (hu.keeps hkeep fun t _ hl => hl)
  | readFail =>
      obtain ⟨hr, ⟨⟩⟩ := Option.ite_none_right_eq_some.1 h
      exact inv_readFail hi hr

/-- A receive that waits on a stream that has ended or whose context is done has a
ready case. -/
theorem exists_ready (s : Stream) (h : s.ended = true ∨ s.ctxErr ≠ none) (y : Inbound)
    (hy : y.stream = s) : ∃ c, (y.selectStep c).isSome = true := by
  rcases h with h | h
  · exact ⟨.ended, by simp [Inbound.selectStep, hy, h]⟩
  · exact ⟨.ctxDone, by simpa [Inbound.selectStep, hy, Option.isSome_iff_ne_none] using h⟩

/-- **No stream survives its connection unnoticed**, in every run in which no id is
taken while it is in use, and no OPEN is accepted for a live stream that was
registered after the read loop had returned: once the read loop has returned, every
stream that a `newClientStream` call has returned has ended or has a done context,
and no receive on it can block. -/
theorem ended_of_noticed (W : ℤ) {x : Client} (h : Reach step Noticed (start W) x)
    (hdone : x.reading = false) {i : ℕ} {r : Ref} (hret : x.calls[i]? = some (.returned r)) :
    ∃ s, x.mux.objs[r]? = some s ∧ (s.ended = true ∨ s.ctxErr ≠ none) ∧
      ∀ y : Inbound, y.stream = s → ∃ c, (y.selectStep c).isSome = true := by
  have hi : Inv x := h.invariant (inv_start W) fun _ _ _ hi hk hs => inv_step hi hk hs
  obtain ⟨s, hs, hover⟩ := hi.finished hdone _ (List.mem_of_getElem? hret) r (Or.inr rfl)
  exact ⟨s, hs, hover, exists_ready s hover⟩

/-- A call returns its stream, the connection fails, and the stream has ended. -/
theorem ended_of_noticed_one :
    ∃ x : Client, Reach step Noticed (start 4) x ∧ x.reading = false ∧
      x.calls[0]? = some (.returned 0) ∧
      ∃ s, x.mux.objs[0]? = some s ∧ (s.ended = true ∨ s.ctxErr ≠ none) ∧
        ∀ y : Inbound, y.stream = s → ∃ c, (y.selectStep c).isSome = true := by
  obtain ⟨x, hx, hp⟩ := exists_reach_of_exec step Noticed (start 4)
    (fun x => decide (x.reading = false ∧ x.calls[0]? = some (CallPc.returned 0)))
    [.newClientStream none .empty, .register 0, .openOk 0, .readFail] (by decide)
  simp only [decide_eq_true_eq] at hp
  exact ⟨x, hx, hp.1, hp.2, ended_of_noticed 4 hx hp.1 hp.2⟩

/-- **A live stream on a dead connection.**  A call has made its stream when
`ReadFrame` fails; `failAll` finds an empty registry and the read loop returns; the
call registers the stream, and the write of OPEN is still accepted.  The stream is
returned, it has not ended, its context is live, and no case of a receive's
`select` is ready. -/
theorem stream_survives_connection :
    ∃ x : Client, Reach step Always (start 4) x ∧ x.reading = false ∧
      x.calls[0]? = some (.returned 0) ∧
      ∃ s, x.mux.objs[0]? = some s ∧ s.ended = false ∧ s.ctxErr = none ∧
        ∀ c, Inbound.selectStep { server := false, stream := s, recv := .select } c = none := by
  obtain ⟨x, hx, hp⟩ := exists_reach_of_exec step Always (start 4)
    (fun x => decide (x.reading = false ∧ x.calls[0]? = some (CallPc.returned 0) ∧
      x.mux.objs[0]? = some (newStream none 1 .empty 4)))
    [.newClientStream none .empty, .readFail, .register 0, .openOk 0] (by decide)
  simp only [decide_eq_true_eq] at hp
  refine ⟨x, hx, hp.1, hp.2.1, _, hp.2.2, rfl, rfl, ?_⟩
  intro c
  cases c <;> rfl

end Client

end WsProto.Go.ClientStreams
