import WsProto.Go.Mux

/-!
# What is done with a stream from outside the mux

The calls an application makes on a stream it holds, and the ends of its context,
as one family: each is a critical section of the stream, possibly with a frame to
write afterwards.  The systems built on the mux let any of them happen to any
stream at any time; all they need to know is what none of them can do — change the
id, reopen or close `ended` — and which of them end the context.
-/

namespace WsProto.Go

/-- The operations on a stream. -/
inductive StreamOp where
  | sendHeader (md : Option Headers)
  | setTrailer (md : Headers)
  | sendRaw (b : Payload)
  | closeSend
  | popRecv
  | returnCredit (n : ℤ)
  /-- `applyEnd`, which a receive calls on the terminal frame. -/
  | applyEnd (f : Frame)
  /-- `CloseResponse`: `s.cancel()`. -/
  | closeResponse
  /-- The context ends by itself: a cancelled parent or a deadline. -/
  | expire (e : CtxErr)
  deriving DecidableEq

namespace StreamOp

/-- What an operation does to its stream under the mutex, and the frame it writes
afterwards. -/
def run (s : Stream) : StreamOp → Stream × Option Frame
  | .sendHeader md =>
      match s.sendHeader md with
      | .ok (s', f) => (s', some f)
      | .error _ => (s, none)
  | .setTrailer md => (s.setTrailer md, none)
  | .sendRaw b =>
      match s.sendRaw b with
      | .charged s' f => (s', some f)
      | _ => (s, none)
  | .closeSend =>
      match s.closeSend with
      | some (s', f) => (s', some f)
      | none => (s, none)
  | .popRecv =>
      match s.popRecv with
      | some (_, s') => (s', none)
      | none => (s, none)
  | .returnCredit n =>
      ((s.returnCredit n).1,
        if (s.returnCredit n).2 = 0 then none else some (s.windowUpdate (s.returnCredit n).2))
  | .applyEnd f => ((s.applyEnd f).1, none)
  | .closeResponse => (s.cancel, none)
  | .expire e => (s.expire e, none)

/-- The operation ends the stream's context. -/
def endsCtx : StreamOp → Bool
  | .applyEnd _ | .closeResponse | .expire _ => true
  | _ => false

/-- What no operation does: the id and `ended` stay, the context too unless the
operation ends it, and the trailers unless it is `SetTrailer`. -/
theorem run_spec (o : StreamOp) (s : Stream) :
    (o.run s).1.id = s.id ∧ (o.run s).1.ended = s.ended ∧
      (o.endsCtx = false → (o.run s).1.ctxErr = s.ctxErr) ∧
      ((∀ md, o ≠ .setTrailer md) → (o.run s).1.outTrailer = s.outTrailer) := by
  cases o with
  | sendHeader md =>
      simp only [run, Stream.sendHeader]
      split_ifs <;> simp
  | setTrailer md =>
      simp only [run, Stream.setTrailer]
      split_ifs <;> simp
  | sendRaw b =>
      simp only [run, Stream.sendRaw]
      split_ifs
      · simp [Stream.chargeSend]
      · cases s.sendBlockErrLocked <;> simp
  | closeSend =>
      simp only [run, Stream.closeSend]
      split_ifs <;> simp
  | popRecv =>
      simp only [run, Stream.popRecv]
      cases s.recvItems <;> simp
  | returnCredit n =>
      obtain ⟨p, hp⟩ := s.returnCredit_fst n
      simp [run, hp]
  | applyEnd f => exact ⟨rfl, rfl, by simp [endsCtx], fun _ => rfl⟩
  | closeResponse => exact ⟨rfl, rfl, by simp [endsCtx], fun _ => rfl⟩
  | expire e => exact ⟨rfl, rfl, by simp [endsCtx], fun _ => rfl⟩

theorem run_ctxErr_of_endsCtx {o : StreamOp} (h : o.endsCtx = true) (s : Stream) :
    (o.run s).1.ctxErr ≠ none := by
  cases o <;> simp_all [endsCtx, run, Stream.applyEnd, Stream.cancel, Stream.expire]

/-- A done context stays done. -/
theorem run_ctxErr_ne_none (o : StreamOp) {s : Stream} (h : s.ctxErr ≠ none) :
    (o.run s).1.ctxErr ≠ none := by
  cases he : o.endsCtx with
  | false => rw [(o.run_spec s).2.2.1 he]; exact h
  | true => exact run_ctxErr_of_endsCtx he s

/-- The frames the operations write: no OPEN, END or RST. -/
def Writes (k : Kind) : Prop :=
  k = .kindHeader ∨ k = .kindMsg ∨ k = .kindHalfClose ∨ k = .kindWindowUpdate

theorem run_writes (o : StreamOp) (s : Stream) {f : Frame} (h : (o.run s).2 = some f) :
    Writes f.kind ∧ f.streamId = s.id := by
  cases o with
  | sendHeader md =>
      simp only [run, Stream.sendHeader] at h
      split_ifs at h
      cases h; simp [Writes]
  | sendRaw b =>
      simp only [run, Stream.sendRaw] at h
      split_ifs at h
      · cases h; simp [Writes, Stream.msgFrame]
      · cases hb : s.sendBlockErrLocked <;> simp [hb] at h
  | closeSend =>
      simp only [run, Stream.closeSend] at h
      split_ifs at h
      cases h; simp [Writes]
  | popRecv =>
      simp only [run, Stream.popRecv] at h
      cases hr : s.recvItems <;> simp [hr] at h
  | returnCredit n =>
      simp only [run] at h
      split_ifs at h
      cases h; simp [Writes, Stream.windowUpdate]
  | setTrailer md => cases h
  | applyEnd f => cases h
  | closeResponse => cases h
  | expire e => cases h

end StreamOp

/-! ## What the objects of a mux keep -/

namespace Mux

variable {m m' : Mux} {r : Ref}

/-- Every object of `m` is in `m'`, with its id, and ended or done if it was. -/
def Keeps (m m' : Mux) : Prop :=
  ∀ (r : Ref) (s : Stream), m.objs[r]? = some s → ∃ s', m'.objs[r]? = some s' ∧ s'.id = s.id ∧
    (s.ended = true → s'.ended = true) ∧ (s.ctxErr ≠ none → s'.ctxErr ≠ none)

theorem Keeps.trans {m'' : Mux} (h : Keeps m m') (h' : Keeps m' m'') : Keeps m m'' := by
  intro r s hs
  obtain ⟨s', hs', hid, hend, hctx⟩ := h r s hs
  obtain ⟨s'', hs'', hid', hend', hctx'⟩ := h' r s' hs'
  exact ⟨s'', hs'', hid'.trans hid, hend' ∘ hend, hctx' ∘ hctx⟩

/-- Where no object was added, every object was there before. -/
theorem Keeps.back (h : Keeps m m') (hlen : m'.objs.length = m.objs.length) {s' : Stream}
    (hs' : m'.objs[r]? = some s') : ∃ s, m.objs[r]? = some s ∧ s'.id = s.id := by
  have hlt : r < m.objs.length := hlen ▸ (List.getElem?_eq_some_iff.1 hs').1
  obtain ⟨t, ht, hid, -, -⟩ := h r _ (List.getElem?_eq_getElem hlt)
  obtain rfl : s' = t := Option.some.inj (hs'.symm.trans ht)
  exact ⟨_, List.getElem?_eq_getElem hlt, hid⟩

theorem keeps_of_objs (h : m'.objs = m.objs) : Keeps m m' :=
  fun r s hs => ⟨s, by rw [h]; exact hs, rfl, id, id⟩

theorem keeps_setObj {s s' : Stream} (hs : m.objs[r]? = some s) (hid : s'.id = s.id)
    (hend : s.ended = true → s'.ended = true) (hctx : s.ctxErr ≠ none → s'.ctxErr ≠ none) :
    Keeps m (m.setObj r s') := by
  intro r' t ht
  by_cases hrr : r = r'
  · subst hrr
    obtain rfl : s = t := Option.some.inj (hs.symm.trans ht)
    have hlt : r < m.objs.length := (List.getElem?_eq_some_iff.1 hs).1
    exact ⟨s', by simp [Mux.setObj, hlt], hid, hend, hctx⟩
  · exact ⟨t, by simpa [Mux.setObj, List.getElem?_set_ne hrr] using ht, rfl, id, id⟩

theorem keeps_op {s : Stream} (hs : m.objs[r]? = some s) (o : StreamOp) :
    Keeps m (m.setObj r (o.run s).1) := by
  obtain ⟨hid, hend, -⟩ := o.run_spec s
  exact keeps_setObj hs hid (fun he => hend.trans he) o.run_ctxErr_ne_none

theorem keeps_failWith {s : Stream} (hs : m.objs[r]? = some s) (err : Option GoError) :
    Keeps m (m.setObj r (s.failWith err)) :=
  keeps_setObj hs rfl (fun _ => rfl) fun _ => by simp [Stream.failWith, Stream.cancel]

theorem keeps_onFrame {s : Stream} {f : Frame} (hs : m.objs[r]? = some s) :
    Keeps m (m.setObj r (s.onFrame m.server f).stream) := by
  refine keeps_setObj hs (s.onFrame_fixed _ f).id Stream.onFrame_ended_mono fun hctx => ?_
  rw [Stream.onFrame_ctxErr (Stream.onFrame_overflows hctx)]
  exact hctx

/-- Adding an object. -/
theorem keeps_append (s : Stream) : Keeps m { m with objs := m.objs ++ [s] } := by
  intro r t ht
  have hlt : r < m.objs.length := (List.getElem?_eq_some_iff.1 ht).1
  exact ⟨t, by simpa [List.getElem?_append_left hlt] using ht, rfl, id, id⟩

theorem keeps_route (m : Mux) (f : Frame) : Keeps m (m.route f).1 := by
  unfold route
  split
  · unfold routeOpen
    split_ifs
    · exact keeps_of_objs rfl
    · exact keeps_of_objs (by simp)
    · exact keeps_of_objs (by simp)
    · exact (keeps_append _).trans (keeps_of_objs rfl)
  · unfold routeFrame
    split
    · exact keeps_of_objs rfl
    · rename_i r s hfind
      have hk := keeps_onFrame (f := f) (find_eq_some.1 hfind).2
      split
      · rename_i s' hr; rw [hr] at hk; exact hk
      · rename_i s' hr; rw [hr] at hk; exact hk
      · rename_i s' hr
        rw [hr] at hk
        exact hk.trans (keeps_of_objs (by simp [remove, Routed.stream]))

theorem keeps_failAll (m : Mux) (err : GoError) : Keeps m (m.failAll err) := by
  intro r s hs
  obtain ⟨s', hs', hid, hend, hctx, -⟩ := m.failAll_objs err hs
  exact ⟨s', hs', hid, hend, hctx⟩

/-! ## What the registry keeps -/

/-- Every registered stream exists, and its id is the key it is registered under. -/
def Named (m : Mux) : Prop :=
  ∀ (id : UInt32) (r : Ref), m.streams.lookup id = some r → ∃ s, m.objs[r]? = some s ∧ s.id = id

theorem named_new (server : Bool) (W maxStreams : ℤ) : Named (newMuxConfig server W maxStreams) := by
  intro id r h
  cases h

/-- A step that keeps the objects and registers nobody. -/
theorem Named.keeps (h : Named m) (hk : Keeps m m')
    (hl : ∀ id r, m'.streams.lookup id = some r → m.streams.lookup id = some r) : Named m' := by
  intro id r hr
  obtain ⟨s, hs, hid⟩ := h id r (hl id r hr)
  obtain ⟨s', hs', hid', -, -⟩ := hk r s hs
  exact ⟨s', hs', hid'.trans hid⟩

/-- What is registered after an erasure was registered before it. -/
theorem lookup_of_lookup_erase {l : AList fun _ : UInt32 => Ref} {k id : UInt32}
    (h : (l.erase k).lookup id = some r) : l.lookup id = some r := by
  by_cases hk : id = k
  · subst hk
    rw [AList.lookup_erase] at h
    cases h
  · rwa [AList.lookup_erase_ne hk] at h

theorem Named.remove (h : Named m) (id : UInt32) : Named (m.remove id) :=
  h.keeps (keeps_of_objs rfl) fun _ _ hl => lookup_of_lookup_erase hl

theorem Named.failAll (h : Named m) (err : GoError) : Named (m.failAll err) :=
  h.keeps (keeps_failAll m err) fun _ _ hl => by cases hl

/-- A stream registered under its own id. -/
theorem Named.insert (h : Named m) {s : Stream} (hs : m.objs[r]? = some s) :
    Named { m with streams := m.streams.insert s.id r } := by
  intro id r' hr
  by_cases hid : id = s.id
  · subst hid
    obtain rfl : r = r' := by simpa using hr
    exact ⟨s, hs, rfl⟩
  · exact h id r' (by simpa [AList.lookup_insert_ne hid] using hr)

theorem Named.register (h : Named m) (f : Frame) : Named (m.register f).1 := by
  have hkept : Named { m with objs := (m.register f).1.objs } :=
    h.keeps (keeps_append _) fun _ _ hl => hl
  have hnew : (m.register f).1.objs[m.objs.length]? =
      some { newStream m.ctxErr f.streamId f.method m.initialWindow with header := f.headers } := by
    simp [Mux.register]
  exact hkept.insert hnew

/-- Only an OPEN that passes the checks of a server makes a stream; every other frame
registers nobody. -/
theorem route_cases (m : Mux) (f : Frame) :
    (f.kind = .kindOpen ∧ m.dupOpen f = false ∧ (m.route f).1 = (m.register f).1) ∨
      (m.route f).1.objs.length = m.objs.length ∧
        ∀ id r, (m.route f).1.streams.lookup id = some r → m.streams.lookup id = some r := by
  by_cases hreg : f.kind = .kindOpen ∧ m.server = true ∧ m.dupOpen f = false ∧ m.overCap = false
  · exact Or.inl ⟨hreg.1, hreg.2.2.1, by simp [Mux.route, routeOpen, hreg]⟩
  · right
    -- every other branch leaves the registry alone or erases the id of the frame
    unfold Mux.route routeOpen routeFrame
    split
    · split_ifs <;> simp_all
    · split
      · exact ⟨rfl, fun _ _ hl => hl⟩
      · split
        · exact ⟨by simp [setObj], fun _ _ hl => hl⟩
        · exact ⟨by simp [setObj, Mux.remove], fun _ _ hl => lookup_of_lookup_erase hl⟩
        · exact ⟨by simp [setObj, Mux.remove], fun _ _ hl =>
            lookup_of_lookup_erase (by simpa [Mux.remove, setObj] using hl)⟩

theorem Named.route (h : Named m) (f : Frame) : Named (m.route f).1 := by
  rcases m.route_cases f with ⟨-, -, hreg⟩ | ⟨-, hl⟩
  · rw [hreg]
    exact h.register f
  · exact h.keeps (keeps_route m f) hl

end Mux

end WsProto.Go
