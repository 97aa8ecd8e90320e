import WsProto.Go.ClientStreams

/-!
# The ids of client streams

`newClientStream` takes its ids from a `uint32` that starts at 1 and grows by 2, and
registers its stream under the id without looking who is there.  The transport proto
calls the ids monotonic per connection; a `uint32` is not.

A reference is the position of a call in the order of the allocations, so the id of the
stream `r` is `nthId r` (`Numbered`), and two calls get the same id exactly if they are
a multiple of `2 ^ 31` apart (`nthId_eq_iff`).

* `id_free_iff` — every id is odd, and at its registration an id is free exactly if no
  registered stream was made a multiple of `2 ^ 31` calls away;
* `id_displaces` — the call number `2 ^ 31` takes the id of the first one, whose stream
  may still be open.
-/

namespace WsProto.Go.Ids

open Machine ClientStreams

/-! ## The ids -/

/-- The id of the `n`-th call. -/
def nthId (n : ℕ) : UInt32 := UInt32.ofNat (2 * n + 1)

theorem nthId_toNat (n : ℕ) : (nthId n).toNat = (2 * n + 1) % 2 ^ 32 := UInt32.toNat_ofNat'

theorem nthId_odd (n : ℕ) : (nthId n).toNat % 2 = 1 := by
  rw [nthId_toNat]
  omega

theorem nthId_succ (n : ℕ) : nthId n + 2 = nthId (n + 1) := by
  rw [← UInt32.toNat_inj, UInt32.toNat_add, nthId_toNat, nthId_toNat]
  show ((2 * n + 1) % 2 ^ 32 + 2) % 2 ^ 32 = _
  omega

/-- Ids repeat after `2 ^ 31` calls, and not before. -/
theorem nthId_eq_iff {m n : ℕ} : nthId m = nthId n ↔ m % 2 ^ 31 = n % 2 ^ 31 := by
  rw [← UInt32.toNat_inj, nthId_toNat, nthId_toNat]
  omega

/-! ## The streams of a client are numbered -/

/-- The objects of a client mux are the streams of its calls in order, each with the
id of its number. -/
structure Numbered (m : Mux) : Prop where
  client : m.server = false
  named : m.Named
  next : m.nextID = nthId m.objs.length
  ids : ∀ (r : Ref) (s : Stream), m.objs[r]? = some s → s.id = nthId r

variable {m m' : Mux} {x x' : Client}

theorem numbered_start (W : ℤ) : Numbered (Client.start W).mux where
  client := rfl
  named := Mux.named_new false W 0
  next := rfl
  ids r s h := by cases h

/-- A step that keeps the objects and makes none. -/
theorem Numbered.keeps (h : Numbered m) (hk : Mux.Keeps m m') (hserver : m'.server = m.server)
    (hnamed : m'.Named) (hnext : m'.nextID = m.nextID) (hlen : m'.objs.length = m.objs.length) :
    Numbered m' where
  client := hserver.trans h.client
  named := hnamed
  next := by rw [hnext, hlen]; exact h.next
  ids r s' hs' := by
    obtain ⟨s, hs, hid⟩ := hk.back hlen hs'
    rw [hid]
    exact h.ids r s hs

/-- An allocation. -/
theorem Numbered.newClientStream (h : Numbered m) (ctxErr : Option CtxErr) (method : Text) :
    Numbered (Client.newClientStream m ctxErr method) where
  client := h.client
  named := Client.named_newClientStream h.named ctxErr method
  next := by
    show m.nextID + 2 = _
    rw [h.next, nthId_succ]
    simp [Client.newClientStream]
  ids r s hs := by
    rcases of_getElem?_concat hs with hs | ⟨rfl, rfl⟩
    · exact h.ids r s hs
    · exact h.next

/-- A client mux makes no stream for a frame. -/
theorem route_client (hm : m.server = false) (f : Frame) :
    (m.route f).1.nextID = m.nextID ∧ (m.route f).1.objs.length = m.objs.length := by
  unfold Mux.route
  split
  · simp [Mux.routeOpen, hm]
  · unfold Mux.routeFrame
    split
    · exact ⟨rfl, rfl⟩
    · split
      · simp [Mux.setObj]
      · simp [Mux.setObj, Mux.remove]
      · simp only [Mux.remove, Mux.writeCtrl]
        split <;> simp [Mux.setObj]

/-- **One step.** -/
theorem numbered_step {a : Act} (h : Numbered x.mux) (hs : x.step a = some x') :
    Numbered x'.mux := by
  cases a with
  | newClientStream ctxErr method => cases hs; exact h.newClientStream ctxErr method
  | register i =>
      simp only [Client.step] at hs
      split at hs
      · obtain ⟨s, hobj, rfl⟩ := Option.map_eq_some_iff.1 hs
        exact h.keeps (Mux.keeps_of_objs rfl) rfl (h.named.insert hobj) rfl rfl
      · cases hs
  | openOk i =>
      simp only [Client.step] at hs
      split at hs
      · cases hs; exact h
      · cases hs
  | openErr i =>
      simp only [Client.step] at hs
      split at hs
      · obtain ⟨s, -, rfl⟩ := Option.map_eq_some_iff.1 hs
        exact h.keeps (Mux.keeps_of_objs rfl) rfl (h.named.remove s.id) rfl rfl
      · cases hs
  | route f =>
      simp only [Client.step] at hs
      split_ifs at hs
      cases hs
      obtain ⟨hnext, hlen⟩ := route_client h.client f
      exact h.keeps (Mux.keeps_route x.mux f) (x.mux.route_mux f).2 (h.named.route f) hnext hlen
  | op r o =>
      obtain ⟨s, hobj, rfl⟩ := Option.map_eq_some_iff.1 hs
      have hk := Mux.keeps_op hobj o
      exact h.keeps hk rfl (h.named.keeps hk fun _ _ hl => hl) rfl (by simp [Mux.setObj])
  | close => cases hs; exact h.keeps (Mux.keeps_of_objs rfl) rfl h.named rfl rfl
  | readFail =>
      simp only [Client.step] at hs
      split_ifs at hs
      cases hs
      exact h.keeps ((Mux.keeps_failAll _ _).trans (Mux.keeps_of_objs rfl)) rfl
        (h.named.failAll x.mux.disconnectErr) rfl (Mux.length_failAll _ _)

theorem numbered_of_reach {W : ℤ} (hx : Reach Client.step Always (Client.start W) x) :
    Numbered x.mux :=
  hx.invariant (P := fun x => Numbered x.mux) (numbered_start W)
    fun _ _ _ h _ hs => numbered_step h hs

/-! ## Registration -/

/-- Who is registered under the id of a number. -/
theorem lookup_nthId_eq_none_iff (h : Numbered m) (r : Ref) :
    m.streams.lookup (nthId r) = none ↔
      ∀ id r', m.streams.lookup id = some r' → r' % 2 ^ 31 ≠ r % 2 ^ 31 := by
  constructor
  · intro hnone id r' hl heq
    obtain ⟨s, hs, rfl⟩ := h.named id r' hl
    rw [h.ids r' s hs, nthId_eq_iff.2 heq, hnone] at hl
    cases hl
  · intro hfar
    rcases Option.eq_none_or_eq_some (m.streams.lookup (nthId r)) with hnone | ⟨r', hl⟩
    · exact hnone
    · obtain ⟨s, hs, hid⟩ := h.named _ r' hl
      have heq : nthId r' = nthId r := (h.ids r' s hs).symm.trans hid
      exact absurd (nthId_eq_iff.1 heq) (hfar _ r' hl)

/-- **When an id is free.**  In every state of every run, every id allocated so far is
odd, and for every call about to register its stream: nobody is registered under its id
exactly if no registered stream was made a multiple of `2 ^ 31` calls away from it. -/
theorem id_free_iff {W : ℤ} (hx : Reach Client.step Always (Client.start W) x) :
    (∀ s ∈ x.mux.objs, s.id.toNat % 2 = 1) ∧
      ∀ (i : ℕ) (r : Ref) (s : Stream), x.calls[i]? = some (.made r) → x.mux.objs[r]? = some s →
        (x.mux.streams.lookup s.id = none ↔
          ∀ id r', x.mux.streams.lookup id = some r' → r' % 2 ^ 31 ≠ r % 2 ^ 31) := by
  have h := numbered_of_reach hx
  constructor
  · intro s hs
    obtain ⟨r, hr⟩ := List.mem_iff_getElem?.1 hs
    rw [h.ids r s hr]
    exact nthId_odd r
  · intro i r s _ hs
    rw [h.ids r s hs]
    exact lookup_nthId_eq_none_iff h r

/-- Two calls, the first of which has its stream registered. -/
theorem id_free_iff_two_calls :
    ∃ x, Reach Client.step Always (Client.start 0) x ∧ x.calls[1]? = some (.made 1) ∧
      (∀ s ∈ x.mux.objs, s.id.toNat % 2 = 1) ∧
      ∀ s, x.mux.objs[1]? = some s → x.mux.streams.lookup s.id = none := by
  have hr : Reach Client.step Always (Client.start 0) _ := reach_of_exec
    (l := [.newClientStream none .empty, .register 0, .openOk 0, .newClientStream none .empty]) rfl
  refine ⟨_, hr, rfl, (id_free_iff hr).1, fun s hs => ?_⟩
  refine ((id_free_iff hr).2 1 1 s rfl hs).2 ?_
  intro id r' hl
  have hmem : (⟨id, r'⟩ : (_ : UInt32) × Ref) ∈ [(⟨1, 0⟩ : (_ : UInt32) × Ref)] :=
    AList.mem_lookup_iff.1 hl
  obtain ⟨rfl, rfl⟩ : id = 1 ∧ r' = 0 := by simpa using hmem
  decide

/-! ## The id comes round again -/

/-- The first stream is open, and `k` calls have been made. -/
structure FirstOpen (k : ℕ) (x : Client) : Prop where
  reading : x.reading = true
  objs : x.mux.objs.length = k
  calls : x.calls.length = k
  first : x.mux.streams.lookup (nthId 0) = some 0
  live : ∃ s, x.mux.objs[0]? = some s ∧ s.ended = false

/-- One more call, whose stream the peer ends. -/
theorem firstOpen_round {k : ℕ} (hx : Numbered x.mux) (h : FirstOpen k x) (hk : 0 < k)
    (hlt : k < 2 ^ 31) : ∃ x', Reach Client.step Always x x' ∧ FirstOpen (k + 1) x' := by
  obtain ⟨s₀, hs₀, hlive⟩ := h.live
  have hne : nthId 0 ≠ nthId k := by
    rw [Ne, nthId_eq_iff]
    omega
  have hcall : ∀ pc, (x.calls ++ [pc])[k]? = some pc := fun pc => by simp [← h.calls]
  have hset : ∀ pc pc', (x.calls ++ [pc]).set k pc' = x.calls ++ [pc'] := fun pc pc' => by
    simp [← h.calls]
  let s := newStream none x.mux.nextID .empty x.mux.initialWindow
  have hid : s.id = nthId k := by
    show x.mux.nextID = nthId k
    rw [hx.next, h.objs]
  have hobj : (x.mux.objs ++ [s])[k]? = some s := by simp [← h.objs]
  let m₁ := Client.newClientStream x.mux none .empty
  let m₂ := { m₁ with streams := m₁.streams.insert s.id k }
  have hnew : x.step (.newClientStream none .empty) =
      some { x with mux := m₁, calls := x.calls ++ [.made k] } := by
    simp [Client.step, h.objs, m₁]
  have hreg : Client.step { x with mux := m₁, calls := x.calls ++ [.made k] } (.register k) =
      some { x with mux := m₂, calls := x.calls ++ [.registered k false] } := by
    simp only [Client.step, hcall, hset, h.reading]
    show ((x.mux.objs ++ [s])[k]?).map _ = _
    rw [hobj]
    rfl
  have hopen : Client.step { x with mux := m₂, calls := x.calls ++ [.registered k false] }
      (.openOk k) = some { x with mux := m₂, calls := x.calls ++ [.returned k] } := by
    simp only [Client.step, hcall, hset]
  -- END of the peer
  let f : Frame := { streamId := s.id, kind := .kindEnd }
  have hfind : m₂.find s.id = some (k, s) := Mux.find_eq_some.2 ⟨by simp [m₂], hobj⟩
  have hroute : (m₂.route f).1 = (m₂.setObj k (s.signalEnd f)).remove s.id := by
    simp [Mux.route, Mux.routeFrame, f, hfind, Stream.onFrame]
  have hend : Client.step { x with mux := m₂, calls := x.calls ++ [.returned k] } (.route f) =
      some { x with
        mux := (m₂.setObj k (s.signalEnd f)).remove s.id
        calls := x.calls ++ [.returned k] } := by
    simp only [Client.step, h.reading, if_true, hroute]
  refine ⟨_, (((Reach.refl.tail trivial hnew).tail trivial hreg).tail trivial hopen).tail trivial
    hend, ?_⟩
  have hlookup : ((m₂.setObj k (s.signalEnd f)).remove s.id).streams.lookup (nthId 0) = some 0 := by
    rw [← hid] at hne
    show ((m₁.streams.insert s.id k).erase s.id).lookup (nthId 0) = some 0
    rw [AList.lookup_erase_ne hne, AList.lookup_insert_ne hne]
    exact h.first
  have hfirst : ((m₂.setObj k (s.signalEnd f)).remove s.id).objs[0]? = some s₀ := by
    show ((x.mux.objs ++ [s]).set k (s.signalEnd f))[0]? = some s₀
    rw [List.getElem?_set_ne hk.ne', List.getElem?_append_left (by rw [h.objs]; exact hk)]
    exact hs₀
  exact {
    reading := h.reading
    objs := by simp [Mux.remove, Mux.setObj, m₂, m₁, Client.newClientStream, h.objs]
    calls := by simp [h.calls]
    first := hlookup
    live := ⟨s₀, hfirst, hlive⟩ }

/-- The first stream can be open after any number of calls up to `2 ^ 31`. -/
theorem exists_firstOpen (W : ℤ) (n : ℕ) (hn : n < 2 ^ 31) :
    ∃ x, Reach Client.step Always (Client.start W) x ∧ FirstOpen (n + 1) x := by
  induction n with
  | zero =>
      refine ⟨_, reach_of_exec (l := [.newClientStream none .empty, .register 0, .openOk 0]) rfl, ?_⟩
      exact ⟨rfl, rfl, rfl, rfl, _, rfl, rfl⟩
  | succ n ih =>
      obtain ⟨x, hx, hfirst⟩ := ih (by omega)
      obtain ⟨x', hx', hfirst'⟩ :=
        firstOpen_round (numbered_of_reach hx) hfirst (Nat.succ_pos n) hn
      exact ⟨x', hx.trans hx', hfirst'⟩

/-- A call after which the ids begin again takes the id of the first. -/
theorem firstOpen_displaced {n : ℕ} (hx : Numbered x.mux) (h : FirstOpen n x) (hpos : 0 < n)
    (hn : nthId n = nthId 0) :
    ∃ y y', x.step (.newClientStream none .empty) = some y ∧ y.step (.register n) = some y' ∧
      ∃ s, y.mux.objs[0]? = some s ∧ y'.mux.objs[0]? = some s ∧ s.ended = false ∧
        y.mux.streams.lookup s.id = some 0 ∧ y'.mux.streams.lookup s.id = some n := by
  obtain ⟨s₀, hs₀, hlive⟩ := h.live
  have hcall : (x.calls ++ [CallPc.made x.mux.objs.length])[n]? =
      some (.made x.mux.objs.length) := by simp [← h.calls]
  let s := newStream none x.mux.nextID .empty x.mux.initialWindow
  have hobj := Client.newClientStream_obj x.mux none .empty
  have hid : s.id = nthId 0 := by
    show x.mux.nextID = nthId 0
    rw [hx.next, h.objs, hn]
  have hfirst : (Client.newClientStream x.mux none .empty).objs[0]? = some s₀ := by
    show (x.mux.objs ++ [s])[0]? = some s₀
    rw [List.getElem?_append_left (by rw [h.objs]; exact hpos)]
    exact hs₀
  let y : Client :=
    { x with
      mux := Client.newClientStream x.mux none .empty
      calls := x.calls ++ [.made x.mux.objs.length] }
  have hreg : y.step (.register n) =
      some { y with
        mux := { y.mux with streams := y.mux.streams.insert s.id x.mux.objs.length }
        calls := y.calls.set n (.registered x.mux.objs.length !x.reading) } := by
    simp only [Client.step, y, hcall, hobj, Option.map_some, s]
  refine ⟨y, _, rfl, hreg, s₀, hfirst, hfirst, hlive, ?_, ?_⟩
  · rw [hx.ids 0 s₀ hs₀]
    exact h.first
  · show (x.mux.streams.insert s.id x.mux.objs.length).lookup s₀.id = some n
    rw [hx.ids 0 s₀ hs₀, hid, AList.lookup_insert, h.objs]

/-- **An allocation displaces a live stream.**  While the first stream is registered and
has not ended, a call registers another one under its id. -/
theorem id_displaces :
    ∃ x x' i, Reach Client.step Always (Client.start 0) x ∧ x.step (.register i) = some x' ∧
      ∃ s, x.mux.objs[0]? = some s ∧ x'.mux.objs[0]? = some s ∧ s.ended = false ∧
        x.mux.streams.lookup s.id = some 0 ∧ x'.mux.streams.lookup s.id = some (2 ^ 31) := by
  have hn : nthId (2 ^ 31) = nthId 0 := nthId_eq_iff.2 (by norm_num)
  obtain ⟨x, hx, h⟩ := exists_firstOpen 0 (2 ^ 31 - 1) (by norm_num)
  obtain ⟨y, y', hy, hy', hs⟩ :=
    firstOpen_displaced (numbered_of_reach hx) h (Nat.two_pow_pos 31) hn
  exact ⟨y, y', 2 ^ 31, hx.tail trivial hy, hy', hs⟩

end WsProto.Go.Ids
