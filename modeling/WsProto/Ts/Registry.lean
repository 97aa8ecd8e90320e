import WsProto.Lib.Visit
import WsProto.Ts.Mux

/-!
# The registry of a TypeScript mux

What every piece of every method keeps, also in the middle of an event: ids are the
odd numbers in the order of the streams, a stream that has not finished is
registered under its id, a defunct mux has an empty registry, and an open one has
nothing left in its buffer (`Mux.WF`).  From this it follows that a stream that has
not finished belongs to a mux that is not defunct, so that its writes never throw.

* `Mux.writeFrame_spec` — a write on a live mux appends its frame to `Mux.out`, what
  the mux has accepted so far, or fails the mux;
* `Mux.WF.markDefunct` — after which every stream has finished.
-/

namespace WsProto.Ts

/-! ## What a stream keeps -/

/-- `s'` is a later state of `s` reached without a send: the same stream with the same
backlog, closed and finished if it was. -/
structure StreamImpl.Follows (s s' : StreamImpl) : Prop where
  id : s'.id = s.id
  outbound : s'.outbound = s.outbound
  sendClosed : s'.sendClosed = false → s.sendClosed = false
  finished : s.finished = true → s'.finished = true

namespace StreamImpl

variable {s s' s'' : StreamImpl}

theorem Follows.refl (s : StreamImpl) : s.Follows s := ⟨rfl, rfl, fun h => h, fun h => h⟩

theorem Follows.trans (h : s.Follows s') (h' : s'.Follows s'') : s.Follows s'' where
  id := h'.id.trans h.id
  outbound := h'.outbound.trans h.outbound
  sendClosed := h.sendClosed ∘ h'.sendClosed
  finished := h'.finished ∘ h.finished

theorem resolveHeaders_follows (s : StreamImpl) (h : Headers) : s.Follows (s.resolveHeaders h) := by
  unfold resolveHeaders
  dsimp only
  split <;> exact ⟨rfl, rfl, fun h => h, fun h => h⟩

theorem settle_follows (s : StreamImpl) (err : Option WsStatusError) : s.Follows (s.settle err) := by
  have h := s.resolveHeaders_follows s.headers
  cases err with
  | none => exact h.trans ⟨rfl, rfl, fun h => h, fun h => h⟩
  | some e => exact h.trans ⟨rfl, rfl, fun h => h, fun h => h⟩

theorem stop_follows (s : StreamImpl) : s.Follows s.stop where
  id := rfl
  outbound := rfl
  sendClosed h := by cases h
  finished _ := rfl

theorem endOk_follows (s : StreamImpl) (h : Headers) :
    s.Follows (s.endOk h) ∧ (s.endOk h).finished = true := by
  unfold endOk
  split
  · rename_i hf
    exact ⟨.refl s, hf⟩
  · have hr := resolveHeaders_follows { s with finished := true } h
    exact ⟨⟨hr.id, hr.outbound, hr.sendClosed, fun _ => hr.finished rfl⟩, hr.finished rfl⟩

theorem endError_follows (s : StreamImpl) (e : WsStatusError) (h : Headers) :
    s.Follows (s.endError e h) ∧ (s.endError e h).finished = true := by
  unfold endError
  split
  · rename_i hf
    exact ⟨.refl s, hf⟩
  · have hr := resolveHeaders_follows { s with finished := true } h
    exact ⟨⟨hr.id, hr.outbound, hr.sendClosed, fun _ => hr.finished rfl⟩, hr.finished rfl⟩

theorem returnCredit_follows (s : StreamImpl) (n : ℤ) : s.Follows (s.returnCredit n).1 := by
  unfold returnCredit
  split_ifs <;> exact ⟨rfl, rfl, fun h => h, fun h => h⟩

/-- A finished stream returns no credit. -/
theorem returnCredit_finished (h : s.finished = true) (n : ℤ) : (s.returnCredit n).2 = none := by
  simp [returnCredit, h]

theorem resume_follows {y : StreamImpl × Option ℤ} (h : s.resume = some y) :
    s.Follows y.1 ∧ (s.finished = true → y.2 = none) := by
  unfold resume at h
  split at h
  · cases h
  · rename_i v _
    cases h
    have hr := returnCredit_follows
      { s with resumed := s.resumed + 1, bufferedBytes := s.bufferedBytes - v.length } v.length
    refine ⟨⟨hr.id, hr.outbound, hr.sendClosed, hr.finished⟩, fun hf => ?_⟩
    exact returnCredit_finished (by exact hf) _
  · cases h
    exact ⟨⟨rfl, rfl, fun h => h, fun h => h⟩, fun _ => rfl⟩

/-- What follows the `await` of `recv` does not end the stream. -/
theorem resume_finished {y : StreamImpl × Option ℤ} (h : s.resume = some y) :
    y.1.finished = s.finished := by
  unfold resume at h
  split at h
  · cases h
  · cases h
    unfold returnCredit
    split_ifs <;> rfl
  · cases h
    rfl

/-- A turn of `pump` takes the oldest payload of a stream that has not finished. -/
theorem shift_eq_some {payload : Payload} (h : s.shift = some (payload, s')) :
    s.finished = false ∧ ∃ rest, s.outbound = payload :: rest ∧ s'.outbound = rest ∧
      s'.id = s.id ∧ s'.finished = false := by
  unfold shift at h
  split at h
  · cases h
  · rename_i rest hout
    obtain ⟨⟨-, hfin⟩, h⟩ := Option.ite_none_right_eq_some.1 h
    cases h
    exact ⟨hfin, _, hout, rfl, rfl, hfin⟩

end StreamImpl

namespace Mux

variable {m m' : Mux} {r r' : Ref} {s s' : StreamImpl}

theorem getElem?_setObj (hs : m.objs[r]? = some s) (s' : StreamImpl) :
    (m.setObj r s').objs[r]? = some s' := by
  have hlt : r < m.objs.length := (List.getElem?_eq_some_iff.1 hs).1
  simp [setObj, hlt]

theorem getElem?_setObj_ne (h : r ≠ r') (s' : StreamImpl) :
    (m.setObj r s').objs[r']? = m.objs[r']? := by
  simp [setObj, List.getElem?_set_ne h]

/-- A stream found after `setObj` is the new one, or another one that was there. -/
theorem of_getElem?_setObj (hs : m.objs[r]? = some s) {q : Ref} {t : StreamImpl}
    (ht : (m.setObj r s').objs[q]? = some t) :
    (q = r ∧ t = s') ∨ (q ≠ r ∧ m.objs[q]? = some t) := by
  by_cases hq : q = r
  · subst hq
    rw [getElem?_setObj hs] at ht
    exact .inl ⟨rfl, (Option.some.inj ht).symm⟩
  · rw [getElem?_setObj_ne (Ne.symm hq)] at ht
    exact .inr ⟨hq, ht⟩

theorem modify_eq_setObj (hs : m.objs[r]? = some s) (g : StreamImpl → StreamImpl) :
    m.objs.modify r g = m.objs.set r (g s) := by
  rw [List.modify_eq_set_getElem?, hs]
  rfl

/-- The loop of `failAll`: each stream in the list ends. -/
theorem foldl_endError (err : WsStatusError) (l : List ((_ : UInt32) × Ref)) :
    ∀ (o : List StreamImpl) (s : StreamImpl), o[r]? = some s →
      ∃ s', (l.foldl (fun o e => o.modify e.2 (·.endError err ∅)) o)[r]? = some s' ∧
        s.Follows s' ∧ (r ∈ l.map (·.2) → s'.finished = true) := by
  intro o s hs
  exact Visit.exists_foldl_modify (P := s.Follows)
    (fun t hf => hf.trans (t.endError_follows err ∅).1)
    (fun t => (t.endError_follows err ∅).2) l hs (.refl s)

/-! ## The invariant -/

/-- The frames the mux has accepted: on the socket, or waiting for it to open. -/
def out (m : Mux) : List Frame := m.sent ++ m.sendBuffer

structure WF (m : Mux) : Prop where
  ids : ∀ (r : Ref) (s : StreamImpl), m.objs[r]? = some s → s.id = UInt32.ofNat (2 * r + 1)
  next : m.nextId = 2 * m.objs.length + 1
  bound : 2 * m.objs.length ≤ 2 ^ 32
  live : ∀ (r : Ref) (s : StreamImpl), m.objs[r]? = some s → s.finished = false →
    m.streams.lookup s.id = some r
  reg : ∀ (id : UInt32) (r : Ref), m.streams.lookup id = some r →
    ∃ s, m.objs[r]? = some s ∧ s.id = id
  defunct : m.defunct = true → m.streams = ∅
  buffer : m.opened = true → m.sendBuffer = []
  frames : ∀ f ∈ m.out, ∃ (r : Ref) (s : StreamImpl), m.objs[r]? = some s ∧ s.id = f.streamId

/-- A mux that has done nothing yet. -/
theorem WF.of_empty (hobjs : m.objs = []) (hnext : m.nextId = 1) (hstreams : m.streams = ∅)
    (hsent : m.sent = []) (hbuf : m.sendBuffer = []) : m.WF where
  ids := by simp [hobjs]
  next := by simp [hobjs, hnext]
  bound := by simp [hobjs]
  live := by simp [hobjs]
  reg := by simp [hstreams]
  defunct _ := hstreams
  buffer _ := hbuf
  frames := by simp [out, hsent, hbuf]

/-- No two streams have the same id. -/
theorem WF.id_inj (h : m.WF) (hs : m.objs[r]? = some s) (hs' : m.objs[r']? = some s')
    (hid : s.id = s'.id) : r = r' := by
  obtain ⟨hr, -⟩ := List.getElem?_eq_some_iff.1 hs
  obtain ⟨hr', -⟩ := List.getElem?_eq_some_iff.1 hs'
  have hb := h.bound
  rw [h.ids r s hs, h.ids r' s' hs'] at hid
  have hnat := congrArg UInt32.toNat hid
  rw [UInt32.toNat_ofNat', UInt32.toNat_ofNat', Nat.mod_eq_of_lt (by omega),
    Nat.mod_eq_of_lt (by omega)] at hnat
  exact Nat.eq_of_mul_eq_mul_left Nat.two_pos (Nat.succ.inj hnat)

/-- A stream that has not finished has a live mux. -/
theorem WF.not_defunct (h : m.WF) (hs : m.objs[r]? = some s) (hf : s.finished = false) :
    m.defunct = false := by
  by_contra hd
  have hl := h.live r s hs hf
  rw [h.defunct (by simpa using hd)] at hl
  simp at hl

/-- The stream registered under an id. -/
theorem WF.find_eq_some {id : UInt32} (h : m.WF) (hfind : m.find id = some (r, s)) :
    m.streams.lookup id = some r ∧ m.objs[r]? = some s ∧ s.id = id := by
  unfold find at hfind
  obtain ⟨q, hq, hfind⟩ := Option.bind_eq_some_iff.1 hfind
  obtain ⟨t, ht, hfind⟩ := Option.map_eq_some_iff.1 hfind
  cases hfind
  obtain ⟨u, hu, hid⟩ := h.reg id r hq
  obtain rfl : s = u := Option.some.inj (ht.symm.trans hu)
  exact ⟨hq, ht, hid⟩

theorem WF.setObj (h : m.WF) (hs : m.objs[r]? = some s) (hid : s'.id = s.id)
    (hfin : s.finished = true → s'.finished = true) : (m.setObj r s').WF := by
  have hobj : ∀ (q : Ref) (t : StreamImpl), (m.setObj r s').objs[q]? = some t →
      ∃ t₀, m.objs[q]? = some t₀ ∧ t.id = t₀.id ∧ (t₀.finished = true → t.finished = true) := by
    intro q t ht
    obtain ⟨rfl, rfl⟩ | ⟨-, ht⟩ := of_getElem?_setObj hs ht
    · exact ⟨s, hs, hid, hfin⟩
    · exact ⟨t, ht, rfl, id⟩
  have hkeep : ∀ (q : Ref) (i : UInt32), (∃ t, m.objs[q]? = some t ∧ t.id = i) →
      ∃ t, (m.setObj r s').objs[q]? = some t ∧ t.id = i := by
    rintro q i ⟨t, ht, hidt⟩
    by_cases hq : r = q
    · subst hq
      obtain rfl : s = t := Option.some.inj (hs.symm.trans ht)
      exact ⟨s', getElem?_setObj hs s', hid.trans hidt⟩
    · exact ⟨t, by rw [getElem?_setObj_ne hq]; exact ht, hidt⟩
  refine {
    ids := fun q t ht => ?_
    next := by simpa [Mux.setObj] using h.next
    bound := by simpa [Mux.setObj] using h.bound
    live := fun q t ht hf => ?_
    reg := fun id q hl => hkeep q id (h.reg id q hl)
    defunct := h.defunct
    buffer := h.buffer
    frames := fun f hf => ?_ }
  · obtain ⟨t₀, ht₀, hid₀, -⟩ := hobj q t ht
    rw [hid₀, h.ids q t₀ ht₀]
  · obtain ⟨t₀, ht₀, hid₀, hfin₀⟩ := hobj q t ht
    rw [hid₀]
    refine h.live q t₀ ht₀ ?_
    by_contra hne
    rw [hfin₀ (by simpa using hne)] at hf
    cases hf
  · obtain ⟨q, t, ht, hidt⟩ := h.frames f hf
    exact ⟨q, hkeep q _ ⟨t, ht, hidt⟩⟩

/-- An id may leave the registry once its stream has finished. -/
theorem WF.delete (h : m.WF) {id : UInt32}
    (hid : ∀ (r : Ref) (s : StreamImpl), m.objs[r]? = some s → s.id = id → s.finished = true) :
    (m.delete id).WF := by
  refine { h with
    live := fun r s hs hf => ?_
    reg := fun id' r hl => ?_
    defunct := fun hd => ?_ }
  · have hne : s.id ≠ id := by
      intro he
      rw [hid r s hs he] at hf
      cases hf
    show (m.streams.erase id).lookup s.id = some r
    rw [AList.lookup_erase_ne hne]
    exact h.live r s hs hf
  · refine h.reg id' r ?_
    by_cases he : id' = id
    · rw [he] at hl
      simp [Mux.delete] at hl
    · rw [← AList.lookup_erase_ne he]
      exact hl
  · have hnil : m.streams = ∅ := h.defunct hd
    show m.streams.erase id = ∅
    rw [hnil]
    rfl

/-! ## A new stream -/

/-- A list of streams with one more at its end. -/
theorem getElem?_add {objs : List StreamImpl} {t : StreamImpl} :
    (objs ++ [s])[r]? = some t ↔ objs[r]? = some t ∨ (r = objs.length ∧ t = s) := by
  rcases Nat.lt_trichotomy r objs.length with h | h | h
  · rw [List.getElem?_append_left h]
    exact ⟨Or.inl, fun ht => ht.resolve_right fun he => absurd he.1 (Nat.ne_of_lt h)⟩
  · subst h
    simp [eq_comm]
  · have hlen : objs.length + 1 ≤ r := h
    have hne : r ≠ objs.length := Nat.ne_of_gt h
    simp [List.getElem?_eq_none, hlen, Nat.le_of_lt h, hne]

/-- The next id is still free. -/
theorem WF.id_ne_next (h : m.WF) (hb : m.nextId < 2 ^ 32) (hs : m.objs[r]? = some s) :
    s.id ≠ UInt32.ofNat m.nextId := by
  obtain ⟨hr, -⟩ := List.getElem?_eq_some_iff.1 hs
  have hnext := h.next
  intro hid
  rw [h.ids r s hs] at hid
  have hnat := congrArg UInt32.toNat hid
  rw [UInt32.toNat_ofNat', UInt32.toNat_ofNat', Nat.mod_eq_of_lt (by omega),
    Nat.mod_eq_of_lt hb] at hnat
  omega

/-- Making a stream: it is registered, or it has finished already. -/
theorem WF.add (h : m.WF) (hb : m.nextId < 2 ^ 32) (hid : s.id = UInt32.ofNat m.nextId)
    {streams : AList fun _ : UInt32 => Ref}
    (hold : ∀ id, id ≠ s.id → streams.lookup id = m.streams.lookup id)
    (hself : ∀ r, streams.lookup s.id = some r → r = m.objs.length)
    (hlive : s.finished = false → streams.lookup s.id = some m.objs.length)
    (hd : m.defunct = true → streams = ∅) :
    { m with nextId := m.nextId + 2, objs := m.objs ++ [s], streams := streams }.WF := by
  have hnext := h.next
  refine {
    ids := fun r t ht => ?_
    next := by simp only [List.length_append, List.length_singleton]; omega
    bound := by simp only [List.length_append, List.length_singleton]; omega
    live := fun r t ht hf => ?_
    reg := fun id r hl => ?_
    defunct := hd
    buffer := h.buffer
    frames := fun f hf => ?_ }
  · rcases getElem?_add.1 ht with ht | ⟨rfl, rfl⟩
    · exact h.ids r t ht
    · rw [hid, hnext]
  · rcases getElem?_add.1 ht with ht | ⟨rfl, rfl⟩
    · have hne : t.id ≠ s.id := by rw [hid]; exact h.id_ne_next hb ht
      exact (hold t.id hne).trans (h.live r t ht hf)
    · exact hlive hf
  · by_cases he : id = s.id
    · subst he
      exact ⟨s, getElem?_add.2 (Or.inr ⟨hself r hl, rfl⟩), rfl⟩
    · obtain ⟨t, ht, hidt⟩ := h.reg id r ((hold id he).symm.trans hl)
      exact ⟨t, getElem?_add.2 (Or.inl ht), hidt⟩
  · obtain ⟨r, t, ht, hidt⟩ := h.frames f hf
    exact ⟨r, t, getElem?_add.2 (Or.inl ht), hidt⟩

/-- `openStream` on a mux that is not defunct, before it writes OPEN. -/
def enlist (m : Mux) : Mux :=
  { m with
    nextId := m.nextId + 2
    objs := m.objs ++ [newStreamImpl (UInt32.ofNat m.nextId) m.initialWindow m.maxSendBuffer]
    streams := m.streams.insert (UInt32.ofNat m.nextId) m.objs.length }

theorem WF.enlist (h : m.WF) (hd : ¬ m.defunct = true) (hb : m.nextId < 2 ^ 32) :
    m.enlist.WF := by
  refine h.add hb rfl (fun id hid => AList.lookup_insert_ne hid) (fun r hr => ?_)
    (fun _ => AList.lookup_insert _) (fun hdef => absurd hdef hd)
  exact (Option.some.inj ((AList.lookup_insert _).symm.trans hr)).symm

/-! ## Going defunct -/

/-- `markDefunct` keeps every stream, and those that were registered have finished. -/
theorem markDefunct_objs (m : Mux) (err : WsStatusError) (hs : m.objs[r]? = some s) :
    ∃ s', (m.markDefunct err).objs[r]? = some s' ∧ s.Follows s' ∧
      ((∃ id, m.streams.lookup id = some r) → s'.finished = true) := by
  obtain ⟨s', hs', hf, hmem⟩ := foldl_endError err m.streams.entries m.objs s hs
  refine ⟨s', hs', hf, ?_⟩
  rintro ⟨id, hl⟩
  exact hmem (List.mem_map.2 ⟨⟨id, r⟩, AList.mem_lookup_iff.1 hl, rfl⟩)

theorem length_markDefunct (m : Mux) (err : WsStatusError) :
    (m.markDefunct err).objs.length = m.objs.length :=
  Visit.length_foldl_modify _ _ m.streams.entries m.objs

/-- Once the mux is defunct every stream has finished, and is otherwise as it was. -/
theorem WF.markDefunct_finished (h : m.WF) (err : WsStatusError)
    (hs : (m.markDefunct err).objs[r]? = some s') :
    ∃ s, m.objs[r]? = some s ∧ s.Follows s' ∧ s'.finished = true := by
  have hlt : r < m.objs.length := by
    rw [← m.length_markDefunct err]
    exact (List.getElem?_eq_some_iff.1 hs).1
  obtain ⟨s₁, hs₁, hf, hreg⟩ := m.markDefunct_objs err (List.getElem?_eq_getElem hlt)
  obtain rfl : s₁ = s' := Option.some.inj (hs₁.symm.trans hs)
  refine ⟨m.objs[r], List.getElem?_eq_getElem hlt, hf, ?_⟩
  by_cases hfin : m.objs[r].finished = true
  · exact hf.finished hfin
  · exact hreg ⟨_, h.live r _ (List.getElem?_eq_getElem hlt) (by simpa using hfin)⟩

theorem WF.markDefunct (h : m.WF) (err : WsStatusError) : (m.markDefunct err).WF := by
  refine {
    ids := fun r s hs => ?_
    next := by rw [length_markDefunct]; exact h.next
    bound := by rw [length_markDefunct]; exact h.bound
    live := fun r s hs hf => ?_
    reg := fun id r hl => by simp [Mux.markDefunct, failAll] at hl
    defunct := fun _ => rfl
    buffer := fun _ => rfl
    frames := fun f hf => ?_ }
  · obtain ⟨s₀, hs₀, hfol, -⟩ := h.markDefunct_finished err hs
    rw [hfol.id, h.ids r s₀ hs₀]
  · obtain ⟨-, -, -, hfin⟩ := h.markDefunct_finished err hs
    rw [hf] at hfin
    cases hfin
  · have hf' : f ∈ m.out := by
      have hsent : f ∈ m.sent := by simpa [out, Mux.markDefunct, failAll] using hf
      exact List.mem_append_left _ hsent
    obtain ⟨r, s, hs, hid⟩ := h.frames f hf'
    obtain ⟨s', hs', hfol, -⟩ := m.markDefunct_objs err hs
    exact ⟨r, s', hs', hfol.id.trans hid⟩

/-- Closing a mux or declaring it dead changes nothing `markDefunct` looks at. -/
theorem markDefunct_flags (m : Mux) (err : WsStatusError) (c d : Bool) :
    { m with closed := c, dead := d }.markDefunct err =
      { m.markDefunct err with closed := c, dead := d } := rfl

/-! ## Writing -/

/-- A mux that has accepted one more frame. -/
structure Accepts (m m' : Mux) (f : Frame) : Prop where
  out : m'.out = m.out ++ [f]
  objs : m'.objs = m.objs
  streams : m'.streams = m.streams
  nextId : m'.nextId = m.nextId
  defunct : m'.defunct = m.defunct
  buffer : m'.opened = true → m'.sendBuffer = []

/-- **A write on a live mux** does not throw: the frame is accepted, or the buffer
overflows and the mux fails. -/
theorem writeFrame_spec (size : Frame → ℕ) (hd : m.defunct = false)
    (hb : m.opened = true → m.sendBuffer = []) (f : Frame) :
    (m.writeFrame size f).2 = none ∧
      (m.Accepts (m.writeFrame size f).1 f ∨ (m.writeFrame size f).1 = m.fail preopenOverflow) := by
  unfold writeFrame
  rw [hd]
  by_cases ho : m.opened = true
  · simp only [Bool.false_eq_true, if_false, ho, if_true]
    refine ⟨trivial, Or.inl ⟨?_, rfl, rfl, rfl, rfl, fun _ => hb ho⟩⟩
    simp [out, hb ho]
  · simp only [Bool.false_eq_true, if_false, ho]
    split
    · exact ⟨rfl, Or.inr rfl⟩
    · refine ⟨rfl, Or.inl ⟨?_, rfl, rfl, rfl, rfl, fun h => ?_⟩⟩
      · simp [out]
      · simp at h

theorem WF.accepts (h : m.WF) {f : Frame} (ha : m.Accepts m' f)
    (hf : ∃ (r : Ref) (s : StreamImpl), m.objs[r]? = some s ∧ s.id = f.streamId) : m'.WF where
  ids := by rw [ha.objs]; exact h.ids
  next := by rw [ha.objs, ha.nextId]; exact h.next
  bound := by rw [ha.objs]; exact h.bound
  live := by rw [ha.objs, ha.streams]; exact h.live
  reg := by rw [ha.objs, ha.streams]; exact h.reg
  defunct := by rw [ha.defunct, ha.streams]; exact h.defunct
  buffer := ha.buffer
  frames := by
    rw [ha.out, ha.objs]
    intro g hg
    rcases List.mem_append.1 hg with hg | hg
    · exact h.frames g hg
    · rw [List.mem_singleton.1 hg]
      exact hf

end Mux

end WsProto.Ts
