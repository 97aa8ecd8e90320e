import WsProto.Go.StreamContext

/-!
# Inbound isolation between streams

The streams of one connection share the read loop, the registry, its lock, the cap and
the control queue.  What a peer sends on one stream is nevertheless invisible to the
others: the state of a stream is a function of the frames with its own id and of what
its owner does with it.

* `View` is one stream as its mux has it, and `View.next` what an event makes of it;
  it reads nothing of the mux but the side it is on;
* `view_run` — the mux refines it: the view of a stream after any sequence of events is
  the view its own events lead to;
* `view_eq_of_filter_eq` — so two inbound sequences with the same frames for a stream
  leave it in the same state and equally registered.
-/

namespace WsProto.Go.Isolation

open Machine StreamContext

/-! ## The events -/

/-- What the isolation of a stream is about: any inbound frame, and what is done with
the stream itself. -/
inductive Event where
  | frame (f : Frame)
  | op (o : StreamOp)
  /-- `end` of its handler. -/
  | endStream (st : Status)
  /-- The deferred `remove` of its handler or of its finished call. -/
  | remove
  deriving DecidableEq

/-- The event as a step of the mux. -/
def Event.act (r : Ref) : Event → Act
  | .frame f => .route f
  | .op o => .op r o
  | .endStream st => .endStream r st
  | .remove => .remove r

/-- The event is a frame with the id, or not a frame at all. -/
def Event.concerns (id : UInt32) : Event → Bool
  | .frame f => f.streamId = id
  | .op _ | .endStream _ | .remove => true

/-! ## One stream by itself -/

/-- A stream, and whether it is the one registered under its id. -/
structure View where
  stream : Stream
  registered : Bool
  deriving DecidableEq

/-- What an event makes of a stream. -/
def View.next (server : Bool) (v : View) : Event → View
  | .frame f =>
      if v.registered ∧ f.streamId = v.stream.id ∧ f.kind ≠ .kindOpen then
        { stream := (v.stream.onFrame server f).stream
          registered := !(v.stream.onFrame server f).leaves }
      else v
  | .op o => { v with stream := (o.run v.stream).1 }
  | .endStream st => { v with stream := v.stream.failWith (some (.status st)) }
  | .remove => { v with registered := false }

variable {m : Mux} {r : Ref} {s : Stream}

/-- No event changes the id of the stream. -/
theorem View.next_id (server : Bool) (v : View) (e : Event) :
    (v.next server e).stream.id = v.stream.id := by
  cases e with
  | frame f =>
      rw [View.next]
      split_ifs
      · exact (v.stream.onFrame_fixed server f).id
      · rfl
  | op o => exact (o.run_spec v.stream).1
  | endStream st => rfl
  | remove => rfl

/-- A frame for another stream changes nothing. -/
theorem View.next_of_not_concerns {server : Bool} {v : View} {e : Event}
    (h : e.concerns v.stream.id = false) : v.next server e = v := by
  cases e with
  | frame f =>
      have hid : f.streamId ≠ v.stream.id := by simpa [Event.concerns] using h
      simp [View.next, hid]
  | op o => cases h
  | endStream st => cases h
  | remove => cases h

/-- So only the stream's own events count. -/
theorem View.foldl_next_filter (server : Bool) (l : List Event) : ∀ v : View,
    l.foldl (View.next server) v =
      (l.filter (Event.concerns v.stream.id)).foldl (View.next server) v := by
  induction l with
  | nil => intro v; rfl
  | cons e l ih =>
      intro v
      rw [List.foldl_cons, ih, View.next_id]
      cases he : e.concerns v.stream.id with
      | true => rw [List.filter_cons_of_pos he, List.foldl_cons]
      | false =>
          rw [List.filter_cons_of_neg (by simp [he]), View.next_of_not_concerns he]

/-! ## The mux refines it -/

/-- The stream is the one registered under the id. -/
def registeredAs (m : Mux) (id : UInt32) (r : Ref) : Bool := m.streams.lookup id = some r

theorem registeredAs_iff {id : UInt32} :
    registeredAs m id r = true ↔ m.streams.lookup id = some r := decide_eq_true_iff

theorem registeredAs_remove (m : Mux) (id : UInt32) (r : Ref) :
    registeredAs (m.remove id) id r = false := by simp [registeredAs, Mux.remove]

/-- The view a mux has of a stream. -/
def view (m : Mux) (r : Ref) : Option View :=
  (m.objs[r]?).map fun s => { stream := s, registered := registeredAs m s.id r }

theorem view_eq (hs : m.objs[r]? = some s) :
    view m r = some { stream := s, registered := registeredAs m s.id r } := by
  rw [view, hs]
  rfl

/-- The object of the stream is replaced. -/
theorem view_setObj {s' : Stream} (hs : m.objs[r]? = some s) (hid : s'.id = s.id) :
    view (m.setObj r s') r = some { stream := s', registered := registeredAs m s.id r } := by
  have hlt : r < m.objs.length := (List.getElem?_eq_some_iff.1 hs).1
  rw [view_eq (show (m.setObj r s').objs[r]? = some s' by simp [Mux.setObj, hlt]), hid]
  rfl

/-- An admitted OPEN makes a new stream under an id that was free. -/
theorem view_register {f : Frame} (hs : m.objs[r]? = some s) (hfree : m.dupOpen f = false) :
    view (m.register f).1 r = view m r := by
  have hlt : r < m.objs.length := (List.getElem?_eq_some_iff.1 hs).1
  have hs' : (m.register f).1.objs[r]? = some s := by
    simpa [Mux.register, List.getElem?_append_left hlt] using hs
  have hnone : m.streams.lookup f.streamId = none := by simpa [Mux.dupOpen] using hfree
  rw [view_eq hs, view_eq hs']
  by_cases hid : s.id = f.streamId
  · have hne : m.objs.length ≠ r := (Nat.ne_of_lt hlt).symm
    rw [hid]
    simp [Mux.register, registeredAs, hnone, hne]
  · simp [Mux.register, registeredAs, AList.lookup_insert_ne hid]

theorem view_routeOpen {f : Frame} (hs : m.objs[r]? = some s) :
    view (m.routeOpen f).1 r = view m r := by
  unfold Mux.routeOpen
  split_ifs with hserver hdup hcap
  · rfl
  · simp [view, registeredAs]
  · simp [view, registeredAs]
  · exact view_register hs (by simpa using hdup)

/-- A frame routed to another stream: the object and its registration stay. -/
theorem view_of_ne {m' : Mux} {r' : Ref} {id : UInt32} (hs : m.objs[r]? = some s) (hr : r' ≠ r)
    (hl : m.streams.lookup id = some r') (hobjs : m'.objs[r]? = m.objs[r]?)
    (hstreams : m'.streams = m.streams ∨ m'.streams = m.streams.erase id) :
    view m' r = view m r := by
  rw [view_eq hs, view_eq (hobjs.trans hs)]
  rcases hstreams with h | h
  · rw [registeredAs, h, registeredAs]
  · by_cases hid : s.id = id
    · subst hid
      simp [registeredAs, h, hl, hr]
    · simp [registeredAs, h, AList.lookup_erase_ne hid]

/-- A frame for the stream itself. -/
theorem view_onFrame {f : Frame} (hs : m.objs[r]? = some s)
    (hl : m.streams.lookup f.streamId = some r) (hid : s.id = f.streamId) :
    view (m.routeFrame f) r =
      some { stream := (s.onFrame m.server f).stream
             registered := !(s.onFrame m.server f).leaves } := by
  have hlt : r < m.objs.length := (List.getElem?_eq_some_iff.1 hs).1
  have hid' : (s.onFrame m.server f).stream.id = f.streamId :=
    (s.onFrame_fixed m.server f).id.trans hid
  have hfind : m.find f.streamId = some (r, s) := Mux.find_eq_some.2 ⟨hl, hs⟩
  have hobj : ∀ s', (m.setObj r s').objs[r]? = some s' := fun s' => by simp [Mux.setObj, hlt]
  simp only [Mux.routeFrame, hfind]
  cases hon : s.onFrame m.server f with
  | kept s' =>
      rw [hon, Routed.stream] at hid'
      simp only [view_setObj hs (hid'.trans hid.symm), hid, registeredAs_iff.2 hl, Routed.stream,
        Routed.leaves, Bool.not_false]
  | removed s' =>
      rw [hon, Routed.stream] at hid'
      have hobj' : ((m.setObj r s').remove f.streamId).objs[r]? = some s' := hobj s'
      simp only [view_eq hobj', hid', registeredAs_remove, Routed.stream, Routed.leaves,
        Bool.not_true]
  | overflowed s' =>
      rw [hon, Routed.stream] at hid'
      have hobj' : ∀ g, (((m.setObj r s').writeCtrl g).remove f.streamId).objs[r]? = some s' :=
        fun g => by simpa [Mux.remove] using hobj s'
      simp only [view_eq (hobj' _), hid', registeredAs_remove, Routed.stream, Routed.leaves,
        Bool.not_true]

theorem view_routeFrame {f : Frame} (hm : m.Named) (hs : m.objs[r]? = some s)
    (hopen : f.kind ≠ .kindOpen) :
    view (m.routeFrame f) r =
      some (View.next m.server
        { stream := s, registered := registeredAs m s.id r } (.frame f)) := by
  by_cases hown : m.streams.lookup f.streamId = some r
  · -- the stream registered under the frame's id is this one
    obtain ⟨s', hs', hid⟩ := hm _ _ hown
    obtain rfl : s = s' := Option.some.inj (hs.symm.trans hs')
    rw [view_onFrame hs hown hid, hid, registeredAs_iff.2 hown, View.next, if_pos]
    exact ⟨rfl, hid.symm, hopen⟩
  · have hnext : View.next m.server
        { stream := s, registered := registeredAs m s.id r } (.frame f) =
        { stream := s, registered := registeredAs m s.id r } := by
      rw [View.next, if_neg]
      rintro ⟨hreg, hid, -⟩
      exact hown (by rw [hid]; exact registeredAs_iff.1 hreg)
    rw [hnext, ← view_eq hs]
    unfold Mux.routeFrame
    split
    · rfl
    · rename_i r' s' hfind
      obtain ⟨hl, -⟩ := Mux.find_eq_some.1 hfind
      have hr : r' ≠ r := by
        rintro rfl
        exact hown hl
      split
      · exact view_of_ne hs hr hl (by simp [Mux.setObj, hr]) (Or.inl rfl)
      · exact view_of_ne hs hr hl (by simp [Mux.setObj, Mux.remove, hr]) (Or.inr rfl)
      · exact view_of_ne hs hr hl (by simp [Mux.setObj, Mux.remove, hr])
          (Or.inr (by simp [Mux.remove, Mux.setObj]))

/-- **One event.**  The mux does to the view of the stream what the event does to it. -/
theorem view_step {x : Host} {v : View} (hm : x.mux.Named) (hv : view x.mux r = some v)
    (e : Event) : ∃ x', x.step (e.act r) = some x' ∧
      view x'.mux r = some (v.next x.mux.server e) ∧ x'.mux.server = x.mux.server := by
  obtain ⟨s, hs, rfl⟩ := Option.map_eq_some_iff.1 hv
  cases e with
  | frame f =>
      refine ⟨_, rfl, ?_, (x.mux.route_mux f).2⟩
      show view (x.mux.route f).1 r = _
      unfold Mux.route
      split_ifs with hopen
      · rw [view_routeOpen hs, hv]
        simp [View.next, hopen]
      · exact view_routeFrame hm hs hopen
  | op o =>
      refine ⟨{ x with mux := x.mux.setObj r (o.run s).1 }, by simp [Event.act, Host.step, hs], ?_, rfl⟩
      exact view_setObj hs (o.run_spec s).1
  | endStream st =>
      refine ⟨{ x with mux := x.mux.setObj r (s.failWith (some (.status st))) },
        by simp [Event.act, Host.step, hs], ?_, rfl⟩
      exact view_setObj hs rfl
  | remove =>
      refine ⟨{ x with mux := x.mux.remove s.id }, by simp [Event.act, Host.step, hs], ?_, rfl⟩
      rw [view_eq (show (x.mux.remove s.id).objs[r]? = some s from hs), registeredAs_remove]
      rfl

/-- Every step of a mux keeps its registry in order. -/
theorem named_step {x x' : Host} {a : Act} (hm : x.mux.Named) (h : x.step a = some x') :
    x'.mux.Named := by
  cases a with
  | route f => cases h; exact hm.route f
  | newClientStream ctxErr method written =>
      rw [Host.step] at h
      split_ifs at h
      cases h
      have hnew := (ClientStreams.Client.named_newClientStream hm ctxErr method).insert
        (ClientStreams.Client.newClientStream_obj x.mux ctxErr method)
      cases written with
      | true => exact hnew
      | false => exact hnew.remove x.mux.nextID
  | op r o =>
      obtain ⟨s, hs, rfl⟩ := Option.map_eq_some_iff.1 h
      exact hm.keeps (Mux.keeps_op hs o) fun _ _ hl => hl
  | endStream r st =>
      obtain ⟨s, hs, rfl⟩ := Option.map_eq_some_iff.1 h
      exact hm.keeps (Mux.keeps_failWith hs _) fun _ _ hl => hl
  | remove r =>
      obtain ⟨s, -, rfl⟩ := Option.map_eq_some_iff.1 h
      exact hm.remove s.id
  | close => cases h; exact hm
  | readFail => cases h; exact hm.failAll _

/-- **A run of events.**  All of them can happen, and the view of the stream afterwards
is what the events make of it. -/
theorem view_run (l : List Event) : ∀ {x : Host} {v : View}, x.mux.Named →
    view x.mux r = some v →
    ∃ x', exec Host.step Always x (l.map (Event.act r)) = some x' ∧
      view x'.mux r = some (l.foldl (View.next x.mux.server) v) := by
  induction l with
  | nil => intro x v _ hv; exact ⟨x, rfl, hv⟩
  | cons e l ih =>
      intro x v hm hv
      obtain ⟨y, hy, hvy, hserver⟩ := view_step hm hv e
      obtain ⟨x', hx', hvx'⟩ := ih (named_step hm hy) hvy
      refine ⟨x', ?_, by rw [hvx', hserver]; rfl⟩
      rw [List.map_cons, exec_always_cons, hy]
      exact hx'

/-- **Isolation.**  A stream registered at any mux, and two sequences of events that
have the same frames with its id, interleaved with the same operations on it: whatever
else the two sequences bring for other streams, the stream ends up in the same state
and equally registered. -/
theorem view_eq_of_filter_eq {server : Bool} {W maxStreams : ℤ} {x : Host}
    (hx : Reach Host.step Always (Host.start server W maxStreams) x) {id : UInt32}
    (hr : x.mux.streams.lookup id = some r) (l₁ l₂ : List Event)
    (hl : l₁.filter (Event.concerns id) = l₂.filter (Event.concerns id)) :
    ∃ x₁ x₂ v, exec Host.step Always x (l₁.map (Event.act r)) = some x₁ ∧
      exec Host.step Always x (l₂.map (Event.act r)) = some x₂ ∧
      view x₁.mux r = some v ∧ view x₂.mux r = some v := by
  have hm : x.mux.Named := hx.invariant (P := fun x => x.mux.Named)
    (Mux.named_new server W maxStreams) fun _ _ _ hm _ hs => named_step hm hs
  obtain ⟨s, hs, rfl⟩ := hm id r hr
  obtain ⟨x₁, hx₁, hv₁⟩ := view_run l₁ hm (view_eq hs)
  obtain ⟨x₂, hx₂, hv₂⟩ := view_run l₂ hm (view_eq hs)
  refine ⟨x₁, x₂, _, hx₁, hx₂, hv₁, ?_⟩
  rw [hv₂, View.foldl_next_filter, ← hl, ← View.foldl_next_filter]

/-- A stream with a sibling that is reset between its messages, and the same stream alone. -/
theorem view_eq_of_filter_eq_sibling :
    ∃ x, Reach Host.step Always (Host.start true 0 2) x ∧ x.mux.streams.lookup 1 = some 0 ∧
      ∃ x₁ x₂ v,
        exec Host.step Always x
          ([.frame { streamId := 1, kind := .kindMsg, payload := [7] }, .op .popRecv].map
            (Event.act 0)) = some x₁ ∧
        exec Host.step Always x
          ([.frame { streamId := 3, kind := .kindMsg },
            .frame { streamId := 1, kind := .kindMsg, payload := [7] },
            .frame { streamId := 3, kind := .kindRst }, .op .popRecv,
            .frame { streamId := 5, kind := .kindOpen }].map (Event.act 0)) = some x₂ ∧
        view x₁.mux 0 = some v ∧ view x₂.mux 0 = some v := by
  obtain ⟨x, hr, hp⟩ := exists_reach_of_exec Host.step Always (Host.start true 0 2)
    (fun x : Host => decide (x.mux.streams.lookup 1 = some 0))
    [.route { streamId := 1, kind := .kindOpen }, .route { streamId := 3, kind := .kindOpen }]
    (by decide)
  have hl : x.mux.streams.lookup 1 = some 0 := of_decide_eq_true hp
  exact ⟨x, hr, hl, view_eq_of_filter_eq hr hl _ _ (by decide)⟩

end WsProto.Go.Isolation
