import WsProto.Lib.Run
import WsProto.Go.Ids

/-!
# Cancelling a call on the client

A client mux and a server mux joined by an in-order channel in each direction.
The client opens streams and works on them, the server routes what arrives and its
handlers work on their streams; each side's control writer empties its queue.

Ghosts record what the client has written, with the stream each frame is for, the
client streams whose context ended before their END or RST arrived, and those whose own
receive backlog overflowed.

* `cancelled_settled_iff` — for a cancelled stream the client sends an RST, and the id
  is gone from both maps once the connection is quiet, exactly if the stream had
  overflowed; otherwise the client's map keeps the id until the server ends the stream;
* `cancelled_stays_open` — so a cancelled call can stay registered on both sides,
  with its server stream live, for good.
-/

namespace WsProto.Go.Cancel

open Machine

/-! ## The model -/

/-- The two muxes and the frames in flight. -/
structure Pair where
  client : Mux
  server : Mux
  toServer : List Frame := []
  toClient : List Frame := []
  /-- Ghost: the frames the client has written, each with its stream. -/
  sent : List (Ref × Frame) := []
  /-- Ghost: the streams of the frames in the client's control queue. -/
  ctrlRefs : List Ref := []
  /-- Ghost: the client streams whose context ended first. -/
  cancelled : List Ref := []
  /-- Ghost: the client streams that overflowed while the control queue had room. -/
  overflowed : List Ref := []
  /-- Ghost: the frames the server has routed. -/
  taken : List Frame := []
  deriving DecidableEq

inductive Act where
  /-- `newClientStream`.  With a done context the write of OPEN may fail, and the
  stream is removed again. -/
  | newClientStream (ctxErr : Option CtxErr) (method : Text) (headers : Option Headers)
      (written : Bool)
  /-- An operation on a client stream.  With a done context the write may fail. -/
  | clientOp (r : Ref) (o : StreamOp) (written : Bool)
  | clientCtrl
  | clientRoute
  | serverOp (r : Ref) (o : StreamOp)
  /-- `end` of a server stream, and the `remove` of `serveStream`. -/
  | serverEnd (r : Ref) (st : Status) (trailers : Option Headers)
  | serverCtrl
  | serverRoute
  deriving DecidableEq

/-- `applyEnd` is only called on the recorded terminal frame. -/
def permitted (s : Stream) : StreamOp → Bool
  | .applyEnd f => decide (s.endFrame = some f)
  | _ => true

namespace Pair

/-- The client writes a frame for stream `r`, if there is one to write. -/
def send (x : Pair) (r : Ref) (f : Option Frame) : Pair :=
  { x with
    toServer := x.toServer ++ f.toList, sent := x.sent ++ f.toList.map fun f => (r, f) }

/-- The OPEN frame of a new stream. -/
def openFrame (id : UInt32) (method : Text) (headers : Option Headers) : Frame :=
  { streamId := id, kind := .kindOpen, method, headers }

/-- The operation is the end of the context of a stream whose END or RST has not
arrived. -/
def cancels (s : Stream) (o : StreamOp) : Bool := o.endsCtx && s.endFrame.isNone

/-- The stream whose backlog a frame overflows; `failWith` ends its context. -/
def overflow (m : Mux) (f : Frame) : List Ref :=
  match m.find f.streamId with
  | some (r, s) => if f.kind ≠ .kindOpen ∧ (s.onFrame m.server f).overflows then [r] else []
  | none => []

/-- The overflow for which `writeCtrl` finds room for an RST. -/
def announced (m : Mux) (f : Frame) : List Ref :=
  if m.ctrlCh.length < ctrlBufferSize then overflow m f else []

/-- The client's map after `newClientStream`: the stream is registered, and removed
again if the write of OPEN fails. -/
def openStreams (m : Mux) (written : Bool) : AList fun _ : UInt32 => Ref :=
  let streams := m.streams.insert m.nextID m.objs.length
  if written then streams else streams.erase m.nextID

def step (x : Pair) : Act → Option Pair
  | .newClientStream ctxErr method headers written =>
      let r := x.client.objs.length
      if written || ctxErr.isSome then
        some ({ x with
          client := { ClientStreams.Client.newClientStream x.client ctxErr method with
            streams := openStreams x.client written }
          cancelled := x.cancelled ++ if ctxErr.isSome then [r] else [] }.send r
            (if written then some (openFrame x.client.nextID method headers) else none))
      else none
  | .clientOp r o written =>
      match x.client.objs[r]? with
      | none => none
      | some s =>
          if permitted s o && (written || s.ctxErr.isSome) then
            some ({ x with
              client := x.client.setObj r (o.run s).1
              cancelled := x.cancelled ++ if cancels s o then [r] else [] }.send r
                (if written then (o.run s).2 else none))
          else none
  | .clientCtrl =>
      match x.client.ctrlCh with
      | [] => none
      | f :: rest =>
          some ({ x with
            client := { x.client with ctrlCh := rest }, ctrlRefs := x.ctrlRefs.tail }.send
              (x.ctrlRefs.headD 0) (some f))
  | .clientRoute =>
      match x.toClient with
      | [] => none
      | f :: rest =>
          some { x with
            client := (x.client.route f).1
            toClient := rest
            ctrlRefs := x.ctrlRefs ++ announced x.client f
            cancelled := x.cancelled ++ overflow x.client f
            overflowed := x.overflowed ++ announced x.client f }
  | .serverOp r o =>
      match x.server.objs[r]? with
      | none => none
      | some s =>
          if permitted s o then
            some { x with
              server := x.server.setObj r (o.run s).1
              toClient := x.toClient ++ (o.run s).2.toList }
          else none
  | .serverEnd r st trailers =>
      (x.server.objs[r]?).map fun s =>
        { x with
          server := (x.server.setObj r (s.failWith (some (.status st)))).remove s.id
          toClient := x.toClient ++ [s.endFrameOf st trailers] }
  | .serverCtrl =>
      match x.server.ctrlCh with
      | [] => none
      | f :: rest =>
          some { x with
            server := { x.server with ctrlCh := rest }, toClient := x.toClient ++ [f] }
  | .serverRoute =>
      match x.toServer with
      | [] => none
      | f :: rest =>
          some { x with
            server := (x.server.route f).1, toServer := rest, taken := x.taken ++ [f] }

/-- A fresh connection: the client's and the server's window, and the server's cap. -/
def start (Wc Ws N : ℤ) : Pair :=
  { client := newMuxConfig false Wc 0, server := newMuxConfig true Ws N }

/-- Nothing is in flight and no runtime step is enabled. -/
def Quiescent (x : Pair) : Prop :=
  x.step .clientCtrl = none ∧ x.step .clientRoute = none ∧ x.step .serverCtrl = none ∧
    x.step .serverRoute = none

instance (x : Pair) : Decidable x.Quiescent := inferInstanceAs (Decidable (_ ∧ _))

/-! ## What the client keeps -/

open ClientStreams.Client (Ended Under under_route under_remove under_register idOf idOf_keeps)
open Ids (Numbered nthId_eq_iff)

variable {x x' : Pair} {m m' : Mux} {r : Ref}

/-- A later stream has the id of stream `r`: the ids have wrapped around. -/
def Taken (m : Mux) (r : Ref) : Prop :=
  ∃ s r' s', m.objs[r]? = some s ∧ r < r' ∧ m.objs[r']? = some s' ∧ s'.id = s.id

/-- The stream has ended, or is registered under its id, or has lost the id to a
later stream. -/
def Held (m : Mux) (r : Ref) : Prop := Ended m r ∨ Under m r ∨ Taken m r

theorem Taken.keeps (h : Taken m r) (hk : Mux.Keeps m m') : Taken m' r := by
  obtain ⟨s, r', s', hs, hlt, hs', hid⟩ := h
  obtain ⟨t, ht, hidt, -, -⟩ := hk r s hs
  obtain ⟨t', ht', hidt', -, -⟩ := hk r' s' hs'
  exact ⟨t, r', t', ht, hlt, ht', by rw [hidt', hid, hidt]⟩

/-- A step that keeps the objects needs an argument only for the registered ones. -/
theorem Held.keeps (h : Held m r) (hk : Mux.Keeps m m') (hu : Under m r → Held m' r) :
    Held m' r := by
  rcases h with he | hun | ht
  · exact Or.inl (he.keeps hk)
  · exact hu hun
  · exact Or.inr (Or.inr (ht.keeps hk))

/-- The frame is for the stream: it has its id. -/
def For (m : Mux) (r : Ref) (f : Frame) : Prop := idOf m r = some f.streamId

theorem For.lt {f : Frame} (h : For m r f) : r < m.objs.length := by
  obtain ⟨s, hs, -⟩ := Option.map_eq_some_iff.1 h
  exact (List.getElem?_eq_some_iff.1 hs).1

theorem For.keeps {f : Frame} (h : For m r f) (hk : Mux.Keeps m m') : For m' r f := by
  obtain ⟨s, hs, -⟩ := Option.map_eq_some_iff.1 h
  exact (idOf_keeps hk hs).trans h

/-- What the client has written and what its control queue holds: OPEN is the first
frame of its stream, the queue holds RSTs only, and the RSTs queued or sent are those of
the streams that overflowed, which nobody finds registered any more. -/
structure Inv (x : Pair) : Prop where
  numbered : Numbered x.client
  ids : ∀ e ∈ x.sent, For x.client e.1 e.2
  first : x.sent.Pairwise fun e e' => e'.2.kind = .kindOpen → e.1 ≠ e'.1
  queue : List.Forall₂ (fun r f => f.kind = .kindRst ∧ For x.client r f) x.ctrlRefs
    x.client.ctrlCh
  queued : ∀ r ∈ x.ctrlRefs, r ∈ x.overflowed
  reset : ∀ e ∈ x.sent, e.2.kind = .kindRst → e.1 ∈ x.overflowed
  told : ∀ r ∈ x.overflowed, r ∈ x.ctrlRefs ∨ ∃ f, (r, f) ∈ x.sent ∧ f.kind = .kindRst
  out : ∀ r ∈ x.overflowed, r < x.client.objs.length ∧
    ∀ id, x.client.streams.lookup id ≠ some r
  opened : ∀ e ∈ x.sent, e.2.kind = .kindOpen → Held x.client e.1
  cancelled : ∀ r ∈ x.cancelled, ∃ s, x.client.objs[r]? = some s ∧ s.ctxErr ≠ none

theorem inv_start (Wc Ws N : ℤ) : Inv (start Wc Ws N) where
  numbered := Ids.numbered_start Wc
  ids e he := by cases he
  first := .nil
  queue := .nil
  queued r hr := by cases hr
  reset e he := by cases he
  told r hr := by cases hr
  out r hr := by cases hr
  opened e he := by cases he
  cancelled r hr := by cases hr

/-- Writing a frame: an RST must be for a stream that has overflowed, and OPEN for a
held one nothing was written for. -/
theorem Inv.send (hi : Inv x) (r : Ref) {o : Option Frame} (hfor : ∀ f ∈ o, For x.client r f)
    (hrst : ∀ f ∈ o, f.kind = .kindRst → r ∈ x.overflowed)
    (hopen : ∀ f ∈ o, f.kind = .kindOpen → Held x.client r ∧ ∀ e ∈ x.sent, e.1 ≠ r) :
    Inv (x.send r o) := by
  cases o with
  | none => simpa [Pair.send] using hi
  | some f =>
      have hmem : ∀ e, e ∈ (x.send r (some f)).sent → e ∈ x.sent ∨ e = (r, f) := by
        intro e he
        simpa [Pair.send] using he
      refine { hi with ids := ?_, first := ?_, reset := ?_, told := ?_, opened := ?_ }
      · intro e he
        rcases hmem e he with he | rfl
        · exact hi.ids e he
        · exact hfor f rfl
      · refine List.pairwise_append.2 ⟨hi.first, List.pairwise_singleton _ _, ?_⟩
        intro e he e' he' hk
        obtain rfl : e' = (r, f) := by simpa using he'
        exact (hopen f rfl hk).2 e he
      · intro e he hk
        rcases hmem e he with he | rfl
        · exact hi.reset e he hk
        · exact hrst f rfl hk
      · intro r' hr'
        rcases hi.told r' hr' with hq | ⟨g, hg, hk⟩
        · exact Or.inl hq
        · exact Or.inr ⟨g, List.mem_append_left _ hg, hk⟩
      · intro e he hk
        rcases hmem e he with he | rfl
        · exact hi.opened e he hk
        · exact (hopen f rfl hk).1

/-- The client's mux keeps its objects, holds on to the registered ones and registers
none of those there are again; `c` more streams count as cancelled, each with a done
context, and `d` more as overflowed, each with an RST in the control queue and no
registration. -/
theorem Inv.of_keeps (hi : Inv x) {c d : List Ref} {q : List Frame} (hm : Numbered m)
    (hk : Mux.Keeps x.client m) (hu : ∀ r, Under x.client r → Held m r)
    (hlook : ∀ id r, r < x.client.objs.length → m.streams.lookup id = some r →
      x.client.streams.lookup id = some r)
    (hctrl : m.ctrlCh = x.client.ctrlCh ++ q)
    (hq : List.Forall₂ (fun r f => f.kind = .kindRst ∧ For m r f) d q)
    (hc : ∀ r ∈ c, ∃ s, m.objs[r]? = some s ∧ s.ctxErr ≠ none)
    (hd : ∀ r ∈ d, r < m.objs.length ∧ ∀ id, m.streams.lookup id ≠ some r) :
    Inv { x with
      client := m
      ctrlRefs := x.ctrlRefs ++ d
      cancelled := x.cancelled ++ c
      overflowed := x.overflowed ++ d } where
  numbered := hm
  ids e he := (hi.ids e he).keeps hk
  first := hi.first
  queue := by
    rw [hctrl]
    exact List.rel_append (hi.queue.imp fun _ _ h => ⟨h.1, h.2.keeps hk⟩) hq
  queued r hr := by
    rcases List.mem_append.1 hr with h | h
    · exact List.mem_append_left _ (hi.queued r h)
    · exact List.mem_append_right _ h
  reset e he hkind := List.mem_append_left _ (hi.reset e he hkind)
  told r hr := by
    rcases List.mem_append.1 hr with h | h
    · exact (hi.told r h).imp_left (List.mem_append_left _)
    · exact Or.inl (List.mem_append_right _ h)
  out r hr := by
    rcases List.mem_append.1 hr with h | h
    · obtain ⟨hlt, hno⟩ := hi.out r h
      obtain ⟨s, hs, -⟩ := hk r _ (List.getElem?_eq_getElem hlt)
      exact ⟨(List.getElem?_eq_some_iff.1 hs).1, fun id hl => hno id (hlook id r hlt hl)⟩
    · exact hd r h
  opened e he hkind := (hi.opened e he hkind).keeps hk (hu _)
  cancelled r hr := by
    rcases List.mem_append.1 hr with h | h
    · obtain ⟨s, hs, hctx⟩ := hi.cancelled r h
      obtain ⟨s', hs', -, -, hctx'⟩ := hk r s hs
      exact ⟨s', hs', hctx' hctx⟩
    · exact hc r h

/-! ## Steps of the client -/

/-- A new stream takes an id: whoever was registered under it has lost it. -/
theorem held_newClientStream (ctxErr : Option CtxErr) (method : Text) (written : Bool)
    (hu : Under m r) :
    Held { ClientStreams.Client.newClientStream m ctxErr method with
      streams := openStreams m written } r := by
  obtain ⟨s, hs, hlook⟩ := hu
  have hlt : r < m.objs.length := (List.getElem?_eq_some_iff.1 hs).1
  have hs' : (m.objs ++ [newStream ctxErr m.nextID method m.initialWindow])[r]? = some s := by
    rw [List.getElem?_append_left hlt]; exact hs
  by_cases hid : s.id = m.nextID
  · refine Or.inr (Or.inr ⟨s, m.objs.length, newStream ctxErr m.nextID method m.initialWindow,
      hs', hlt, ?_, ?_⟩)
    · simp [ClientStreams.Client.newClientStream]
    · rw [hid]; rfl
  · refine Or.inr (Or.inl ⟨s, hs', ?_⟩)
    show (openStreams m written).lookup s.id = some r
    rw [← hlook, openStreams]
    split_ifs
    · exact AList.lookup_insert_ne hid
    · rw [AList.lookup_erase_ne hid]
      exact AList.lookup_insert_ne hid

/-- Whom the registry names afterwards: the new stream, or one it named before. -/
theorem lookup_openStreams {written : Bool} {id : UInt32}
    (h : (openStreams m written).lookup id = some r) :
    (id = m.nextID ∧ r = m.objs.length) ∨ m.streams.lookup id = some r := by
  have hins : (m.streams.insert m.nextID m.objs.length).lookup id = some r := by
    unfold openStreams at h
    split_ifs at h
    · exact h
    · exact Mux.lookup_of_lookup_erase h
  by_cases hid : id = m.nextID
  · subst hid
    obtain rfl : m.objs.length = r := by simpa using hins
    exact Or.inl ⟨rfl, rfl⟩
  · rw [AList.lookup_insert_ne hid] at hins
    exact Or.inr hins

theorem inv_newClientStream (hi : Inv x) {ctxErr : Option CtxErr} {method : Text}
    {headers : Option Headers} {written : Bool}
    (h : x.step (.newClientStream ctxErr method headers written) = some x') : Inv x' := by
  obtain ⟨-, ⟨⟩⟩ := Option.ite_none_right_eq_some.1 h
  have hkeep : Mux.Keeps x.client { ClientStreams.Client.newClientStream x.client ctxErr method with
      streams := openStreams x.client written } :=
    (ClientStreams.Client.keeps_newClientStream x.client ctxErr method).trans
      (Mux.keeps_of_objs rfl)
  have hnew := ClientStreams.Client.newClientStream_obj x.client ctxErr method
  have hnum : Numbered { ClientStreams.Client.newClientStream x.client ctxErr method with
      streams := openStreams x.client written } := by
    refine (hi.numbered.newClientStream ctxErr method).keeps (Mux.keeps_of_objs rfl) rfl ?_ rfl rfl
    intro id r hl
    rcases lookup_openStreams hl with ⟨rfl, rfl⟩ | hl
    · exact ⟨_, hnew, rfl⟩
    · obtain ⟨s, hs, hid⟩ := hi.numbered.named id r hl
      obtain ⟨s', hs', hid', -, -⟩ := hkeep r s hs
      exact ⟨s', hs', hid'.trans hid⟩
  refine Inv.send ?_ _ ?_ ?_ ?_
  · have hbase := hi.of_keeps (c := if ctxErr.isSome then [x.client.objs.length] else [])
      (d := []) (q := []) hnum hkeep (fun r => held_newClientStream ctxErr method written) ?_
      (by simp [ClientStreams.Client.newClientStream]) .nil ?_ (by simp)
    · simpa only [List.append_nil] using hbase
    · intro id r hlt hl
      exact (lookup_openStreams hl).resolve_left fun h => hlt.ne h.2
    · -- the new stream counts as cancelled if its context is done from the start
      intro r hr
      split_ifs at hr with hctx
      · obtain rfl := List.mem_singleton.1 hr
        exact ⟨_, hnew, by simpa [newStream, Option.isSome_iff_ne_none] using hctx⟩
      · simp at hr
  · intro f hf
    split_ifs at hf
    · obtain rfl := Option.mem_some_iff.1 hf
      simp [For, idOf, hnew, newStream, openFrame]
    · cases hf
  · intro f hf hk
    split_ifs at hf
    · obtain rfl := Option.mem_some_iff.1 hf
      simp [openFrame] at hk
    · cases hf
  · intro f hf _
    split_ifs at hf with hw
    · refine ⟨Or.inr (Or.inl ⟨_, hnew, ?_⟩), fun e he => (hi.ids e he).lt.ne⟩
      simp only [openStreams, hw, if_true]
      exact AList.lookup_insert _
    · cases hf

theorem inv_clientOp (hi : Inv x) {r : Ref} {o : StreamOp} {written : Bool}
    (h : x.step (.clientOp r o written) = some x') : Inv x' := by
  simp only [step] at h
  split at h
  · cases h
  · rename_i s hs
    obtain ⟨-, ⟨⟩⟩ := Option.ite_none_right_eq_some.1 h
    have hlt : r < x.client.objs.length := (List.getElem?_eq_some_iff.1 hs).1
    have hkeep := Mux.keeps_op hs o
    have hwrites : ∀ f ∈ (if written then (o.run s).2 else none),
        StreamOp.Writes f.kind ∧ f.streamId = s.id := by
      intro f hf
      split_ifs at hf
      · exact o.run_writes s hf
      · cases hf
    refine Inv.send ?_ _ ?_ ?_ ?_
    · have hbase := hi.of_keeps (c := if cancels s o then [r] else []) (d := []) (q := [])
        (hi.numbered.keeps hkeep rfl (hi.numbered.named.keeps hkeep fun _ _ hl => hl) rfl
          (by simp [Mux.setObj]))
        hkeep (fun r hu => Or.inr (Or.inl (hu.keeps hkeep fun t _ hl => hl)))
        (fun _ _ _ hl => hl) (by simp [Mux.setObj]) .nil ?_ (by simp)
      · simpa only [List.append_nil] using hbase
      · intro r' hr'
        split_ifs at hr' with hcan
        · obtain rfl := List.mem_singleton.1 hr'
          simp only [cancels, Bool.and_eq_true] at hcan
          exact ⟨(o.run s).1, by simp [Mux.setObj, hlt], o.run_ctxErr_of_endsCtx hcan.1 s⟩
        · simp at hr'
    · intro f hf
      simp [For, idOf, Mux.setObj, hlt, (hwrites f hf).2, (o.run_spec s).1]
    · intro f hf hk
      rcases (hwrites f hf).1 with h | h | h | h <;> simp [hk] at h
    · intro f hf hk
      rcases (hwrites f hf).1 with h | h | h | h <;> simp [hk] at h

/-- The control writer takes the RST at the head of the queue. -/
theorem inv_clientCtrl (hi : Inv x) (h : x.step .clientCtrl = some x') : Inv x' := by
  have hqueue := hi.queue
  simp only [step] at h
  split at h
  · cases h
  · rename_i f rest hch
    cases h
    rw [hch] at hqueue
    obtain ⟨r, refs, ⟨hk, hfor⟩, hrest, hrefs⟩ := List.forall₂_cons_right_iff.1 hqueue
    have hover : r ∈ x.overflowed := hi.queued r (by simp [hrefs])
    have hkeep : Mux.Keeps x.client { x.client with ctrlCh := rest } := Mux.keeps_of_objs rfl
    simp only [hrefs, List.headD_cons, List.tail_cons]
    -- the stream at the head is told about by the frame that is sent now
    have hsent : ∀ y : Pair, y.sent = x.sent ++ [(r, f)] → ∀ r' ∈ x.overflowed,
        r' ∈ refs ∨ ∃ g, (r', g) ∈ y.sent ∧ g.kind = .kindRst := by
      intro y hy r' hr'
      rcases hi.told r' hr' with hq | ⟨g, hg, hgk⟩
      · rcases List.mem_cons.1 (hrefs ▸ hq) with rfl | hq
        · exact Or.inr ⟨f, by simp [hy], hk⟩
        · exact Or.inl hq
      · exact Or.inr ⟨g, by simp [hy, hg], hgk⟩
    have hbase := hi.send r (o := some f) (by simpa using hfor) (fun _ _ _ => hover)
      (by rintro _ ⟨⟩ hko; simp [hk] at hko)
    exact { hbase with
      numbered := hi.numbered.keeps hkeep rfl hi.numbered.named rfl rfl
      queue := hrest
      queued := fun r' hr' => hi.queued r' (by rw [hrefs]; exact List.mem_cons_of_mem r hr')
      told := hsent _ (by simp [Pair.send]) }

/-- A client mux queues a control frame only when a stream overflows: the one registered
under the id, whose context is live until then. -/
theorem overflow_cases (hm : m.server = false) (f : Frame) :
    (overflow m f = [] ∧ (m.route f).1.ctrlCh = m.ctrlCh) ∨
    ∃ r s s', overflow m f = [r] ∧ m.find f.streamId = some (r, s) ∧ s.ctxErr = none ∧
      s.onFrame m.server f = .overflowed s' ∧
      (m.route f).1 = ((m.setObj r s').writeCtrl
        (rstFrame f.streamId .resourceExhausted "receive buffer overflow")).remove f.streamId := by
  unfold overflow Mux.route
  split
  · rename_i r s hfind
    by_cases hk : f.kind = .kindOpen
    · left; simp [hk, Mux.routeOpen, hm]
    · simp only [hk, if_false, Mux.routeFrame, hfind, ne_eq, not_false_eq_true, true_and]
      cases hr : s.onFrame m.server f with
      | kept s' => left; simp [Routed.overflows, Mux.setObj]
      | removed s' => left; simp [Routed.overflows, Mux.setObj, Mux.remove]
      | overflowed s' =>
          right
          refine ⟨r, s, s', by simp [Routed.overflows], rfl, ?_, hr, rfl⟩
          by_contra hctx
          have hno : (s.onFrame m.server f).overflows = false := Stream.onFrame_overflows hctx
          rw [hr] at hno
          cases hno
  · rename_i hfind
    left
    split
    · simp [Mux.routeOpen, hm]
    · simp [Mux.routeFrame, hfind]

/-- An overflow ends the context. -/
theorem ctxErr_of_overflowed {s s' : Stream} {server : Bool} {f : Frame}
    (h : s.onFrame server f = .overflowed s') : s'.ctxErr ≠ none := by
  unfold Stream.onFrame at h
  split at h
  · cases h
  · cases h
  · cases h
  · cases h
  · cases h
  · split at h
    · cases h
    · cases h
      simp [Stream.failWith, Stream.cancel]

theorem inv_clientRoute (hi : Inv x) (h : x.step .clientRoute = some x') : Inv x' := by
  simp only [step] at h
  split at h
  · cases h
  · rename_i f rest htc
    cases h
    have hc := hi.numbered.client
    have hkeep := Mux.keeps_route x.client f
    have hheld : ∀ r, Under x.client r → Held (x.client.route f).1 r := fun r hu =>
      (under_route f hu).imp_right Or.inl
    obtain ⟨hnext, hlen⟩ := Ids.route_client hc f
    have hnum : Numbered (x.client.route f).1 := hi.numbered.keeps hkeep (x.client.route_mux f).2
      (hi.numbered.named.route f) hnext hlen
    have hlook : ∀ id r, r < x.client.objs.length →
        (x.client.route f).1.streams.lookup id = some r → x.client.streams.lookup id = some r := by
      intro id r hlt hl
      rcases x.client.route_cases f with ⟨-, -, hreg⟩ | ⟨-, hno⟩
      · simp [hreg, Mux.register] at hlen
      · exact hno id r hl
    rcases overflow_cases hc f with ⟨hnone, hsame⟩ | ⟨r, s, s', hone, hfind, -, hov, hroute⟩
    · have hbase := hi.of_keeps (c := []) (d := []) (q := []) hnum hkeep hheld hlook (by simp [hsame])
        .nil (by simp) (by simp)
      simp only [announced, hnone, ite_self]
      exact { hbase with }
    · obtain ⟨hl, hs⟩ := Mux.find_eq_some.1 hfind
      have hlt : r < x.client.objs.length := (List.getElem?_eq_some_iff.1 hs).1
      have hs' : (x.client.route f).1.objs[r]? = some s' := by
        simp [hroute, Mux.remove, Mux.setObj, hlt]
      have hfor : For (x.client.route f).1 r
          (rstFrame f.streamId .resourceExhausted "receive buffer overflow") := by
        obtain ⟨s₀, hs₀, hid₀⟩ := hi.numbered.named _ r hl
        obtain ⟨u, hu, hidu, -, -⟩ := hkeep r s₀ hs₀
        simp [For, idOf, hu, hidu, hid₀, rstFrame]
      -- the stream was registered under its own id only, which is erased
      have hout : ∀ id, (x.client.route f).1.streams.lookup id ≠ some r := by
        intro id hid
        obtain ⟨t, ht, rfl⟩ := hnum.named id r hid
        have heq : t.id = f.streamId := by simpa [For, idOf, ht, rstFrame] using hfor
        rw [heq, hroute] at hid
        simp [Mux.remove] at hid
      have hctx : ∀ r' ∈ [r], ∃ s, (x.client.route f).1.objs[r']? = some s ∧ s.ctxErr ≠ none := by
        simpa using ⟨s', hs', ctxErr_of_overflowed hov⟩
      by_cases hroom : x.client.ctrlCh.length < ctrlBufferSize
      · have hbase := hi.of_keeps (c := [r]) (d := [r]) hnum hkeep hheld hlook
          (by simp [hroute, Mux.remove, Mux.writeCtrl, Mux.setObj, hroom])
          (.cons ⟨rfl, hfor⟩ .nil) hctx (by simpa using ⟨hlen ▸ hlt, hout⟩)
        simp only [announced, hone, hroom, if_true]
        exact { hbase with }
      · have hbase := hi.of_keeps (c := [r]) (d := []) (q := []) hnum hkeep hheld hlook
          (by simp [hroute, Mux.remove, Mux.writeCtrl, Mux.setObj, hroom]) .nil hctx (by simp)
        simp only [announced, hone, hroom, if_false]
        exact { hbase with }

/-! ## What the server keeps -/

/-- An OPEN that comes after a frame has another id. -/
def Apart (f g : Frame) : Prop := g.kind = .kindOpen → f.streamId ≠ g.streamId

/-- A server that has routed the frames `l`: its streams have ids of their own, taken from
`l`, each has ended or is registered, and an id that was reset is registered no more. -/
structure Served (l : List Frame) (m : Mux) : Prop where
  known : ∀ (r : Ref) (s : Stream), m.objs[r]? = some s → ∃ f ∈ l, f.streamId = s.id
  unique : ∀ (r r' : Ref) (s s' : Stream), m.objs[r]? = some s → m.objs[r']? = some s' →
    s.id = s'.id → r = r'
  live : ∀ (r : Ref) (s : Stream), m.objs[r]? = some s → Ended m r ∨ Under m r
  gone : ∀ f ∈ l, f.kind = .kindRst → m.streams.lookup f.streamId = none

variable {l : List Frame}

/-- A step that makes no stream, registers nobody and lets go only of streams that have
ended. -/
theorem Served.keeps (h : Served l m) (hk : Mux.Keeps m m')
    (hlen : m'.objs.length = m.objs.length)
    (hlook : ∀ id r, m'.streams.lookup id = some r → m.streams.lookup id = some r)
    (hu : ∀ r, Under m r → Ended m' r ∨ Under m' r) : Served l m' where
  known r s' hs' := by
    obtain ⟨s, hs, hid⟩ := hk.back hlen hs'
    rw [hid]
    exact h.known r s hs
  unique r₁ r₂ s₁ s₂ hs₁ hs₂ heq := by
    obtain ⟨t₁, ht₁, hid₁⟩ := hk.back hlen hs₁
    obtain ⟨t₂, ht₂, hid₂⟩ := hk.back hlen hs₂
    exact h.unique r₁ r₂ t₁ t₂ ht₁ ht₂ (by rw [← hid₁, ← hid₂, heq])
  live r s' hs' := by
    obtain ⟨s, hs, -⟩ := hk.back hlen hs'
    rcases h.live r s hs with he | hun
    · exact Or.inl (he.keeps hk)
    · exact hu r hun
  gone f hf hrst := by
    rw [Option.eq_none_iff_forall_ne_some]
    intro r hl
    have := hlook _ r hl
    rw [h.gone f hf hrst] at this
    cases this

/-- The server takes a frame of which the registry already shows what it should. -/
theorem Served.snoc (h : Served l m) {f : Frame}
    (hrst : f.kind = .kindRst → m.streams.lookup f.streamId = none) : Served (l ++ [f]) m where
  known r s hs := by
    obtain ⟨g, hg, hid⟩ := h.known r s hs
    exact ⟨g, List.mem_append_left _ hg, hid⟩
  unique := h.unique
  live := h.live
  gone g hg hk := by
    rcases List.mem_append.1 hg with hg | hg
    · exact h.gone g hg hk
    · obtain rfl := List.mem_singleton.1 hg
      exact hrst hk

/-- An OPEN with a new id is registered. -/
theorem Served.register (h : Served l m) {f : Frame} (hopen : f.kind = .kindOpen)
    (hfree : m.dupOpen f = false) (hnew : ∀ g ∈ l, Apart g f) :
    Served (l ++ [f]) (m.register f).1 := by
  have hid : ∀ (r : Ref) (s : Stream), m.objs[r]? = some s → s.id ≠ f.streamId := by
    intro r s hs heq
    obtain ⟨g, hg, hgid⟩ := h.known r s hs
    exact hnew g hg hopen (hgid.trans heq)
  have hkeep : Mux.Keeps m (m.register f).1 :=
    (Mux.keeps_append _).trans (Mux.keeps_of_objs rfl)
  constructor
  · intro r s hs
    rcases of_getElem?_concat hs with hs | ⟨-, rfl⟩
    · obtain ⟨g, hg, hgid⟩ := h.known r s hs
      exact ⟨g, List.mem_append_left _ hg, hgid⟩
    · exact ⟨f, by simp, rfl⟩
  · intro r r' s s' hs hs' heq
    rcases of_getElem?_concat hs with hs | ⟨rfl, rfl⟩ <;>
      rcases of_getElem?_concat hs' with hs' | ⟨rfl, rfl⟩
    · exact h.unique r r' s s' hs hs' heq
    · exact absurd heq (hid r s hs)
    · exact absurd heq.symm (hid r' s' hs')
    · rfl
  · intro r s hs
    rcases of_getElem?_concat hs with hold | ⟨rfl, rfl⟩
    · exact (h.live r s hold).imp (Ended.keeps · hkeep) (under_register hfree)
    · exact Or.inr ⟨_, hs, AList.lookup_insert _⟩
  · intro g hg hk
    rcases List.mem_append.1 hg with hg | hg
    · rw [← h.gone g hg hk]
      exact AList.lookup_insert_ne (hnew g hg hopen)
    · obtain rfl := List.mem_singleton.1 hg
      simp [hopen] at hk

/-- After an RST nobody is registered under its id. -/
theorem lookup_route_rst (hm : m.Named) {f : Frame} (hk : f.kind = .kindRst) :
    (m.route f).1.streams.lookup f.streamId = none := by
  cases hfind : m.find f.streamId with
  | none =>
      have hsame : (m.route f).1 = m := by simp [Mux.route, hk, Mux.routeFrame, hfind]
      rw [hsame, Option.eq_none_iff_forall_ne_some]
      intro r hl
      obtain ⟨s, hs, -⟩ := hm _ r hl
      rw [Mux.find_eq_some.2 ⟨hl, hs⟩] at hfind
      cases hfind
  | some y =>
      simp [Mux.route, hk, Mux.routeFrame, hfind, Stream.onFrame, Mux.remove]

theorem Served.route (h : Served l m) (hm : m.Named) {f : Frame}
    (hnew : ∀ g ∈ l, Apart g f) : Served (l ++ [f]) (m.route f).1 := by
  rcases m.route_cases f with ⟨hopen, hfree, hreg⟩ | ⟨hlen, hlook⟩
  · rw [hreg]
    exact h.register hopen hfree hnew
  · exact (h.keeps (Mux.keeps_route m f) hlen hlook fun r => under_route f).snoc
      (lookup_route_rst hm)

/-- The channel to the server, and the server behind it. -/
structure Wire (x : Pair) : Prop where
  wire : x.sent.map Prod.snd = x.taken ++ x.toServer
  named : x.server.Named
  served : x.taken.Pairwise Apart → Served x.taken x.server

theorem wire_start (Wc Ws N : ℤ) : Wire (start Wc Ws N) where
  wire := rfl
  named := Mux.named_new true Ws N
  served _ := by constructor <;> simp [start, newMuxConfig]

theorem Wire.send (h : Wire x) (r : Ref) (o : Option Frame) : Wire (x.send r o) :=
  { h with wire := by cases o <;> simp [Pair.send, h.wire] }

/-- The server's objects are kept, nobody is registered anew, and whoever loses the
registration has ended. -/
theorem Wire.keeps (h : Wire x) (hk : Mux.Keeps x.server m)
    (hlen : m.objs.length = x.server.objs.length)
    (hlook : ∀ id r, m.streams.lookup id = some r → x.server.streams.lookup id = some r)
    (hu : Served x.taken x.server → ∀ r, Under x.server r → Ended m r ∨ Under m r)
    (toClient : List Frame) : Wire { x with server := m, toClient } where
  wire := h.wire
  named := h.named.keeps hk hlook
  served hp := (h.served hp).keeps hk hlen hlook (hu (h.served hp))

/-! ## Every run -/

theorem wire_step {a : Act} (h : Wire x) (hs : x.step a = some x') : Wire x' := by
  cases a with
  | newClientStream ctxErr method headers written =>
      obtain ⟨-, ⟨⟩⟩ := Option.ite_none_right_eq_some.1 hs
      refine Wire.send ?_ _ _
      exact { h with }
  | clientOp r o written =>
      simp only [step] at hs
      split at hs
      · cases hs
      · obtain ⟨-, ⟨⟩⟩ := Option.ite_none_right_eq_some.1 hs
        refine Wire.send ?_ _ _
        exact { h with }
  | clientCtrl =>
      simp only [step] at hs
      split at hs
      · cases hs
      · cases hs
        refine Wire.send ?_ _ _
        exact { h with }
  | clientRoute =>
      simp only [step] at hs
      split at hs
      · cases hs
      · cases hs; exact { h with }
  | serverOp r o =>
      simp only [step] at hs
      split at hs
      · cases hs
      · rename_i s hobj
        obtain ⟨-, ⟨⟩⟩ := Option.ite_none_right_eq_some.1 hs
        have hk := Mux.keeps_op hobj o
        exact h.keeps hk (by simp [Mux.setObj]) (fun _ _ hl => hl)
          (fun _ _ hu => Or.inr (hu.keeps hk fun _ _ hl => hl)) _
  | serverEnd r st trailers =>
      obtain ⟨s, hobj, rfl⟩ := Option.map_eq_some_iff.1 hs
      have hk := Mux.keeps_failWith hobj (some (.status st))
      refine h.keeps (m := (x.server.setObj r (s.failWith (some (.status st)))).remove s.id)
        (hk.trans (Mux.keeps_of_objs rfl)) (by simp [Mux.setObj, Mux.remove])
        (fun _ _ hl => Mux.lookup_of_lookup_erase hl) (fun hserved r' hu => ?_) _
      -- nobody but the stream itself has the id that is removed
      refine under_remove (hu.keeps hk fun _ _ hl => hl) fun t ht hid => ?_
      obtain ⟨t₀, ht₀, hid₀⟩ := hk.back (by simp [Mux.setObj]) ht
      obtain rfl := hserved.unique r' r t₀ s ht₀ hobj (hid₀.symm.trans hid)
      have hlt : r' < x.server.objs.length := (List.getElem?_eq_some_iff.1 hobj).1
      obtain rfl : s.failWith (some (.status st)) = t := by simpa [Mux.setObj, hlt] using ht
      exact s.failWith_ended _
  | serverCtrl =>
      simp only [step] at hs
      split at hs
      · cases hs
      · rename_i f rest _
        cases hs
        exact h.keeps (m := { x.server with ctrlCh := rest }) (Mux.keeps_of_objs rfl) rfl
          (fun _ _ hl => hl) (fun _ _ hu => Or.inr hu) _
  | serverRoute =>
      simp only [step] at hs
      split at hs
      · cases hs
      · rename_i f rest htaken
        cases hs
        refine ⟨by simp [h.wire, htaken], h.named.route f, fun hp => ?_⟩
        obtain ⟨hp, -, hnew⟩ := List.pairwise_append.1 hp
        exact (h.served hp).route h.named fun g hg => hnew g hg f (by simp)

theorem inv_step {a : Act} (hi : Inv x) (h : x.step a = some x') : Inv x' := by
  cases a with
  | newClientStream ctxErr method headers written => exact inv_newClientStream hi h
  | clientOp r o written => exact inv_clientOp hi h
  | clientCtrl => exact inv_clientCtrl hi h
  | clientRoute => exact inv_clientRoute hi h
  | serverOp r o =>
      simp only [step] at h
      split at h
      · cases h
      · obtain ⟨-, ⟨⟩⟩ := Option.ite_none_right_eq_some.1 h
        exact { hi with }
  | serverEnd r st trailers =>
      obtain ⟨s, -, rfl⟩ := Option.map_eq_some_iff.1 h
      exact { hi with }
  | serverCtrl =>
      simp only [step] at h
      split at h
      · cases h
      · cases h; exact { hi with }
  | serverRoute =>
      simp only [step] at h
      split at h
      · cases h
      · cases h; exact { hi with }

/-- Once its context is done, a stream overflows no more. -/
theorem overflowed_step {a : Act} (hi : Inv x) (hr : r ∈ x.cancelled) (h : x.step a = some x') :
    r ∈ x'.cancelled ∧ (r ∈ x'.overflowed ↔ r ∈ x.overflowed) := by
  cases a with
  | newClientStream ctxErr method headers written =>
      obtain ⟨-, ⟨⟩⟩ := Option.ite_none_right_eq_some.1 h
      exact ⟨List.mem_append_left _ hr, Iff.rfl⟩
  | clientOp r o written =>
      simp only [step] at h
      split at h
      · cases h
      · obtain ⟨-, ⟨⟩⟩ := Option.ite_none_right_eq_some.1 h
        exact ⟨List.mem_append_left _ hr, Iff.rfl⟩
  | clientCtrl =>
      simp only [step] at h
      split at h
      · cases h
      · cases h; exact ⟨hr, Iff.rfl⟩
  | clientRoute =>
      simp only [step] at h
      split at h
      · cases h
      · rename_i f rest htc
        cases h
        refine ⟨List.mem_append_left _ hr, fun hover => ?_, List.mem_append_left _⟩
        rcases List.mem_append.1 hover with hover | hover
        · exact hover
        · obtain ⟨s, hs, hctx⟩ := hi.cancelled r hr
          have hmem : r ∈ overflow x.client f := by
            unfold announced at hover
            split_ifs at hover
            · exact hover
            · cases hover
          rcases overflow_cases hi.numbered.client f with
            ⟨hnone, -⟩ | ⟨r', s', -, hone, hfind, hlive, -⟩
          · simp [hnone] at hmem
          · obtain rfl : r = r' := by simpa [hone] using hmem
            obtain rfl : s = s' := Option.some.inj (hs.symm.trans (Mux.find_eq_some.1 hfind).2)
            exact absurd hlive hctx
  | serverOp r o =>
      simp only [step] at h
      split at h
      · cases h
      · obtain ⟨-, ⟨⟩⟩ := Option.ite_none_right_eq_some.1 h
        exact ⟨hr, Iff.rfl⟩
  | serverEnd r st trailers =>
      obtain ⟨s, -, rfl⟩ := Option.map_eq_some_iff.1 h
      exact ⟨hr, Iff.rfl⟩
  | serverCtrl =>
      simp only [step] at h
      split at h
      · cases h
      · cases h; exact ⟨hr, Iff.rfl⟩
  | serverRoute =>
      simp only [step] at h
      split at h
      · cases h
      · cases h; exact ⟨hr, Iff.rfl⟩

theorem inv_of_reach {Wc Ws N : ℤ} (h : Reach step Always (start Wc Ws N) x) :
    Inv x ∧ Wire x :=
  h.invariant (P := fun x => Inv x ∧ Wire x) ⟨inv_start Wc Ws N, wire_start Wc Ws N⟩
    fun _ _ _ hi _ hs => ⟨inv_step hi.1 hs, wire_step hi.2 hs⟩

/-- So what a cancelled stream is told about is decided when it is cancelled. -/
theorem overflowed_of_reach (hi : Inv x) (hr : r ∈ x.cancelled) (h : Reach step Always x x') :
    r ∈ x'.overflowed ↔ r ∈ x.overflowed :=
  (h.invariant (P := fun y => Inv y ∧ r ∈ y.cancelled ∧ (r ∈ y.overflowed ↔ r ∈ x.overflowed))
    ⟨hi, hr, Iff.rfl⟩ fun y y' a hy _ hs => by
      obtain ⟨hiy, hc, hover⟩ := hy
      obtain ⟨hc', hover'⟩ := overflowed_step hiy hc hs
      exact ⟨inv_step hiy hs, hc', hover'.trans hover⟩).2.2

/-- The client has sent an RST for the stream, its id is registered on neither side, and
every stream the server has had under it has ended. -/
def Settled (x : Pair) (r : Ref) : Prop :=
  (∃ f, (r, f) ∈ x.sent ∧ f.kind = .kindRst) ∧
    ∀ s, x.client.objs[r]? = some s → x.client.streams.lookup s.id = none ∧
      x.server.streams.lookup s.id = none ∧ ∀ t ∈ x.server.objs, t.id = s.id → t.ended = true

/-- Until the ids repeat, two streams of the client have two ids. -/
theorem eq_of_for (hm : Numbered m) (hlen : m.objs.length ≤ 2 ^ 31) {r r' : Ref} {f g : Frame}
    (hf : For m r f) (hg : For m r' g) (hid : f.streamId = g.streamId) : r = r' := by
  obtain ⟨s, hs, hsf⟩ := Option.map_eq_some_iff.1 hf
  obtain ⟨s', hs', hsg⟩ := Option.map_eq_some_iff.1 hg
  rw [hm.ids r s hs] at hsf
  rw [hm.ids r' s' hs'] at hsg
  have heq := nthId_eq_iff.1 (hsf.trans (hid.trans hsg.symm))
  have hlt : r < m.objs.length := hf.lt
  have hlt' : r' < m.objs.length := hg.lt
  rwa [Nat.mod_eq_of_lt (hlt.trans_le hlen), Nat.mod_eq_of_lt (hlt'.trans_le hlen)] at heq

/-- On a quiet connection the control queue and the channel to the server are empty. -/
theorem quiescent_channels (hq : x.Quiescent) : x.client.ctrlCh = [] ∧ x.toServer = [] := by
  obtain ⟨hctrl, -, -, hserver⟩ := hq
  constructor
  · cases h : x.client.ctrlCh with
    | nil => rfl
    | cons f rest => simp [step, h] at hctrl
  · cases h : x.toServer with
    | nil => rfl
    | cons f rest => simp [step, h] at hserver

/-- **An overflow settles the stream**, once the connection is quiet. -/
theorem settled_of_overflowed (hi : Inv x) (hw : Wire x) (hq : x.Quiescent)
    (hlen : x.client.objs.length ≤ 2 ^ 31) (hr : r ∈ x.overflowed) : Settled x r := by
  obtain ⟨hctrl, hserver⟩ := quiescent_channels hq
  have hrefs : x.ctrlRefs = [] := by simpa [hctrl] using hi.queue
  obtain ⟨f, hf, hk⟩ := (hi.told r hr).resolve_left (by simp [hrefs])
  have hwire : x.taken = x.sent.map Prod.snd := by simpa [hserver] using hw.wire.symm
  have hserved : Served x.taken x.server := by
    refine hw.served ?_
    rw [hwire, List.pairwise_map]
    exact hi.first.imp_of_mem fun he he' hne hopen hid =>
      hne hopen (eq_of_for hi.numbered hlen (hi.ids _ he) (hi.ids _ he') hid)
  have hgone : x.server.streams.lookup f.streamId = none :=
    hserved.gone f (by rw [hwire]; exact List.mem_map_of_mem hf) hk
  refine ⟨⟨f, hf, hk⟩, fun s hs => ?_⟩
  have hfor : For x.client r f := hi.ids _ hf
  have hid : s.id = f.streamId := by simpa [For, idOf, hs] using hfor
  rw [hid]
  refine ⟨?_, hgone, fun t ht hidt => ?_⟩
  · rw [Option.eq_none_iff_forall_ne_some]
    intro r' hl
    obtain ⟨s', hs', hid'⟩ := hi.numbered.named _ r' hl
    have hfor' : For x.client r' f := by simp [For, idOf, hs', hid']
    obtain rfl := eq_of_for hi.numbered hlen hfor hfor' rfl
    exact (hi.out r hr).2 _ hl
  · obtain ⟨r', hr'⟩ := List.mem_iff_getElem?.1 ht
    rcases hserved.live r' t hr' with ⟨t', ht', he⟩ | ⟨t', ht', hl⟩
    · obtain rfl : t = t' := Option.some.inj (hr'.symm.trans ht')
      exact he
    · obtain rfl : t = t' := Option.some.inj (hr'.symm.trans ht')
      rw [hidt, hgone] at hl
      cases hl

/-- **What becomes of a cancelled call.**  In every run, for a client stream whose context
has ended before its END or RST arrived, and in every state from then on:

* if the stream had not overflowed, the client sends no RST for it, and until the server
  ends the stream by itself the client's map keeps it registered, unless a later stream has
  taken its id;
* on a quiet connection with at most `2 ^ 31` calls, the stream is settled on both sides
  exactly if it had overflowed, with room for the RST in the control queue. -/
theorem cancelled_settled_iff (Wc Ws N : ℤ) {x x' : Pair}
    (h : Reach step Always (start Wc Ws N) x) {r : Ref} (hr : r ∈ x.cancelled)
    (h' : Reach step Always x x') :
    (r ∉ x.overflowed →
      (∀ f, (r, f) ∈ x'.sent → f.kind ≠ .kindRst) ∧
        ∀ f, (r, f) ∈ x'.sent → f.kind = .kindOpen →
          ∀ s, x'.client.objs[r]? = some s → s.ended = false →
            x'.client.streams.lookup s.id = some r ∨ Taken x'.client r) ∧
    (x'.Quiescent → x'.client.objs.length ≤ 2 ^ 31 → (Settled x' r ↔ r ∈ x.overflowed)) := by
  obtain ⟨hi, hw⟩ := inv_of_reach (h.trans h')
  have hover := overflowed_of_reach (inv_of_reach h).1 hr h'
  refine ⟨fun hno => ⟨fun f hf hk => ?_, fun f hf hk s hs hend => ?_⟩, fun hq hlen => ⟨?_, ?_⟩⟩
  · exact hno (hover.1 (hi.reset _ hf hk))
  · rcases hi.opened _ hf hk with ⟨t, ht, he⟩ | ⟨t, ht, hlook⟩ | htaken
    · obtain rfl : s = t := Option.some.inj (hs.symm.trans ht)
      simp [hend] at he
    · obtain rfl : s = t := Option.some.inj (hs.symm.trans ht)
      exact Or.inl hlook
    · exact Or.inr htaken
  · rintro ⟨⟨f, hf, hk⟩, -⟩
    exact hover.1 (hi.reset _ hf hk)
  · intro hmem
    exact settled_of_overflowed hi hw hq hlen (hover.2 hmem)

/-- A stream that overflows with its second message and is closed: the RST settles it. -/
theorem cancelled_settled_iff_overflow :
    ∃ x x' : Pair, Reach step Always (start 1 4 0) x ∧ 0 ∈ x.cancelled ∧
      Reach step Always x x' ∧ x'.Quiescent ∧ Settled x' 0 := by
  obtain ⟨x, hx, hp⟩ := exists_reach_of_exec step Always (start 1 4 0)
    (fun x => decide (0 ∈ x.cancelled ∧ 0 ∈ x.overflowed ∧
      (exec step Always x [.clientCtrl, .serverRoute]).map
        (fun x' => decide (x'.Quiescent ∧ x'.client.objs.length = 1)) = some true))
    [.newClientStream none .empty none true, .serverRoute, .serverOp 0 (.sendRaw [1, 2, 3]),
      .serverOp 0 (.sendRaw [4]), .clientRoute, .clientRoute, .clientOp 0 .closeResponse true]
    (by decide)
  simp only [decide_eq_true_eq] at hp
  obtain ⟨hc, hover, hrest⟩ := hp
  obtain ⟨x', hx', hq⟩ := exists_reach_of_exec step Always x _ _ hrest
  simp only [decide_eq_true_eq] at hq
  exact ⟨x, x', hx, hc, hx', hq.1,
    ((cancelled_settled_iff 1 4 0 hx hc hx').2 hq.1 (by simp [hq.2])).2 hover⟩

/-- **A cancelled call that never ends.**  The client opens a stream, the server
registers it and starts its handler, and the client's context is cancelled.  Nothing
is in flight and no runtime step is enabled; yet the id is registered on both sides,
no RST was sent, the server's stream is live and its handler's receive has no ready
case. -/
theorem cancelled_stays_open :
    ∃ x : Pair, Reach step Always (start 4 4 0) x ∧ x.Quiescent ∧ x.cancelled = [0] ∧
      (∀ e ∈ x.sent, e.2.kind ≠ .kindRst) ∧ x.client.streams.lookup 1 = some 0 ∧
      x.server.streams.lookup 1 = some 0 ∧
      ∃ s, x.server.objs[0]? = some s ∧ s.id = 1 ∧ s.ended = false ∧ s.ctxErr = none ∧
        ∀ c, Inbound.selectStep { server := true, stream := s, recv := .select } c = none := by
  obtain ⟨x, hx, hp⟩ := exists_reach_of_exec step Always (start 4 4 0)
    (fun x => decide (x.Quiescent ∧ x.cancelled = [0] ∧ (∀ e ∈ x.sent, e.2.kind ≠ .kindRst) ∧
      x.client.streams.lookup 1 = some 0 ∧ x.server.streams.lookup 1 = some 0 ∧
      x.server.objs[0]? = some (newStream none 1 .empty 4)))
    [.newClientStream none .empty none true, .serverRoute, .clientOp 0 (.expire .canceled) true]
    (by decide)
  simp only [decide_eq_true_eq] at hp
  obtain ⟨hq, hc, hrst, hcl, hsv, hs⟩ := hp
  refine ⟨x, hx, hq, hc, hrst, hcl, hsv, _, hs, rfl, rfl, rfl, ?_⟩
  intro c
  cases c <;> rfl

end Pair

end WsProto.Go.Cancel
