import WsProto.Agree.Dispatch

/-!
# A call the client gives up

The TypeScript client and the Go server of `WsProto.Agree.Dispatch`, with a record of the calls
the client was told the end of: those for which its mux was handed an END or an RST.

A stream of the client ends because its caller cancels it, its deadline passes, its signal is
aborted, or one of its buffers overflows; or because the server says so; or with the mux.  The
server's stream ends by an RST, an overflow, its own handler or the loss of the connection.

* `Accounted.step` — a stream of a live mux that has finished has written
  an RST, or the client was told;
* `Settled.step` — an RST that the read loop has taken has ended its stream, unless its handler
  had already returned;
* `no_orphans` — once the frames of the client have been taken, a handler whose stream has not
  ended works for a call that the client has not given up.
-/

namespace WsProto.Agree.Cancellation

open Machine Go Go.Handlers Go.Ownership Dispatch Ts.WireGrammar

/-! ## The system -/

/-- The two ends, and what the client was told. -/
structure Link where
  conn : Conn
  /-- Ghost: the ids of the END and RST frames the client's mux was handed. -/
  heard : List UInt32 := []

def terminal (f : Frame) : Bool := f.kind = .kindEnd ∨ f.kind = .kindRst

/-- The ids an event of the client tells it the end of. -/
def hears : Event → List UInt32
  | .client a => ((inbound a).toList.filter terminal).map Frame.streamId
  | .deliver | .loop | .server _ => []

namespace Link

def step (size : Frame → ℕ) (x : Link) (e : Event) : Option Link :=
  (x.conn.step size e).map fun conn => { conn, heard := x.heard ++ hears e }

def start (W B F : ℤ) (ready : Bool) (got : Option Text) (W' N : ℤ) : Link :=
  { conn := .start W B F ready got W' N }

end Link

/-! ## The client -/

section Client

variable {size : Frame → ℕ}

/-- A stream of a live mux that has finished has written an RST, or the client was told. -/
def Accounted (c : Ts.Ledger.Session) (heard : List UInt32) : Prop :=
  ∀ (r : Ref) (s : Ts.StreamImpl), c.mux.objs[r]? = some s → s.finished = true →
    c.mux.defunct = true ∨ s.id ∈ heard ∨ Kind.kindRst ∈ kindsFor s.id c.accepted

/-- A mux that is gone stays so. -/
theorem defunct_of_call {m : Ts.Mux} {a : Ts.Ledger.Act} {y : Ts.Mux × Option Ts.WsStatusError}
    {l : List Frame} (h : Ts.Ledger.Sound size m l) (hy : Ts.Ledger.call size m a = some y)
    (hd : m.defunct = true) : y.1.defunct = true := by
  have hkept : Ts.Ledger.Kept size m a fun m' l =>
      Ts.Ledger.Sound size m' l ∧ m'.defunct = true :=
    (Ts.Ledger.sound_kept size m a).and fun hs hd ht => turn_defunct hs.books.wf ht hd
  exact (hkept.call ⟨h, hd⟩ hy).2.2

theorem Accounted.step {c c' : Ts.Ledger.Session} {heard : List UInt32} {a : Ts.Ledger.Act}
    (h : Accounted c heard) (hg : Grammatical size c) (hs : c.step size a = some c') :
    Accounted c' (heard ++ hears (.client a)) := by
  have hwf' := (hg.step hs).sound.books.wf
  obtain ⟨y, hy, rfl⟩ := Option.map_eq_some_iff.1 hs
  obtain ⟨said, htalk, hwire⟩ := utters_call hg.sound hy
  intro r s' hs' hfin
  have hid : s'.id = UInt32.ofNat (2 * r + 1) := hwf'.ids r s' hs'
  rcases (htalk.stream (flags_getElem? hs')).2 hfin with
    ⟨b, hb, hbfin⟩ | hrst | hd | ⟨f, hf, hkind, htell⟩
  · -- it had finished before
    rw [flags, List.getElem?_map, Option.map_eq_some_iff] at hb
    obtain ⟨s, hold, rfl⟩ := hb
    have hsame : s.id = s'.id := by rw [hid, hg.sound.books.wf.ids r s hold]
    rcases h r s hold hbfin with hd | hheard | hrst
    · exact .inl (defunct_of_call hg.sound hy hd)
    · exact .inr (.inl (List.mem_append_left _ (hsame ▸ hheard)))
    · refine .inr (.inr ?_)
      rw [kindsFor_append]
      exact List.mem_append_left _ (hsame ▸ hrst)
  · -- it has written its RST
    have hmem : onWire (r, .kindRst) ∈ (Ts.Ledger.log size c.mux a).map wire :=
      hwire ▸ List.mem_map_of_mem hrst
    obtain ⟨f, hf, hfw⟩ := List.mem_map.1 hmem
    obtain ⟨hfid, hfk⟩ := Prod.mk.inj hfw
    refine .inr (.inr ?_)
    rw [kindsFor_append]
    exact List.mem_append_right _ (mem_kindsFor.2 ⟨f, hf, hfid.trans hid.symm, hfk⟩)
  · exact .inl hd
  · refine .inr (.inl (List.mem_append_right _ ?_))
    refine List.mem_map.2 ⟨f, List.mem_filter.2 ⟨?_, decide_eq_true hkind⟩, htell.trans hid.symm⟩
    exact Option.mem_toList.2 hf

/-- The stream an OPEN is of. -/
theorem exists_stream {c : Ts.Ledger.Session} (hg : Grammatical size c) {f : Frame}
    (hf : f ∈ c.accepted) :
    ∃ (q : Ref) (t : Ts.StreamImpl), c.mux.objs[q]? = some t ∧ t.id = f.streamId := by
  obtain ⟨said, hsp, hwire⟩ := hg.spoken
  have hmem : wire f ∈ said.map onWire := hwire ▸ List.mem_map_of_mem hf
  obtain ⟨e, he, hew⟩ := List.mem_map.1 hmem
  have hlt : e.1 < c.mux.objs.length := by
    have hknown := hsp.known e he
    rwa [flags, List.length_map] at hknown
  refine ⟨e.1, c.mux.objs[e.1], List.getElem?_eq_getElem hlt, ?_⟩
  rw [hg.sound.books.wf.ids e.1 _ (List.getElem?_eq_getElem hlt)]
  exact congrArg Prod.fst hew

end Client

/-! ## The server -/

section Server

variable {size : Frame → ℕ} {N : ℤ} {x x' : Conn}

/-- The handler of a stream has returned. -/
def Returned (x : Conn) (r : Ref) : Prop := r ∈ x.started ∧ r ∉ x.server.srv.running

/-- What every step keeps, beside `Dispatch.Inv`. -/
structure Settled (x : Conn) : Prop where
  running : x.server.srv.running.Sublist x.started
  /-- An OPEN the read loop is at is the last frame it has taken. -/
  latest : ∀ g ∈ pending x.server.srv.loop, g.kind = .kindOpen ∧ ∃ l, x.taken = l ++ [g]
  released : ∀ r ∈ x.server.released, ∀ s, x.server.srv.mux.objs[r]? = some s →
    s.ended = true ∨ Returned x r
  resets : ∀ f ∈ x.taken, f.kind = .kindRst → ∀ r s, x.server.srv.mux.objs[r]? = some s →
    s.id = f.streamId → s.ended = true ∨ Returned x r

/-- An RST that was taken is not of an OPEN the read loop is still at. -/
theorem not_reset_of_pending (h : Dispatch.Inv size N x) (hset : Settled x) {f g : Frame}
    (hg : g ∈ pending x.server.srv.loop) (hf : f ∈ x.taken) (hrst : f.kind = .kindRst) :
    f.streamId ≠ g.streamId := by
  intro hid
  obtain ⟨hopen, l, hl⟩ := hset.latest g hg
  have hfl : f ∈ l := by
    rw [hl] at hf
    rcases List.mem_append.1 hf with hf | hf
    · exact hf
    · rw [List.mem_singleton.1 hf, hopen] at hrst
      cases hrst
  obtain ⟨l₁, l₂, rfl⟩ := List.append_of_mem hfl
  have hbefore : l₁ ++ [f] <+: x.taken := ⟨l₂ ++ [g], by rw [hl]; simp⟩
  obtain ⟨g', hg', hgid⟩ := h.known hbefore (by rw [hrst]; decide)
  -- the two OPENs have one id
  have hnodup := nodup_opens h.client h.taken
  have hlast : opens [g] = [g] := by simp [opens, hopen]
  rw [hl, opens_append, hlast, List.map_append, List.nodup_append] at hnodup
  refine hnodup.2.2 g'.streamId ?_ g.streamId (List.mem_singleton.2 rfl) (hgid.trans hid)
  rw [opens_append, List.map_append]
  exact List.mem_append_left _ (List.mem_map_of_mem hg')

/-- A step that makes no stream. -/
theorem Settled.keeps (h : Settled x)
    (hk : Mux.Keeps x.server.srv.mux x'.server.srv.mux)
    (hlen : x'.server.srv.mux.objs.length = x.server.srv.mux.objs.length)
    (hrun : x'.server.srv.running.Sublist x'.started)
    (hret : ∀ r, Returned x r → Returned x' r)
    (hlatest : ∀ g ∈ pending x'.server.srv.loop, g.kind = .kindOpen ∧ ∃ l, x'.taken = l ++ [g])
    (hrel : ∀ r ∈ x'.server.released, r ∉ x.server.released → ∀ s,
      x'.server.srv.mux.objs[r]? = some s → s.ended = true ∨ Returned x' r)
    (htaken : ∀ f ∈ x'.taken, f ∉ x.taken → f.kind = .kindRst → ∀ r s,
      x.server.srv.mux.objs[r]? = some s → s.id = f.streamId → r ∈ x'.server.released) :
    Settled x' := by
  have hkept : ∀ (r : Ref) (s s' : Stream), x.server.srv.mux.objs[r]? = some s →
      x'.server.srv.mux.objs[r]? = some s' → (s.ended = true ∨ Returned x r) →
        s'.ended = true ∨ Returned x' r := by
    intro r s s' hs hs' hold
    obtain ⟨t, ht, -, hend, -⟩ := hk r s hs
    obtain rfl : t = s' := Option.some.inj (ht.symm.trans hs')
    exact hold.imp hend (hret r)
  have hreleased : ∀ r ∈ x'.server.released, ∀ s, x'.server.srv.mux.objs[r]? = some s →
      s.ended = true ∨ Returned x' r := by
    intro r hr s' hs'
    by_cases hold : r ∈ x.server.released
    · obtain ⟨s, hs, -⟩ := hk.back hlen hs'
      exact hkept r s s' hs hs' (h.released r hold s hs)
    · exact hrel r hr hold s' hs'
  refine ⟨hrun, hlatest, hreleased, ?_⟩
  intro f hf hrst r s' hs' hid
  obtain ⟨s, hs, hid'⟩ := hk.back hlen hs'
  by_cases hold : f ∈ x.taken
  · exact hkept r s s' hs hs' (h.resets f hold hrst r s hs (hid'.symm.trans hid))
  · exact hreleased r (htaken f hf hold hrst r s hs (hid'.symm.trans hid)) s' hs'

/-- A stream that leaves the registry has ended. -/
theorem ended_of_leaver {y : Server} {f : Frame} {r : Ref} {s : Stream}
    (h : Server.leaver y.mux f = some r) (hs : (y.takeFrame f).mux.objs[r]? = some s) :
    s.ended = true := by
  unfold Server.leaver at h
  unfold Server.takeFrame at hs
  split_ifs at h with hopen
  rw [if_neg hopen] at hs
  obtain ⟨⟨q, t⟩, hfind, h⟩ := Option.bind_eq_some_iff.1 h
  split_ifs at h with hleave
  obtain rfl : q = r := Option.some.inj h
  have hq := (Mux.find_eq_some.1 hfind).2
  have hget : ∀ t', (y.mux.setObj q t').objs[q]? = some t' := by
    intro t'
    exact List.getElem?_set_self (List.getElem?_eq_some_iff.1 hq).1
  cases hon : t.onFrame y.mux.server f with
  | kept t' =>
      rw [hon] at hleave
      cases hleave
  | removed t' =>
      simp only [hfind, hon, hget] at hs
      obtain rfl := Option.some.inj hs
      exact Stream.onFrame_ended (.inl hon)
  | overflowed t' =>
      simp only [hfind, hon, Mux.writeCtrl_objs, hget] at hs
      obtain rfl := Option.some.inj hs
      exact Stream.onFrame_ended (.inr hon)

/-- The stream registered under the id of an RST leaves. -/
theorem leaver_of_rst {m : Mux} {f : Frame} {r : Ref} {s : Stream} (hrst : f.kind = .kindRst)
    (hreg : m.streams.lookup f.streamId = some r) (hs : m.objs[r]? = some s) :
    Server.leaver m f = some r := by
  unfold Server.leaver
  rw [if_neg (by rw [hrst]; decide), Mux.find_eq_some.2 ⟨hreg, hs⟩, Option.bind_some]
  have hon : s.onFrame m.server f = .removed (s.signalEnd f) := by
    unfold Stream.onFrame
    rw [hrst]
  rw [hon]
  rfl

theorem Settled.deliver (hi : Dispatch.Inv size N x) (h : Settled x) {f : Frame} {y : Traced}
    (hy : x.server.step (.frame f) = some y) :
    Settled { x with server := y, taken := x.taken ++ [f] } := by
  simp only [Traced.step, permitted, if_true] at hy
  obtain ⟨srv, hsrv, rfl⟩ := Option.map_eq_some_iff.1 hy
  simp only [Server.step] at hsrv
  split_ifs at hsrv with hread
  cases hsrv
  obtain ⟨-, hrun, -, hk, hlen, hloop⟩ := Server.takeFrame_spec x.server.srv f
  refine h.keeps hk hlen ?_ ?_ ?_ ?_ ?_
  · show (x.server.srv.takeFrame f).running.Sublist x.started
    rw [hrun]
    exact h.running
  · rintro r ⟨hstart, hnot⟩
    exact ⟨hstart, fun hmem => hnot (hrun ▸ hmem)⟩
  · intro g hg
    have hg' : g ∈ pending (x.server.srv.takeFrame f).loop := hg
    rw [hloop] at hg'
    split_ifs at hg' with hopen
    · rw [List.mem_singleton.1 hg']
      exact ⟨hopen.1, x.taken, rfl⟩
    · cases hg'
    · rw [hread] at hg'
      cases hg'
  · intro r hr hold s hs
    rcases List.mem_append.1 hr with hr | hr
    · exact absurd hr hold
    · exact .inl (ended_of_leaver (Option.mem_toList.1 hr) hs)
  · intro g hg hold hrst r s hs hid
    have hgf : g = f := by
      rcases List.mem_append.1 hg with hg | hg
      · exact absurd hg hold
      · exact List.mem_singleton.1 hg
    subst hgf
    by_cases hrel : r ∈ x.server.released
    · exact List.mem_append_left _ hrel
    · refine List.mem_append_right _ (Option.mem_toList.2 (leaver_of_rst hrst ?_ hs))
      exact hid ▸ hi.server.owns.registered r s hs hrel

/-- A stream that is registered has not been reset. -/
theorem Settled.register (hi : Dispatch.Inv size N x) (h : Settled x) {f : Frame}
    (hloop : x.server.srv.loop = .register f) {srv : Server}
    (hmux : srv.mux = (x.server.srv.mux.register f).1) (hrun : srv.running = x.server.srv.running)
    (hpc : pending srv.loop = []) : Settled { x with server := { x.server with srv := srv } } := by
  have hobjs : ∀ (r : Ref) (s : Stream), srv.mux.objs[r]? = some s →
      x.server.srv.mux.objs[r]? = some s ∨
        r = x.server.srv.mux.objs.length ∧ s.id = f.streamId := by
    intro r s hs
    rw [hmux, Mux.register, List.getElem?_append] at hs
    split_ifs at hs with hlt
    · exact .inl hs
    · obtain ⟨hzero, rfl⟩ := List.getElem?_eq_some_iff.1 hs
      refine .inr ⟨?_, by simp [newStream]⟩
      exact le_antisymm (Nat.sub_eq_zero_iff_le.1 (Nat.lt_one_iff.1 hzero)) (not_lt.1 hlt)
  have hret : ∀ r, Returned x r → Returned { x with server := { x.server with srv := srv } } r :=
    fun r hr => ⟨hr.1, fun hmem => hr.2 (hrun ▸ hmem)⟩
  refine ⟨?_, ?_, ?_, ?_⟩
  · show srv.running.Sublist x.started
    rw [hrun]
    exact h.running
  · intro g hg
    rw [hpc] at hg
    cases hg
  · intro r hr s hs
    rcases hobjs r s hs with hs | ⟨rfl, -⟩
    · exact (h.released r hr s hs).imp_right (hret r)
    · exact absurd (hi.server.bound _ (List.mem_append_left _ hr)) (lt_irrefl _)
  · intro g hg hrst r s hs hid
    rcases hobjs r s hs with hs | ⟨-, hnew⟩
    · exact (h.resets g hg hrst r s hs hid).imp_right (hret r)
    · refine absurd (hid.symm.trans hnew) (not_reset_of_pending hi h ?_ hg hrst)
      rw [hloop]
      exact List.mem_singleton.2 rfl

theorem Settled.loop (hi : Dispatch.Inv size N x) (h : Settled x) {y : Traced}
    (hy : x.server.step .loop = some y) :
    Settled { x with server := y, started := x.started ++ starting x.server.srv.loop } := by
  simp only [Traced.step, permitted, if_true, releases, endsOf, List.append_nil] at hy
  obtain ⟨srv, hsrv, rfl⟩ := Option.map_eq_some_iff.1 hy
  simp only [Server.step, Server.loopStep] at hsrv
  cases hl : x.server.srv.loop with
  | read => simp [hl] at hsrv
  | exited => simp [hl] at hsrv
  | capCheck f =>
      simp only [hl] at hsrv
      simp only [starting, List.append_nil]
      split_ifs at hsrv
      · cases hsrv
        refine h.keeps (Mux.keeps_of_objs (Mux.writeCtrl_objs _ _)) ?_ h.running (fun _ hr => hr)
          ?_ (fun r hr hold => absurd hr hold) (fun f hf hold => absurd hf hold)
        · show (Mux.writeCtrl _ _).objs.length = _
          rw [Mux.writeCtrl_objs]
        · intro g hg
          cases hg
      · cases hsrv
        refine h.keeps (Mux.keeps_of_objs rfl) rfl h.running (fun _ hr => hr) ?_
          (fun r hr hold => absurd hr hold) (fun f hf hold => absurd hf hold)
        intro g hg
        exact h.latest g (by rw [hl]; exact hg)
  | register f =>
      simp only [hl] at hsrv
      cases hsrv
      simp only [starting, List.append_nil]
      exact h.register hi hl rfl rfl rfl
  | onOpen r =>
      simp only [hl] at hsrv
      cases hsrv
      have hnodup : (x.started ++ [r]).Nodup := by
        have hst := hi.started
        rw [hl] at hst
        exact hst ▸ List.nodup_range
      refine h.keeps (Mux.keeps_of_objs rfl) rfl (h.running.append (List.Sublist.refl _)) ?_ ?_
        (fun r hr hold => absurd hr hold) (fun f hf hold => absurd hf hold)
      · rintro q ⟨hstart, hnot⟩
        refine ⟨List.mem_append_left _ hstart, ?_⟩
        intro hmem
        rcases List.mem_append.1 hmem with hmem | hmem
        · exact hnot hmem
        · exact (List.nodup_append.1 hnodup).2.2 q hstart r (List.mem_singleton.2 rfl)
            (List.mem_singleton.1 hmem)
      · intro g hg
        cases hg
  | remove id =>
      simp only [hl] at hsrv
      cases hsrv
      simp only [starting, List.append_nil]
      refine h.keeps (Mux.keeps_of_objs rfl) rfl h.running (fun _ hr => hr) ?_
        (fun r hr hold => absurd hr hold) (fun f hf hold => absurd hf hold)
      intro g hg
      cases hg

/-- The other steps of the server: a stream is released by the loss of the connection, which
ends it, and by the return of its handler. -/
theorem Settled.quiet (hi : Dispatch.Inv size N x) (h : Settled x) {a : Handlers.Act}
    (ha : Quiet a = true) {y : Traced} (hy : x.server.step a = some y) :
    Settled { x with server := y } := by
  unfold Traced.step at hy
  split_ifs at hy
  obtain ⟨srv, hsrv, rfl⟩ := Option.map_eq_some_iff.1 hy
  obtain ⟨-, -, -, -, hlen⟩ := asked_of_quiet ha hsrv
  cases a with
  | frame f => cases ha
  | loop => cases ha
  | connLost =>
      simp only [Server.step] at hsrv
      split_ifs at hsrv
      cases hsrv
      refine h.keeps (Mux.keeps_failAll _ _) hlen h.running (fun _ hr => hr) ?_ ?_
        (fun f hf hold => absurd hf hold)
      · intro g hg
        cases hg
      · intro r _ hold s' hs'
        obtain ⟨s, hs, -⟩ := (Mux.keeps_failAll _ _).back hlen hs'
        obtain ⟨t, ht, -, -, -, hend⟩ := Mux.failAll_objs _ x.server.srv.mux.disconnectErr hs
        obtain rfl : t = s' := Option.some.inj (ht.symm.trans hs')
        exact .inl (hend ⟨_, hi.server.owns.registered r s hs hold⟩)
  | op r o =>
      obtain ⟨s, hs, rfl⟩ := Option.map_eq_some_iff.1 hsrv
      refine h.keeps (Mux.keeps_op hs o) hlen h.running (fun _ hr => hr) h.latest ?_
        (fun f hf hold => absurd hf hold)
      intro r hr hold
      rw [releases, List.append_nil] at hr
      exact absurd hr hold
  | callEnd r st =>
      obtain ⟨s, hs, rfl⟩ := Option.map_eq_some_iff.1 hsrv
      refine h.keeps (Mux.keeps_failWith hs _) hlen h.running (fun _ hr => hr) h.latest ?_
        (fun f hf hold => absurd hf hold)
      intro r hr hold
      rw [releases, List.append_nil] at hr
      exact absurd hr hold
  | ret r =>
      simp only [Server.step] at hsrv
      split_ifs at hsrv with hrun
      obtain ⟨s, hs, rfl⟩ := Option.map_eq_some_iff.1 hsrv
      have hnodup : x.server.srv.running.Nodup := by
        have hst := hi.started ▸ List.nodup_range (n := x.server.srv.mux.objs.length)
        exact (List.nodup_append.1 hst).1.sublist h.running
      refine h.keeps (Mux.keeps_of_objs rfl) rfl (List.erase_sublist.trans h.running) ?_ h.latest
        ?_ (fun f hf hold => absurd hf hold)
      · rintro q ⟨hstart, hnot⟩
        exact ⟨hstart, fun hmem => hnot (List.mem_of_mem_erase hmem)⟩
      · intro q hq hold t ht
        obtain rfl : q = r := by
          rcases List.mem_append.1 hq with hq | hq
          · exact absurd hq hold
          · exact List.mem_singleton.1 hq
        exact .inr ⟨h.running.subset hrun, hnodup.not_mem_erase⟩

end Server

/-! ## Every run -/

variable {size : Frame → ℕ} {N : ℤ} {x y : Link}

structure Inv (size : Frame → ℕ) (N : ℤ) (x : Link) : Prop where
  conn : Dispatch.Inv size N x.conn
  accounted : Accounted x.conn.client x.heard
  settled : Settled x.conn

theorem Inv.step (h : Inv size N x) {e : Event} (hs : x.step size e = some y) : Inv size N y := by
  obtain ⟨conn, hconn, rfl⟩ := Option.map_eq_some_iff.1 hs
  refine ⟨h.conn.step hconn, ?_, ?_⟩
  · cases e with
    | client a =>
        obtain ⟨c, hc, rfl⟩ := Option.map_eq_some_iff.1 hconn
        exact h.accounted.step h.conn.client hc
    | deliver =>
        obtain ⟨f, -, hconn⟩ := Option.bind_eq_some_iff.1 hconn
        obtain ⟨server, -, rfl⟩ := Option.map_eq_some_iff.1 hconn
        rw [hears, List.append_nil]
        exact h.accounted
    | loop =>
        obtain ⟨server, -, rfl⟩ := Option.map_eq_some_iff.1 hconn
        rw [hears, List.append_nil]
        exact h.accounted
    | server a =>
        simp only [Conn.step] at hconn
        split_ifs at hconn
        obtain ⟨server, -, rfl⟩ := Option.map_eq_some_iff.1 hconn
        rw [hears, List.append_nil]
        exact h.accounted
  · cases e with
    | client a =>
        obtain ⟨c, -, rfl⟩ := Option.map_eq_some_iff.1 hconn
        exact ⟨h.settled.running, h.settled.latest, h.settled.released, h.settled.resets⟩
    | deliver =>
        obtain ⟨f, -, hconn⟩ := Option.bind_eq_some_iff.1 hconn
        obtain ⟨server, hserver, rfl⟩ := Option.map_eq_some_iff.1 hconn
        exact h.settled.deliver h.conn hserver
    | loop =>
        obtain ⟨server, hserver, rfl⟩ := Option.map_eq_some_iff.1 hconn
        exact h.settled.loop h.conn hserver
    | server a =>
        simp only [Conn.step] at hconn
        split_ifs at hconn with ha
        obtain ⟨server, hserver, rfl⟩ := Option.map_eq_some_iff.1 hconn
        exact h.settled.quiet h.conn ha hserver

theorem accounted_start (W B F : ℤ) (ready : Bool) (got : Option Text) :
    Accounted (Ts.Ledger.Session.start W B F ready got) [] := by
  intro r s hs
  have hnil : (Ts.Ledger.Session.start W B F ready got).mux.objs = [] := by
    unfold Ts.Ledger.Session.start Ts.Mux.new
    dsimp only
    split
    · split <;> rfl
    · rfl
  rw [hnil] at hs
  cases hs

theorem inv_start (size : Frame → ℕ) (W B F : ℤ) (ready : Bool) (got : Option Text) (W' N : ℤ) :
    Inv size N (Link.start W B F ready got W' N) where
  conn := Dispatch.inv_start size W B F ready got W' N
  accounted := accounted_start W B F ready got
  settled :=
    { running := List.Sublist.refl _
      latest := fun g hg => by cases hg
      released := fun r hr => by cases hr
      resets := fun f hf => by cases hf }

/-- What becomes of the calls a client gives up. -/
structure Released (x : Link) : Prop where
  /-- A stream of a live client that has finished has written an RST, or the client was told. -/
  client : x.conn.client.mux.defunct = false → ∀ (q : Ref) (t : Ts.StreamImpl),
    x.conn.client.mux.objs[q]? = some t → t.finished = true →
      t.id ∈ x.heard ∨ Kind.kindRst ∈ kindsFor t.id x.conn.client.accepted
  /-- An RST the read loop has taken has ended its stream, or the handler had returned. -/
  server : ∀ f ∈ x.conn.taken, f.kind = .kindRst → ∀ (r : Ref) (s : Stream),
    x.conn.server.srv.mux.objs[r]? = some s → s.id = f.streamId →
      s.ended = true ∨ Returned x.conn r
  /-- Once every frame of a live client has been taken, a handler that runs on a stream that
  has not ended works for a call the client has not given up. -/
  orphans : x.conn.client.mux.defunct = false → x.conn.taken = x.conn.client.accepted →
    ∀ r ∈ x.conn.server.srv.running, ∀ s, x.conn.server.srv.mux.objs[r]? = some s →
      s.ended = false → ∃ (q : Ref) (t : Ts.StreamImpl),
        x.conn.client.mux.objs[q]? = some t ∧ t.id = s.id ∧
          (t.finished = false ∨ t.id ∈ x.heard)

/-- **No handler works for a call that was given up**, in every interleaving of the client's
calls, cancellations, deadlines and socket events with the steps of the server. -/
theorem no_orphans (size : Frame → ℕ) (W B F : ℤ) (ready : Bool) (got : Option Text) (W' N : ℤ)
    (h : Reach (Link.step size) Always (Link.start W B F ready got W' N) x) : Released x := by
  have hi : Inv size N x :=
    h.invariant (inv_start size W B F ready got W' N) fun _ _ _ hi _ hs => hi.step hs
  have hclient : x.conn.client.mux.defunct = false → ∀ (q : Ref) (t : Ts.StreamImpl),
      x.conn.client.mux.objs[q]? = some t → t.finished = true →
        t.id ∈ x.heard ∨ Kind.kindRst ∈ kindsFor t.id x.conn.client.accepted := by
    intro hlive q t ht hfin
    refine (hi.accounted q t ht hfin).resolve_left ?_
    rw [hlive]
    decide
  refine ⟨hclient, hi.settled.resets, ?_⟩
  intro hlive hdone r hr s hs hend
  -- the call of the stream is one of the client's
  have hcall : callOf s ∈ (opens x.conn.taken).map request :=
    hi.conn.asked.subset (List.mem_append_left _ (List.mem_map_of_mem (List.mem_of_getElem? hs)))
  obtain ⟨g, hg, hgcall⟩ := List.mem_map.1 hcall
  have hgid : g.streamId = s.id := congrArg Prod.fst hgcall
  obtain ⟨q, t, ht, hid⟩ :=
    exists_stream hi.conn.client (hi.conn.taken.subset (List.mem_of_mem_filter hg))
  refine ⟨q, t, ht, hid.trans hgid, ?_⟩
  by_contra hgone
  obtain ⟨hfin, hheard⟩ := not_or.1 hgone
  rcases hclient hlive q t ht (Bool.not_eq_false _ ▸ hfin) with htold | hrst
  · exact hheard htold
  · -- its RST has been taken, so the stream has ended
    obtain ⟨f, hf, hfid, hkind⟩ := mem_kindsFor.1 hrst
    rw [← hdone] at hf
    rcases hi.settled.resets f hf hkind r s hs (by rw [hfid, hid, hgid]) with hended | hret
    · rw [hend] at hended
      cases hended
    · exact hret.2 hr

/-- Of two calls the client cancels the first: both handlers run, and the first one's stream
has ended. -/
theorem no_orphans_cancelled :
    ∃ x, Reach (Link.step fun _ => 1) Always (Link.start 0 0 0 true none 0 0) x ∧
      x.conn.server.srv.running = [0, 1] ∧
      x.conn.server.srv.mux.objs.map Stream.ended = [true, false] ∧ Released x := by
  obtain ⟨x, hx, hp⟩ := exists_reach_of_exec (Link.step fun _ => 1) Always
    (Link.start 0 0 0 true none 0 0)
    (fun x : Link => decide (x.conn.server.srv.running = [0, 1] ∧
      x.conn.server.srv.mux.objs.map Stream.ended = [true, false]))
    [.client (.openStream .empty ∅ none), .client (.openStream .empty ∅ none),
      .client (.abort 0 none), .deliver, .loop, .loop, .loop, .deliver, .loop, .loop, .loop,
      .deliver, .loop] (by decide)
  simp only [decide_eq_true_eq] at hp
  exact ⟨x, hx, hp.1, hp.2, no_orphans (fun _ => 1) 0 0 0 true none 0 0 hx⟩

end WsProto.Agree.Cancellation
