import WsProto.Go.Ownership
import WsProto.Ts.WireGrammar

/-!
# The calls of a TypeScript client on a Go server

A TypeScript mux with any number of streams, the socket, and a Go server with its read loop
and its handlers.  The client may be called, and may receive, anything at any time; the read
loop takes the frames that were sent, in order, and stops between its critical sections,
where handlers work and return.

A server has to cope with clients that use an id twice: it answers the second OPEN with an
RST, and if the first stream was reset meanwhile its handler and the second one share an id.
A TypeScript client is not one of them.

* `call_run`, `call_onFrame` — a stream keeps the id, the method and the headers of its OPEN;
* `asked_frame`, `asked_loop`, `asked_of_quiet` — what a step of the server does to the list
  of the calls it has been asked for;
* `dispatched` — the server's streams are the calls of the client, in their order and once
  each, every one with its own handler, and none has to share its id.
-/

namespace WsProto.Agree.Dispatch

open Machine Go Go.Handlers Go.Ownership

/-! ## The system -/

/-- The two ends.  The socket delivers in order. -/
structure Conn where
  client : Ts.Ledger.Session
  server : Traced
  /-- The frames the read loop has taken. -/
  taken : List Frame := []
  /-- Ghost: the streams whose handlers have been started. -/
  started : List Ref := []

inductive Event where
  /-- A call or a socket event of the client, with any frame that may arrive there. -/
  | client (a : Ts.Ledger.Act)
  /-- The read loop takes the next frame. -/
  | deliver
  /-- The read loop goes on inside `route`. -/
  | loop
  /-- A handler works, ends its stream or returns, or the connection is lost. -/
  | server (a : Handlers.Act)

/-- The stream whose handler the read loop is about to start. -/
def starting : Handlers.LoopPc → List Ref
  | .onOpen r => [r]
  | _ => []

/-- The steps of the server beside those of its read loop. -/
def Quiet : Handlers.Act → Bool
  | .frame _ | .loop => false
  | .connLost | .op _ _ | .callEnd _ _ | .ret _ => true

namespace Conn

variable (size : Frame → ℕ)

def step (x : Conn) : Event → Option Conn
  | .client a => (x.client.step size a).map fun client => { x with client }
  | .deliver =>
      (x.client.mux.sent[x.taken.length]?).bind fun f =>
        (x.server.step (.frame f)).map fun server => { x with server, taken := x.taken ++ [f] }
  | .loop =>
      (x.server.step .loop).map fun server =>
        { x with server, started := x.started ++ starting x.server.srv.loop }
  | .server a => if Quiet a then (x.server.step a).map fun server => { x with server } else none

/-- A client over a socket that is or is not open yet, and a server with window `W'` and
cap `N`. -/
def start (W B F : ℤ) (ready : Bool) (got : Option Text) (W' N : ℤ) : Conn :=
  { client := .start W B F ready got, server := .start W' N }

end Conn

/-! ## A stream is its call -/

/-- What a call is: its id, its method, its headers. -/
abbrev Call := UInt32 × Text × Option Headers

/-- The call a stream serves. -/
def callOf (s : Stream) : Call := (s.id, s.method, s.header)

/-- The call an OPEN asks for. -/
def request (f : Frame) : Call := (f.streamId, f.method, f.headers)

def opens (l : List Frame) : List Frame := l.filter fun f => f.kind = .kindOpen

/-- The OPEN that has passed the first check and has no stream yet. -/
def pending : Handlers.LoopPc → List Frame
  | .capCheck f | .register f => [f]
  | _ => []

/-- The calls the server has streams for, and the one it is about to have. -/
def asked (x : Server) : List Call := x.mux.objs.map callOf ++ (pending x.loop).map request

theorem call_run (o : StreamOp) (s : Stream) : callOf (o.run s).1 = callOf s := by
  cases o with
  | sendHeader md =>
      simp only [StreamOp.run, Stream.sendHeader]
      split_ifs <;> rfl
  | setTrailer md =>
      simp only [StreamOp.run, Stream.setTrailer]
      split_ifs <;> rfl
  | sendRaw b =>
      simp only [StreamOp.run, Stream.sendRaw]
      split_ifs
      · rfl
      · cases s.sendBlockErrLocked <;> rfl
  | closeSend =>
      simp only [StreamOp.run, Stream.closeSend]
      split_ifs <;> rfl
  | popRecv =>
      simp only [StreamOp.run, Stream.popRecv]
      cases s.recvItems <;> rfl
  | returnCredit n =>
      obtain ⟨p, hp⟩ := s.returnCredit_fst n
      simp only [StreamOp.run, hp]
      rfl
  | applyEnd f => rfl
  | closeResponse => rfl
  | expire e => rfl

/-- A server never takes headers from a frame behind the OPEN. -/
theorem call_onFrame (s : Stream) (f : Frame) : callOf (s.onFrame true f).stream = callOf s := by
  have h := s.onFrame_fixed true f
  rw [callOf, h.id, h.method, h.header rfl]
  rfl

section Server

variable {m : Mux} {x x' : Server} {r : Ref} {s s' : Stream} {f : Frame}

theorem calls_setObj (hs : m.objs[r]? = some s) (hc : callOf s' = callOf s) :
    (m.setObj r s').objs.map callOf = m.objs.map callOf := by
  obtain ⟨hlt, hget⟩ := List.getElem?_eq_some_iff.1 hs
  rw [Mux.setObj, List.map_set, hc, ← hget, ← List.getElem_map callOf (h := by simpa using hlt),
    List.set_getElem_self]

theorem calls_failAll (m : Mux) (err : GoError) :
    (m.failAll err).objs.map callOf = m.objs.map callOf := by
  refine List.ext_getElem? fun r => ?_
  rw [List.getElem?_map, List.getElem?_map]
  cases hs : m.objs[r]? with
  | none =>
      have hle := List.getElem?_eq_none_iff.1 hs
      rw [← m.length_failAll err] at hle
      rw [List.getElem?_eq_none hle]
  | some s =>
      obtain ⟨t, ht, hc, -⟩ := Visit.exists_foldl_modify (g := (·.failWith (some err)))
        (P := fun t => callOf t = callOf s) (Q := fun _ => True) (fun t ht => ht) (fun _ => trivial)
        m.streams.entries hs rfl
      show Option.map callOf (m.streams.entries.foldl _ m.objs)[r]? = _
      rw [ht]
      exact congrArg some hc

/-! ## What a step of the server does to the calls -/

/-- The read loop takes a frame: only an OPEN whose id is free asks for something. -/
theorem asked_frame (hside : x.mux.server = true) (hread : x.loop = .read) (f : Frame) :
    asked (x.takeFrame f) =
        asked x ++ (if f.kind = .kindOpen ∧ x.mux.dupOpen f = false then [request f] else []) ∧
      (x.takeFrame f).mux.server = true ∧ starting (x.takeFrame f).loop = [] := by
  unfold asked Server.takeFrame
  rw [hread]
  by_cases hopen : f.kind = .kindOpen
  · by_cases hdup : x.mux.dupOpen f = true
    · simp [hopen, hdup, hside, pending, starting]
    · simp [hopen, hdup, hside, pending, starting]
  · rw [if_neg hopen]
    simp only [hopen, false_and, if_false, List.append_nil, hside]
    cases hfind : x.mux.find f.streamId with
    | none => simp [hread, hside, pending, starting]
    | some y =>
        obtain ⟨r, s⟩ := y
        have hcalls := calls_setObj (Mux.find_eq_some.1 hfind).2 (call_onFrame s f)
        cases hon : s.onFrame true f with
        | kept s' =>
            rw [hon] at hcalls
            simp only [hon]
            exact ⟨congrArg (· ++ _) hcalls, hside, rfl⟩
        | removed s' =>
            rw [hon] at hcalls
            simp only [hon]
            exact ⟨congrArg (· ++ _) hcalls, hside, rfl⟩
        | overflowed s' =>
            rw [hon] at hcalls
            simp only [hon, Mux.writeCtrl_objs, Mux.writeCtrl_server]
            exact ⟨congrArg (· ++ _) hcalls, hside, rfl⟩

/-- The read loop goes on: the cap may reject the call, and the stream of a call that is
accepted gets its handler. -/
theorem asked_loop (h : x.loopStep = some x') :
    (asked x' = asked x ∨ (x.mux.overCap = true ∧ asked x' = x.mux.objs.map callOf)) ∧
      x'.mux.server = x.mux.server ∧ x'.mux.maxStreams = x.mux.maxStreams ∧
      (∀ l, l ++ starting x.loop = List.range x.mux.objs.length →
        l ++ starting x.loop ++ starting x'.loop = List.range x'.mux.objs.length) := by
  unfold Server.loopStep at h
  cases hl : x.loop with
  | read => simp [hl] at h
  | exited => simp [hl] at h
  | capCheck f =>
      simp only [hl] at h
      split_ifs at h with hcap
      · cases h
        refine ⟨.inr ⟨hcap, ?_⟩, ?_, ?_, fun l hl' => ?_⟩
        · simp [asked, pending]
        · simp
        · simp
        · simpa [starting] using hl'
      · cases h
        refine ⟨.inl ?_, rfl, rfl, fun l hl' => ?_⟩
        · simp [asked, pending, hl]
        · simpa [starting] using hl'
  | register f =>
      simp only [hl] at h
      cases h
      refine ⟨.inl ?_, rfl, rfl, fun l hl' => ?_⟩
      · simp [asked, pending, hl, Mux.register, callOf, request, newStream]
      · have hl'' : l = List.range x.mux.objs.length := by simpa [starting] using hl'
        simp [starting, Mux.register, hl'', List.range_succ]
  | onOpen r =>
      simp only [hl] at h
      cases h
      refine ⟨.inl ?_, rfl, rfl, fun l hl' => ?_⟩
      · simp [asked, pending, hl]
      · simpa [starting] using hl'
  | remove id =>
      simp only [hl] at h
      cases h
      refine ⟨.inl ?_, rfl, rfl, fun l hl' => ?_⟩
      · simp [asked, pending, hl, Mux.remove]
      · simpa [starting, Mux.remove] using hl'

/-- The other steps make no streams, and leave the calls of those there are alone. -/
theorem asked_of_quiet {a : Handlers.Act} (ha : Quiet a = true) (h : x.step a = some x') :
    asked x' = asked x ∧ x'.mux.server = x.mux.server ∧ x'.mux.maxStreams = x.mux.maxStreams ∧
      starting x'.loop = starting x.loop ∧ x'.mux.objs.length = x.mux.objs.length := by
  cases a with
  | frame f => cases ha
  | loop => cases ha
  | connLost =>
      simp only [Server.step] at h
      split_ifs at h with hread
      cases h
      refine ⟨?_, rfl, rfl, by rw [hread]; rfl, x.mux.length_failAll _⟩
      simp [asked, calls_failAll, hread, pending]
  | op r o =>
      obtain ⟨s, hs, rfl⟩ := Option.map_eq_some_iff.1 h
      exact ⟨congrArg (· ++ _) (calls_setObj hs (call_run o s)), rfl, rfl, rfl,
        by simp [Mux.setObj]⟩
  | callEnd r st =>
      obtain ⟨s, hs, rfl⟩ := Option.map_eq_some_iff.1 h
      exact ⟨congrArg (· ++ _) (calls_setObj hs rfl), rfl, rfl, rfl, by simp [Mux.setObj]⟩
  | ret r =>
      simp only [Server.step] at h
      split_ifs at h
      obtain ⟨s, hs, rfl⟩ := Option.map_eq_some_iff.1 h
      exact ⟨rfl, rfl, rfl, rfl, rfl⟩

end Server

/-! ## The invariant -/

variable {size : Frame → ℕ} {N : ℤ} {x x' : Conn}

structure Inv (size : Frame → ℕ) (N : ℤ) (x : Conn) : Prop where
  client : Ts.WireGrammar.Grammatical size x.client
  server : Ownership.Inv x.server
  side : x.server.srv.mux.server = true
  cap : x.server.srv.mux.maxStreams = N
  taken : x.taken <+: x.client.accepted
  /-- The calls the server was asked for are OPENs it has taken, in order. -/
  asked : (asked x.server.srv).Sublist ((opens x.taken).map request)
  all : N ≤ 0 → Dispatch.asked x.server.srv = (opens x.taken).map request
  started : x.started ++ starting x.server.srv.loop = List.range x.server.srv.mux.objs.length

theorem opens_append (l l' : List Frame) : opens (l ++ l') = opens l ++ opens l' :=
  List.filter_append _ _

/-- No two OPENs of the client have the same id. -/
theorem nodup_opens {c : Ts.Ledger.Session} (hc : Ts.WireGrammar.Grammatical size c)
    {l : List Frame} (hl : l <+: c.accepted) : ((opens l).map Frame.streamId).Nodup := by
  have hacc : ((opens c.accepted).map Frame.streamId).Nodup := by
    refine List.Nodup.of_map UInt32.toNat ?_
    rw [List.map_map]
    exact hc.opens.1.imp fun hlt => hlt.ne
  exact hacc.sublist ((hl.filter _).sublist.map _)

/-- So no two of the calls the server was asked for do. -/
theorem Inv.nodup_asked (h : Inv size N x) :
    ((Dispatch.asked x.server.srv).map Prod.fst).Nodup := by
  refine (nodup_opens h.client h.taken).sublist ?_
  have hsub := h.asked.map Prod.fst
  rw [List.map_map] at hsub
  exact hsub

theorem Inv.taken_next (h : Inv size N x) {f : Frame}
    (hf : x.client.mux.sent[x.taken.length]? = some f) : x.taken ++ [f] <+: x.client.accepted :=
  (h.client.next h.taken hf).trans h.client.sound.books.part

/-- **An OPEN of the client finds its id free.** -/
theorem Inv.not_dupOpen (h : Inv size N x) {f : Frame}
    (hf : x.client.mux.sent[x.taken.length]? = some f) (hopen : f.kind = .kindOpen) :
    x.server.srv.mux.dupOpen f = false := by
  by_contra hne
  obtain ⟨r, hr⟩ := Option.isSome_iff_exists.1 (Bool.not_eq_false _ ▸ hne)
  obtain ⟨s, hs, hid⟩ := h.server.named _ r hr
  have hmem : callOf s ∈ (opens x.taken).map request :=
    h.asked.subset (List.mem_append_left _ (List.mem_map_of_mem (List.mem_of_getElem? hs)))
  obtain ⟨g, hg, hcall⟩ := List.mem_map.1 hmem
  have hnodup := nodup_opens h.client (h.taken_next hf)
  have hlast : opens [f] = [f] := by simp [opens, hopen]
  rw [opens_append, hlast, List.map_append, List.nodup_append] at hnodup
  refine hnodup.2.2 g.streamId (List.mem_map_of_mem hg) f.streamId (List.mem_singleton.2 rfl) ?_
  have hgid : g.streamId = s.id := congrArg Prod.fst hcall
  rw [hgid, hid]

/-- **An id is registered once**, so that no handler has to share it. -/
theorem Inv.fresh (h : Inv size N x) : Fresh x.server .loop := by
  intro f hreg r _ s hs hid
  have hl : x.server.srv.loop = .register f := by
    unfold registering at hreg
    split at hreg
    · rename_i g hg
      rw [hg, Option.mem_some_iff.1 hreg]
    · cases hreg
  have hnodup := h.nodup_asked
  rw [Dispatch.asked, hl, List.map_append, List.nodup_append] at hnodup
  refine hnodup.2.2 s.id ?_ f.streamId (by simp [pending, request]) hid
  rw [List.map_map]
  exact List.mem_map_of_mem (List.mem_of_getElem? hs)

theorem srv_of_step {y y' : Traced} {a : Handlers.Act} (h : y.step a = some y') :
    y.srv.step a = some y'.srv := by
  unfold Traced.step at h
  split_ifs at h
  obtain ⟨srv, hsrv, rfl⟩ := Option.map_eq_some_iff.1 h
  exact hsrv

theorem Inv.step (h : Inv size N x) {e : Event} (hs : x.step size e = some x') : Inv size N x' := by
  cases e with
  | client a =>
      obtain ⟨c, hc, rfl⟩ := Option.map_eq_some_iff.1 hs
      refine { h with client := h.client.step hc, taken := h.taken.trans ?_ }
      obtain ⟨y, -, rfl⟩ := Option.map_eq_some_iff.1 hc
      exact List.prefix_append _ _
  | deliver =>
      obtain ⟨f, hf, hs⟩ := Option.bind_eq_some_iff.1 hs
      obtain ⟨y, hy, rfl⟩ := Option.map_eq_some_iff.1 hs
      have hsrv := srv_of_step hy
      simp only [Server.step] at hsrv
      split_ifs at hsrv with hread
      have hsrv := Option.some.inj hsrv
      obtain ⟨hasked, hside, hstart⟩ := asked_frame h.side hread f
      obtain ⟨-, -, hcap, -, hlen, -⟩ := Server.takeFrame_spec x.server.srv f
      rw [hsrv] at hasked hside hstart hcap hlen
      have hif : (if f.kind = .kindOpen ∧ x.server.srv.mux.dupOpen f = false then [request f]
          else []) = (opens [f]).map request := by
        by_cases hopen : f.kind = .kindOpen
        · rw [if_pos ⟨hopen, h.not_dupOpen hf hopen⟩]
          simp [opens, hopen]
        · rw [if_neg fun hand => hopen hand.1]
          simp [opens, hopen]
      rw [hif] at hasked
      have hold : starting x.server.srv.loop = [] := by rw [hread]; rfl
      refine ⟨h.client, inv_frame h.server hy, hside, hcap.trans h.cap, h.taken_next hf, ?_, ?_,
        ?_⟩
      · rw [hasked, opens_append, List.map_append]
        exact h.asked.append (List.Sublist.refl _)
      · intro hN
        rw [hasked, opens_append, List.map_append, h.all hN]
      · have hst := h.started
        rw [hold] at hst
        rw [hstart, hlen]
        exact hst
  | loop =>
      obtain ⟨y, hy, rfl⟩ := Option.map_eq_some_iff.1 hs
      obtain ⟨hasked, hside, hcap, hstart⟩ := asked_loop (srv_of_step hy)
      refine ⟨h.client, inv_loop h.server h.fresh hy, hside.trans h.side, hcap.trans h.cap,
        h.taken, ?_, fun hN => ?_, hstart _ h.started⟩
      · rcases hasked with hasked | ⟨-, hasked⟩
        · rw [hasked]
          exact h.asked
        · rw [hasked]
          exact (List.sublist_append_left _ _).trans h.asked
      · rcases hasked with hasked | ⟨hover, -⟩
        · rw [hasked]
          exact h.all hN
        · -- without a cap no call is over it
          have hpos : 0 < x.server.srv.mux.maxStreams := by
            rw [Mux.overCap, Bool.and_eq_true] at hover
            exact of_decide_eq_true hover.1
          rw [h.cap] at hpos
          omega
  | server a =>
      simp only [Conn.step] at hs
      split_ifs at hs with ha
      obtain ⟨y, hy, rfl⟩ := Option.map_eq_some_iff.1 hs
      obtain ⟨hasked, hside, hcap, hstart, hlen⟩ := asked_of_quiet ha (srv_of_step hy)
      have hfresh : Fresh x.server a := by
        cases a with
        | loop => cases ha
        | _ => trivial
      refine ⟨h.client, inv_step h.server hfresh hy, hside.trans h.side, hcap.trans h.cap, h.taken,
        ?_, ?_, ?_⟩
      · rw [hasked]
        exact h.asked
      · rw [hasked]
        exact h.all
      · rw [hstart, hlen]
        exact h.started

/-! ## Every run -/

theorem inv_start (size : Frame → ℕ) (W B F : ℤ) (ready : Bool) (got : Option Text) (W' N : ℤ) :
    Inv size N (Conn.start W B F ready got W' N) where
  client := Ts.WireGrammar.grammatical_start size W B F ready got
  server := Ownership.inv_start W' N
  side := rfl
  cap := rfl
  taken := List.nil_prefix
  asked := List.Sublist.refl _
  all _ := rfl
  started := rfl

theorem word_head {k : Kind} {ks : List Kind} (h : Ts.WireGrammar.Word (k :: ks)) :
    k = .kindOpen := by
  obtain h | ⟨c, w, ⟨body, rfl, -⟩, h | h⟩ := h
  · cases h
  · exact (List.cons.inj h).1
  · exact (List.cons.inj h).1

/-- A frame that is no OPEN has its OPEN before it. -/
theorem Inv.known (h : Inv size N x) {l : List Frame} {f : Frame} (hl : l ++ [f] <+: x.taken)
    (hf : f.kind ≠ .kindOpen) : ∃ g ∈ opens l, g.streamId = f.streamId := by
  have hword : Ts.WireGrammar.Word (Ts.WireGrammar.kindsFor f.streamId (l ++ [f])) :=
    (h.client.word f.streamId).of_initial (((hl.trans h.taken).filter _).map _)
  have hsplit : Ts.WireGrammar.kindsFor f.streamId (l ++ [f]) =
      Ts.WireGrammar.kindsFor f.streamId l ++ [f.kind] := by
    simp [Ts.WireGrammar.kindsFor]
  rw [hsplit] at hword
  cases hks : Ts.WireGrammar.kindsFor f.streamId l with
  | nil =>
      rw [hks] at hword
      exact absurd (word_head hword) hf
  | cons k ks =>
      rw [hks] at hword
      obtain rfl := word_head hword
      have hmem : Kind.kindOpen ∈ Ts.WireGrammar.kindsFor f.streamId l := by
        rw [hks]
        exact List.mem_cons_self
      obtain ⟨g, hg, hkind⟩ := List.mem_map.1 hmem
      obtain ⟨hgl, hid⟩ := List.mem_filter.1 hg
      exact ⟨g, List.mem_filter.2 ⟨hgl, by simpa using hkind⟩, by simpa using hid⟩

/-- What holds between two steps. -/
structure Dispatched (N : ℤ) (x : Conn) : Prop where
  /-- The streams of the server are calls of the client, with the id, the method and the
  headers of their OPENs, each at most once and in their order. -/
  calls : (x.server.srv.mux.objs.map callOf).Sublist ((opens x.taken).map request)
  /-- Without a cap they are all the calls whose OPENs were routed. -/
  all : N ≤ 0 → pending x.server.srv.loop = [] →
    x.server.srv.mux.objs.map callOf = (opens x.taken).map request
  /-- No two streams have one id. -/
  sole : (x.server.srv.mux.objs.map Stream.id).Nodup
  /-- Every stream gets one handler, in their order. -/
  started : x.started ++ starting x.server.srv.loop = List.range x.server.srv.mux.objs.length
  /-- The next OPEN is not a duplicate. -/
  free : ∀ f, x.client.mux.sent[x.taken.length]? = some f → f.kind = .kindOpen →
    x.server.srv.mux.dupOpen f = false
  /-- A stream is registered under its id until it is reset, its handler returns or the
  connection is lost, and every END is that of the stream registered under its id. -/
  owns : Owns x.server
  /-- A frame that is no OPEN has its OPEN before it. -/
  known : ∀ l f, l ++ [f] <+: x.taken → f.kind ≠ .kindOpen → ∃ g ∈ opens l, g.streamId = f.streamId

/-- **A Go server serves the calls of a TypeScript client**, in every interleaving of the
client's calls and socket events, whatever it receives, with the steps of the read loop and
of the handlers. -/
theorem dispatched (size : Frame → ℕ) (W B F : ℤ) (ready : Bool) (got : Option Text) (W' N : ℤ)
    {x : Conn} (h : Reach (Conn.step size) Always (Conn.start W B F ready got W' N) x) :
    Dispatched N x := by
  have hi : Inv size N x :=
    h.invariant (inv_start size W B F ready got W' N) fun _ _ _ hi _ hs => hi.step hs
  refine ⟨?_, fun hN hp => ?_, ?_, hi.started, fun f => hi.not_dupOpen, hi.server.owns,
    fun l f => hi.known⟩
  · exact (List.sublist_append_left _ _).trans hi.asked
  · have hall := hi.all hN
    rw [asked, hp] at hall
    simpa using hall
  · have hnodup := hi.nodup_asked
    rw [asked, List.map_append, List.map_map] at hnodup
    exact (List.nodup_append.1 hnodup).1

/-- Two calls on a server with a cap of one: the second is rejected, and its message finds no
stream. -/
theorem dispatched_capped :
    ∃ x, Reach (Conn.step fun _ => 1) Always (Conn.start 0 0 0 true none 0 1) x ∧
      (opens x.taken).length = 2 ∧ x.taken.length = 3 ∧ x.started = [0] ∧ Dispatched 1 x := by
  obtain ⟨x, hx, hp⟩ := exists_reach_of_exec (Conn.step fun _ => 1) Always
    (Conn.start 0 0 0 true none 0 1)
    (fun x : Conn => decide ((opens x.taken).length = 2 ∧ x.taken.length = 3 ∧ x.started = [0]))
    [.client (.openStream .empty ∅ none), .client (.openStream .empty ∅ none),
      .client (.send 1 [7]), .deliver, .loop, .loop, .loop, .deliver, .loop, .deliver] (by decide)
  simp only [decide_eq_true_eq] at hp
  exact ⟨x, hx, hp.1, hp.2.1, hp.2.2, dispatched (fun _ => 1) 0 0 0 true none 0 1 hx⟩

end WsProto.Agree.Dispatch
