import WsProto.Go.Inbound.FromClient
import WsProto.Ts.HalfClose
import WsProto.Ts.WireGrammar

/-!
# What a TypeScript client sends, and what a Go handler reads

A TypeScript mux with any number of streams, the socket, and on the other side the read loop
of a Go server and the receiver of one of the streams, with its critical sections.  The client
may be called, and may receive, anything at any time.

Each side is known to keep its half of the contract: the client writes HALF_CLOSE behind the
payloads it was given (`WsProto.Ts.HalfClose`), and a Go receive returns `io.EOF` behind the
messages that were routed (`WsProto.Go.Inbound.Complete`).  Here the halves meet.

* `upload_complete` — while neither side has given the call up, the handler reads what was
  passed to `send`, in order and once each, and `io.EOF` means that it has read all of it.

The conditions are those of the two halves: nothing waits for credit when `closeSend` is
called, and a message finds the context of the server's stream live.
-/

namespace WsProto.Agree.Upload

open Machine Go
open Ts.HalfClose (passedTo isHalf isMsg)

/-! ## The system -/

/-- The client, the socket, and the server's end of the stream `id`. -/
structure Conn where
  client : Ts.Ledger.Session
  /-- Ghost: what was passed to `send` on streams that were neither closed nor finished. -/
  passed : List (Ref × Payload) := []
  /-- The frames the read loop has taken. -/
  taken : List Frame := []
  /-- The stream, from its OPEN on. -/
  server : Option Inbound := none

inductive Event where
  /-- A call or a socket event of the client, with any frame that may arrive there. -/
  | client (a : Ts.Ledger.Act)
  /-- The read loop takes the next frame. -/
  | deliver
  /-- A step of the server other than routing a frame. -/
  | server (a : InboundAct)

/-- The steps beside those of `route`. -/
def Quiet : InboundAct → Bool
  | .route _ => false
  | _ => true

/-- The client as `WsProto.Ts.HalfClose` has it. -/
def Conn.sender (x : Conn) : Ts.HalfClose.Client := ⟨x.client.mux, x.passed⟩

/-- What has been passed to `send` after an event. -/
def passedAfter (c : Ts.HalfClose.Client) : Ts.Ledger.Act → List (Ref × Payload)
  | .send r payload => if c.accepts r then c.passed ++ [(r, payload)] else c.passed
  | _ => c.passed

section System

variable (size : Frame → ℕ) (id : UInt32) (W : ℤ)

/-- What the read loop does with a frame: the OPEN makes the stream; while the loop is busy
with the stream it takes no frame. -/
def take (server : Option Inbound) (f : Frame) : Option (Option Inbound) :=
  match server with
  | none =>
      some (if f.streamId = id ∧ f.kind = .kindOpen then some (.start true none id f.method W)
        else none)
  | some y =>
      if f.streamId = id then (y.step (.route f)).map some
      else if y.loop = .read then some (some y) else none

def Conn.step (x : Conn) : Event → Option Conn
  | .client a =>
      (x.client.step size a).map fun client =>
        { x with client, passed := passedAfter x.sender a }
  | .deliver =>
      (x.client.mux.sent[x.taken.length]?).bind fun f =>
        (take id W x.server f).map fun server => { x with server, taken := x.taken ++ [f] }
  | .server a =>
      if Quiet a then
        x.server.bind fun y => (y.step a).map fun y' => { x with server := some y' }
      else none

end System

/-- A client over a socket that is or is not open yet. -/
def Conn.start (W B F : ℤ) (ready : Bool) (got : Option Text) : Conn :=
  { client := .start W B F ready got }

/-- The condition on a step: nothing waits for credit when `closeSend` takes effect, a message
of the open input finds the context of the stream live, and the handler does not return OK
after a message was refused. -/
def Conn.Kept (id : UInt32) (x : Conn) : Event → Prop
  | .client (.closeSend r) => x.sender.Drained (.closeSend r)
  | .client _ => True
  | .deliver => ∀ y ∈ x.server, ∀ f ∈ x.client.mux.sent[x.taken.length]?, f.streamId = id →
      y.Kept (.route f)
  | .server a => ∀ y ∈ x.server, y.Kept a

instance (id : UInt32) (x : Conn) : (a : Event) → Decidable (x.Kept id a)
  | .client (.closeSend r) => inferInstanceAs (Decidable (x.sender.Drained (.closeSend r)))
  | .client (.openStream _ _ _) | .client (.send _ _) | .client (.abort _ _) | .client (.recv _)
  | .client (.resume _) | .client (.message _ _) | .client (.onopen _) | .client .drop
  | .client (.close _) => isTrue trivial
  | .deliver => inferInstanceAs (Decidable (∀ y ∈ x.server, ∀ f ∈ _, _ → y.Kept (.route f)))
  | .server a => inferInstanceAs (Decidable (∀ y ∈ x.server, y.Kept a))

/-! ## The client -/

variable {size : Frame → ℕ}

open Ts.HalfClose.Client in
/-- Every event of the client keeps what `WsProto.Ts.HalfClose` promises. -/
theorem inv_call {m : Ts.Mux} {passed : List (Ref × Payload)} {a : Ts.Ledger.Act}
    {y : Ts.Mux × Option Ts.WsStatusError} (hi : Inv ⟨m, passed⟩)
    (hk : ∀ r, a = .closeSend r → Drained ⟨m, passed⟩ (.closeSend r))
    (hy : Ts.Ledger.call size m a = some y) : Inv ⟨y.1, passedAfter ⟨m, passed⟩ a⟩ := by
  cases a with
  | send r payload =>
      cases hy
      exact inv_step (a := .send r payload) hi trivial rfl
  | closeSend r =>
      cases hy
      exact inv_step (a := .closeSend r) hi (hk r rfl) rfl
  | openStream | abort | recv | resume | message | onopen | drop | close =>
      exact Ts.HalfClose.Good.call size hi rfl hy

/-- The kinds of a word are those of a client. -/
theorem clientKind_of_word {ks : List Kind} (h : Ts.WireGrammar.Word ks) :
    ∀ k ∈ ks, Inbound.ClientKind k := by
  have hopen : ∀ {c ks}, Ts.WireGrammar.Open c ks → ∀ k ∈ ks, Inbound.ClientKind k := by
    rintro c ks ⟨body, rfl, hall, -⟩ k hk
    rcases List.mem_cons.1 hk with rfl | hk
    · trivial
    · rcases hall k hk with rfl | rfl | rfl <;> trivial
  obtain rfl | ⟨c, ks', hks, rfl | rfl⟩ := h
  · intro k hk
    cases hk
  · exact hopen hks
  · intro k hk
    rcases List.mem_append.1 hk with hk | hk
    · exact hopen hks k hk
    · rw [List.mem_singleton.1 hk]
      trivial

/-- The first frame of a stream is its OPEN. -/
theorem eq_open_of_word {k : Kind} (h : Ts.WireGrammar.Word [k]) : k = .kindOpen := by
  obtain h | ⟨c, ks, ⟨body, rfl, -⟩, h | h⟩ := h
  · cases h
  · exact (List.cons.inj h).1
  · exact (List.cons.inj h).1

/-! ## The invariant -/

/-- A HALF_CLOSE of the stream is among the frames. -/
def closedIn (id : UInt32) (l : List Frame) : Bool := l.any (isHalf id)

/-- The server's end of the stream, when the read loop has taken the frames `taken`. -/
structure Reads (id : UInt32) (taken : List Frame) (y : Inbound) : Prop where
  ends : y.Ends
  feeds : y.Feeds
  told : y.Told
  tracks : y.ender = .idle → y.Tracks (Ts.HalfClose.payloads id taken) (closedIn id taken)

structure Inv (size : Frame → ℕ) (id : UInt32) (x : Conn) : Prop where
  client : Ts.WireGrammar.Grammatical size x.client
  sender : x.sender.Inv
  taken : x.taken <+: x.client.accepted
  server : ∀ y, x.server = some y → Reads id x.taken y
  unopened : x.server = none → Ts.WireGrammar.kindsFor id x.taken = []

variable {id : UInt32} {W' : ℤ} {x x' : Conn} {f : Frame}

theorem Inv.word_next (h : Inv size id x) (hf : x.client.mux.sent[x.taken.length]? = some f)
    (id' : UInt32) : Ts.WireGrammar.Word (Ts.WireGrammar.kindsFor id' (x.taken ++ [f])) :=
  (h.client.word id').of_initial
    ((((h.client.next h.taken hf).trans h.client.sound.books.part).filter _).map _)

/-- No message follows the HALF_CLOSE. -/
theorem Inv.order (h : Inv size id x) (hf : x.client.mux.sent[x.taken.length]? = some f)
    (hid : f.streamId = id) (hk : f.kind = .kindMsg) : closedIn id x.taken = false := by
  have hpre : x.taken ++ [f] <+: x.client.mux.out :=
    (h.client.next h.taken hf).trans (List.prefix_append _ _)
  obtain ⟨r, s, hs, hsid⟩ := h.sender.wf.frames f (hpre.subset (by simp))
  have horder := (h.sender.safe r s hs).order.sublist hpre.sublist
  rw [closedIn, List.any_eq_false]
  intro g hg hhalf
  refine (List.pairwise_append.1 horder).2.2 g hg f List.mem_cons_self ⟨?_, ?_⟩
  · rw [hsid, hid]
    exact hhalf
  · rw [hsid]
    simp [isMsg, hk]

theorem closedIn_append (id : UInt32) (l : List Frame) (f : Frame) :
    closedIn id (l ++ [f]) = (closedIn id l || isHalf id f) := by
  simp [closedIn]

/-- A frame of another stream. -/
theorem Reads.other {taken : List Frame} {y : Inbound} (h : Reads id taken y)
    (hid : f.streamId ≠ id) : Reads id (taken ++ [f]) y := by
  refine ⟨h.ends, h.feeds, h.told, fun hidle => ?_⟩
  have hmsg : isMsg id f = false := by simp [isMsg, hid]
  have hhalf : isHalf id f = false := by simp [isHalf, hid]
  rw [Ts.HalfClose.payloads_append, closedIn_append, hmsg, hhalf, Bool.or_false]
  simpa using h.tracks hidle

/-- A frame of the stream. -/
theorem Reads.route {taken : List Frame} {y y' : Inbound} (h : Reads id taken y)
    (hid : f.streamId = id) (hk : Inbound.ClientKind f.kind) (hkept : y.Kept (.route f))
    (horder : f.kind = .kindMsg → closedIn id taken = false)
    (hs : y.step (.route f) = some y') : Reads id (taken ++ [f]) y' := by
  have hfrom : Inbound.FromClient (.route f) := hk
  obtain ⟨hends, hfeeds⟩ := Inbound.ends_feeds_step ⟨h.ends, h.feeds⟩ hkept hs
  refine ⟨hends, hfeeds, Inbound.told_step h.ends h.told hfrom hs, fun hidle => ?_⟩
  obtain ⟨hl, ⟨⟩⟩ := Option.ite_none_right_eq_some.1 hs
  rw [Inbound.route_ender] at hidle
  have htracks := Inbound.tracks_route h.ends h.feeds (h.tracks hidle) hidle hl hk hkept horder
  rw [Ts.HalfClose.payloads_append, closedIn_append]
  simpa only [isMsg, isHalf, hid, and_true, decide_eq_true_eq] using htracks

/-- A step of the server that routes nothing. -/
theorem Reads.quiet {taken : List Frame} {y y' : Inbound} {a : InboundAct} (h : Reads id taken y)
    (ha : Quiet a = true) (hkept : y.Kept a) (hs : y.step a = some y') : Reads id taken y' := by
  have hroute : ∀ f, a ≠ .route f := by
    rintro f rfl
    cases ha
  have hfrom : Inbound.FromClient a := by
    cases a with
    | route f => cases ha
    | _ => trivial
  obtain ⟨hends, hfeeds⟩ := Inbound.ends_feeds_step ⟨h.ends, h.feeds⟩ hkept hs
  exact ⟨hends, hfeeds, Inbound.told_step h.ends h.told hfrom hs,
    Inbound.tracks_step hroute h.tracks hs⟩

/-- The OPEN makes the stream. -/
theorem reads_start (method : Text) {taken : List Frame} (hk : f.kind = .kindOpen)
    (hnone : Ts.WireGrammar.kindsFor id taken = []) :
    Reads id (taken ++ [f]) (.start true none id method W') := by
  have hids : ∀ g ∈ taken, g.streamId ≠ id := by
    intro g hg hid
    have hmem := Ts.WireGrammar.mem_kindsFor.2 ⟨g, hg, hid, rfl⟩
    rw [hnone] at hmem
    cases hmem
  have hpay : Ts.HalfClose.payloads id taken = [] := by
    rw [Ts.HalfClose.payloads, List.map_eq_nil_iff, List.filter_eq_nil_iff]
    intro g hg
    simp [isMsg, hids g hg]
  have hclosed : closedIn id taken = false := by
    rw [closedIn, List.any_eq_false]
    intro g hg
    simp [isHalf, hids g hg]
  refine ⟨Inbound.ends_start _ _ _ _ _, Inbound.feeds_start _ _ _ _ _,
    Inbound.told_start _ _ _ _ _, fun _ => ?_⟩
  rw [Ts.HalfClose.payloads_append, closedIn_append, hpay, hclosed]
  simpa [isMsg, isHalf, hk] using Inbound.tracks_start true none id method W'

theorem inv_start (size : Frame → ℕ) (id : UInt32) (W B F : ℤ) (ready : Bool) (got : Option Text) :
    Inv size id (.start W B F ready got) where
  client := Ts.WireGrammar.grammatical_start size W B F ready got
  sender := Ts.HalfClose.Client.inv_start W B F ready got
  taken := List.nil_prefix
  server := by intro y hy; cases hy
  unopened := by intro _; rfl

theorem inv_deliver (h : Inv size id x) (hk : x.Kept id .deliver)
    (hf : x.client.mux.sent[x.taken.length]? = some f) {server : Option Inbound}
    (hs : take id W' x.server f = some server) :
    Inv size id { x with server, taken := x.taken ++ [f] } := by
  have hpre := (h.client.next h.taken hf).trans h.client.sound.books.part
  refine ⟨h.client, h.sender, hpre, ?_, ?_⟩
  · intro y' hy'
    obtain rfl : server = some y' := hy'
    cases hx : x.server with
    | none =>
        simp only [take, hx, Option.some.injEq] at hs
        split_ifs at hs with hopen
        obtain rfl := Option.some.inj hs
        exact reads_start f.method hopen.2 (h.unopened hx)
    | some y =>
        have hy := h.server y hx
        simp only [take, hx] at hs
        split_ifs at hs with hid hread
        · obtain ⟨z, hz, hzy⟩ := Option.map_eq_some_iff.1 hs
          obtain rfl := Option.some.inj hzy
          have hkind : f.kind ∈ Ts.WireGrammar.kindsFor f.streamId (x.taken ++ [f]) :=
            Ts.WireGrammar.mem_kindsFor.2 ⟨f, by simp, rfl, rfl⟩
          exact hy.route hid (clientKind_of_word (h.word_next hf _) _ hkind)
            (hk y (by rw [hx]; rfl) f (by rw [hf]; rfl) hid) (h.order hf hid) hz
        · obtain rfl := Option.some.inj (Option.some.inj hs)
          exact hy.other hid
  · intro hnone
    obtain rfl : server = none := hnone
    cases hx : x.server with
    | some y =>
        simp only [take, hx] at hs
        split_ifs at hs
        · obtain ⟨z, -, hz⟩ := Option.map_eq_some_iff.1 hs
          cases hz
        · cases hs
    | none =>
        have hold := h.unopened hx
        simp only [take, hx, Option.some.injEq] at hs
        have hword := h.word_next hf id
        show Ts.WireGrammar.kindsFor id (x.taken ++ [f]) = []
        by_cases hid : f.streamId = id
        · -- the first frame of the stream would be its OPEN
          have hone : Ts.WireGrammar.kindsFor id (x.taken ++ [f]) = [f.kind] := by
            rw [Ts.WireGrammar.kindsFor_append, hold]
            simp [Ts.WireGrammar.kindsFor, hid]
          rw [hone] at hword
          rw [if_pos ⟨hid, eq_open_of_word hword⟩] at hs
          cases hs
        · rw [Ts.WireGrammar.kindsFor_append, hold]
          simp [Ts.WireGrammar.kindsFor, hid]

theorem inv_step {e : Event} (h : Inv size id x) (hk : x.Kept id e)
    (hs : x.step size id W' e = some x') : Inv size id x' := by
  cases e with
  | client a =>
      obtain ⟨c, hc, rfl⟩ := Option.map_eq_some_iff.1 hs
      have hgram := h.client.step hc
      obtain ⟨y, hy, rfl⟩ := Option.map_eq_some_iff.1 hc
      refine ⟨hgram, ?_, h.taken.trans (List.prefix_append _ _), h.server, h.unopened⟩
      refine inv_call h.sender ?_ hy
      rintro r rfl
      exact hk
  | deliver =>
      obtain ⟨f, hf, hs⟩ := Option.bind_eq_some_iff.1 hs
      obtain ⟨server, hserver, rfl⟩ := Option.map_eq_some_iff.1 hs
      exact inv_deliver h hk hf hserver
  | server a =>
      simp only [Conn.step] at hs
      split_ifs at hs with ha
      obtain ⟨y, hy, hs⟩ := Option.bind_eq_some_iff.1 hs
      obtain ⟨y', hy', rfl⟩ := Option.map_eq_some_iff.1 hs
      refine ⟨h.client, h.sender, h.taken, ?_, ?_⟩
      · intro z hz
        obtain rfl := Option.some.inj hz
        exact (h.server y hy).quiet ha (hk y hy) hy'
      · intro hnone
        cases hnone

/-! ## Every run -/

/-- What a live stream of the client has been given, and what of it the read loop has taken. -/
theorem Inv.passed (h : Inv size id x) {r : Ref} {s : Ts.StreamImpl}
    (hs : x.client.mux.objs[r]? = some s) (hid : s.id = id) (hlive : s.finished = false) :
    Ts.HalfClose.payloads id x.taken <+: passedTo x.passed r ∧
      (closedIn id x.taken = true → s.sendClosed = true ∧
        Ts.HalfClose.payloads id x.taken = passedTo x.passed r) := by
  have hwf := h.client.sound.books.wf
  have hdef : x.client.mux.defunct = false := by
    by_contra hne
    have hempty := hwf.defunct (by simpa using hne)
    have hlook := hwf.live r s hs hlive
    rw [hempty] at hlook
    simp at hlook
  obtain ⟨t, ht⟩ := h.taken
  have hout : x.client.mux.out = x.taken ++ t := by rw [h.client.sound.books.kept hdef, ht]
  have hsafe := h.sender.safe r s hs
  have hexact := h.sender.exact r s hs hlive
  rw [show x.sender.mux = x.client.mux from rfl, hout] at hsafe hexact
  rw [hid, Ts.HalfClose.payloads, List.filter_append, List.map_append, List.append_assoc] at hexact
  refine ⟨⟨_, hexact⟩, fun hclosed => ?_⟩
  obtain ⟨g, hg, hhalf⟩ := List.any_eq_true.1 hclosed
  have hmem : g ∈ x.taken ++ t := List.mem_append_left _ hg
  refine ⟨?_, ?_⟩
  · by_contra hne
    have hno := hsafe.opened (by simpa using hne) g hmem
    rw [hid, hhalf] at hno
    cases hno
  · have hnil : s.outbound = [] := by
      refine (hsafe.drained ⟨g, hmem, by rw [hid]; exact hhalf⟩).resolve_left ?_
      rw [hlive]
      decide
    have hrest : t.filter (isMsg id) = [] := by
      rw [List.filter_eq_nil_iff]
      intro m hm hmsg
      refine (List.pairwise_append.1 hsafe.order).2.2 g hg m hm ⟨?_, ?_⟩
      · rw [hid]; exact hhalf
      · rw [hid]; exact hmsg
    rw [hrest, hnil, List.map_nil, List.append_nil, List.append_nil] at hexact
    exact hexact

/-- **The handler reads what was sent.**  In every run, while the client's stream has not
finished and the handler has not returned: the payloads a Go handler has received are the
first of those passed to `send`, in order and once each; and when a receive has returned
`io.EOF`, `closeSend` has been called and the receives before it returned all of them. -/
theorem upload_complete (size : Frame → ℕ) (id : UInt32) (W B F W' : ℤ) (ready : Bool)
    (got : Option Text) {x : Conn}
    (h : Reach (Conn.step size id W') (Conn.Kept id) (.start W B F ready got) x) {r : Ref}
    {s : Ts.StreamImpl} (hs : x.client.mux.objs[r]? = some s) (hid : s.id = id)
    (hlive : s.finished = false) {y : Inbound} (hy : x.server = some y) (hrun : y.ender = .idle) :
    Inbound.payloads y.results <+: passedTo x.passed r ∧
      ∀ l t, y.results = l ++ .error .eof :: t →
        s.sendClosed = true ∧ Inbound.payloads l = passedTo x.passed r := by
  have hi : Inv size id x := h.invariant (inv_start size id W B F ready got)
    fun _ _ _ hi hk hs => inv_step hi hk hs
  obtain ⟨hends, hfeeds, htold, htracks⟩ := hi.server y hy
  have htr := htracks hrun
  obtain ⟨hpart, hall⟩ := hi.passed hs hid hlive
  have hread : Inbound.payloads y.results <+: Ts.HalfClose.payloads id x.taken := by
    refine List.IsPrefix.trans ?_ htr.part
    rw [Inbound.offered, List.append_assoc]
    exact List.prefix_append _ _
  refine ⟨hread.trans hpart, ?_⟩
  intro l t hres
  have hclosed : y.stream.halfClosed = true := htold.eof (by rw [hres]; simp) hrun
  obtain ⟨hhalf, hinput⟩ := htr.closed hclosed
  obtain ⟨hsc, hpay⟩ := hall hhalf
  refine ⟨hsc, ?_⟩
  -- all of the input was returned before, and nothing else ever is
  have hle : Inbound.payloads l <+: passedTo x.passed r := by
    refine List.IsPrefix.trans ?_ (hread.trans hpart)
    rw [hres, Inbound.payloads, Inbound.payloads, List.filterMap_append]
    exact List.prefix_append _ _
  have hge := (hfeeds.eof l t hres).2.2
  rw [hinput, hpay] at hge
  exact hle.eq_of_length_le hge.length_le

/-- One message and the end of the input. -/
theorem upload_complete_one :
    ∃ x s y, Reach (Conn.step (fun _ => 1) 1 4) (Conn.Kept 1) (.start 4 0 0 true none) x ∧
      x.client.mux.objs[0]? = some s ∧ x.server = some y ∧
      y.results = [.ok [7], .error .eof] ∧ s.sendClosed = true ∧
      Inbound.payloads [.ok [7]] = passedTo x.passed 0 := by
  obtain ⟨x, hx, hp⟩ := exists_reach_of_exec (Conn.step (fun _ => 1) 1 4) (Conn.Kept 1)
    (.start 4 0 0 true none)
    (fun x => decide ((x.client.mux.objs[0]?).map (fun s : Ts.StreamImpl => (s.id, s.finished)) =
        some (1, false) ∧
      x.server.map (fun y : Inbound => (y.ender, y.results)) =
        some (.idle, [.ok [7], .error .eof])))
    [.client (.openStream .empty ∅ none), .client (.send 0 [7]), .client (.closeSend 0), .deliver,
      .server (.recvRawContext none), .deliver, .server .loop, .server .recv, .server .recv,
      .deliver, .server (.recvRawContext none), .server .recv, .server (.select .halfClosed),
      .server .recv] (by decide)
  obtain ⟨hclient, hserver⟩ := of_decide_eq_true hp
  obtain ⟨s, hs, hview⟩ := Option.map_eq_some_iff.1 hclient
  obtain ⟨y, hy, hends⟩ := Option.map_eq_some_iff.1 hserver
  obtain ⟨hid, hlive⟩ := Prod.mk.inj hview
  obtain ⟨hidle, hres⟩ := Prod.mk.inj hends
  obtain ⟨-, heof⟩ := upload_complete _ 1 4 0 0 4 true none hx hs hid hlive hy hidle
  obtain ⟨hclosed, hall⟩ := heof [.ok [7]] [] hres
  exact ⟨x, s, y, hx, hs, hy, hres, hclosed, hall⟩

end WsProto.Agree.Upload
