import WsProto.Go.StreamContext

/-!
# The receive backlog of a Go stream

`tryDeliver` is the backstop against a peer that ignores the window: it appends a message
to `recvItems` unless the backlog is already over the window, and then the mux resets the
stream.  A mux of either side runs here against any peer; the only thing asked of the
peer's messages is which payload sizes they may have.

* `held_of_reach` — the byte counter is the size of the backlog, which exceeds the window
  by one message at most;
* `exists_flooded` — messages without payload are never over: any number of them is
  retained;
* `route_over` — a message that finds the backlog over the window resets the stream.
-/

namespace WsProto.Go.Backlog

open Machine StreamContext

/-- The payload sizes of the messages in the backlog. -/
def sizes (s : Stream) : List ℕ := s.recvItems.map (·.payload.length)

/-- The condition on a step: the messages the peer sends have an allowed size. -/
def Sized (allowed : ℕ → Prop) (_ : Host) : Act → Prop
  | .route f => routesAsMsg f.kind = true → allowed f.payload.length
  | _ => True

/-! ## One stream -/

variable {window : ℤ} {L : ℕ} {allowed : ℕ → Prop} {s s' : Stream}

/-- The backlog of a stream with the given window, from a peer whose messages have an
allowed size of at most `L`. -/
structure Held (window : ℤ) (L : ℕ) (allowed : ℕ → Prop) (s : Stream) : Prop where
  ceiling : s.maxRecvBytes = window
  counted : s.recvBytes = (sizes s).sum
  bounded : s.recvBytes ≤ window + L
  sized : ∀ n ∈ sizes s, allowed n

theorem held_newStream {W : ℤ} (hw : windowOr W = window) (hpos : 0 ≤ window)
    (ctxErr : Option CtxErr) (id : UInt32) (method : Text) :
    Held window L allowed (newStream ctxErr id method W) where
  ceiling := hw
  counted := rfl
  bounded := by
    show (0 : ℤ) ≤ window + L
    omega
  sized n hn := by cases hn

/-- What is not about the backlog does not change it. -/
theorem Held.congr (h : Held window L allowed s) (hi : s'.recvItems = s.recvItems)
    (hb : s'.recvBytes = s.recvBytes) (hm : s'.maxRecvBytes = s.maxRecvBytes) :
    Held window L allowed s' where
  ceiling := hm.trans h.ceiling
  counted := by rw [hb, h.counted, sizes, sizes, hi]
  bounded := by rw [hb]; exact h.bounded
  sized n hn := h.sized n (by rw [sizes, ← hi]; exact hn)

theorem Held.failWith (h : Held window L allowed s) (err : Option GoError) :
    Held window L allowed (s.failWith err) := h.congr rfl rfl rfl

/-- A message that finds the backlog within the window is appended. -/
theorem Held.append (h : Held window L allowed s) (hpos : 0 ≤ window)
    (hL : ∀ n, allowed n → n ≤ L) {f : Frame} (hf : allowed f.payload.length)
    (hroom : ¬ (s.recvItems ≠ [] ∧ s.maxRecvBytes < s.recvBytes)) :
    Held window L allowed
      { s with recvItems := s.recvItems ++ [f], recvBytes := s.recvBytes + f.payload.length } where
  ceiling := h.ceiling
  counted := by
    show s.recvBytes + (f.payload.length : ℤ) = _
    rw [h.counted]
    simp [sizes]
  bounded := by
    have hlen := hL _ hf
    have hle : s.recvBytes ≤ window := by
      by_cases hnil : s.recvItems = []
      · have : s.recvBytes = 0 := by rw [h.counted, sizes, hnil]; rfl
        omega
      · have := h.ceiling
        by_contra hover
        exact hroom ⟨hnil, by omega⟩
    show s.recvBytes + (f.payload.length : ℤ) ≤ window + L
    omega
  sized n hn := by
    rw [sizes, List.map_append, List.mem_append] at hn
    rcases hn with hn | hn
    · exact h.sized n hn
    · obtain rfl : n = f.payload.length := by simpa using hn
      exact hf

/-- The oldest message is taken out. -/
theorem Held.pop (h : Held window L allowed s) {f : Frame} (hp : s.popRecv = some (f, s')) :
    Held window L allowed s' := by
  rw [Stream.popRecv] at hp
  split at hp
  · cases hp
  · rename_i g rest hitems
    cases hp
    have hsizes : sizes s = f.payload.length :: rest.map (·.payload.length) := by
      rw [sizes, hitems]
      rfl
    have hcounted := h.counted
    have hbounded := h.bounded
    rw [hsizes, List.sum_cons] at hcounted
    refine { ceiling := h.ceiling, counted := ?_, bounded := ?_, sized := ?_ }
    · show s.recvBytes - (f.payload.length : ℤ) = ((rest.map (·.payload.length)).sum : ℕ)
      push_cast at hcounted ⊢
      omega
    · show s.recvBytes - (f.payload.length : ℤ) ≤ window + L
      omega
    · intro n hn
      exact h.sized n (by rw [hsizes]; exact List.mem_cons_of_mem _ hn)

/-- What a frame does. -/
theorem Held.onFrame (h : Held window L allowed s) (hpos : 0 ≤ window)
    (hL : ∀ n, allowed n → n ≤ L) (server : Bool) {f : Frame} (hopen : f.kind ≠ .kindOpen)
    (hf : routesAsMsg f.kind = true → allowed f.payload.length) :
    Held window L allowed (s.onFrame server f).stream := by
  unfold Stream.onFrame
  split
  · exact h.congr rfl rfl rfl
  · cases server <;> exact h.congr rfl rfl rfl
  · simp only [Routed.stream, Stream.creditSend]
    split <;> exact h.congr rfl rfl rfl
  · simp only [Routed.stream, Stream.signalEnd]
    split <;> exact h.congr rfl rfl rfl
  · simp only [Routed.stream, Stream.signalEnd]
    split <;> exact h.congr rfl rfl rfl
  · have hmsg : routesAsMsg f.kind = true := by
      cases hk : f.kind <;> simp_all [routesAsMsg]
    unfold Stream.tryDeliver Stream.deliver
    split_ifs with hdone hover
    · exact h
    · exact h.failWith _
    · exact (h.append hpos hL (hf hmsg) hover).congr rfl rfl rfl

/-- What the application does: only `popRecv` touches the backlog. -/
theorem Held.op (h : Held window L allowed s) (o : StreamOp) :
    Held window L allowed (o.run s).1 := by
  cases o with
  | sendHeader md =>
      simp only [StreamOp.run, Stream.sendHeader]
      split_ifs <;> exact h.congr rfl rfl rfl
  | setTrailer md =>
      simp only [StreamOp.run, Stream.setTrailer]
      split_ifs <;> exact h.congr rfl rfl rfl
  | sendRaw b =>
      simp only [StreamOp.run, Stream.sendRaw]
      split_ifs
      · exact h.congr rfl rfl rfl
      · cases s.sendBlockErrLocked <;> exact h
  | closeSend =>
      simp only [StreamOp.run, Stream.closeSend]
      split_ifs <;> exact h.congr rfl rfl rfl
  | popRecv =>
      simp only [StreamOp.run]
      split
      · rename_i hp
        exact h.pop hp
      · exact h
  | returnCredit n =>
      obtain ⟨p, hp⟩ := s.returnCredit_fst n
      simp only [StreamOp.run, hp]
      exact h.congr rfl rfl rfl
  | applyEnd f => exact h.congr rfl rfl rfl
  | closeResponse => exact h.congr rfl rfl rfl
  | expire e => exact h.congr rfl rfl rfl

/-- The bytes of the backlog. -/
theorem Held.bytes_le (h : Held window L allowed s) (hpos : 0 ≤ window) :
    (sizes s).sum ≤ window.toNat + L := by
  have hcounted := h.counted
  have hbounded := h.bounded
  omega

/-- Messages that are not empty are as many as their bytes at most. -/
theorem Held.length_le (h : Held window L allowed s) (hpos : 0 ≤ window) (h₀ : ¬ allowed 0) :
    s.recvItems.length ≤ window.toNat + L := by
  have hone : ∀ n ∈ sizes s, 1 ≤ n := by
    intro n hn
    refine Nat.one_le_iff_ne_zero.2 ?_
    rintro rfl
    exact h₀ (h.sized 0 hn)
  calc s.recvItems.length = (sizes s).length := by rw [sizes, List.length_map]
    _ ≤ (sizes s).sum := List.length_le_sum_of_one_le _ hone
    _ ≤ window.toNat + L := h.bytes_le hpos

/-! ## The mux -/

variable {m : Mux} {r : Ref}

/-- The backlog of every stream of a mux is held to the window of its configuration. -/
structure AllHeld (window : ℤ) (L : ℕ) (allowed : ℕ → Prop) (m : Mux) : Prop where
  window_eq : windowOr m.initialWindow = window
  held : ∀ s ∈ m.objs, Held window L allowed s

theorem allHeld_new (server : Bool) (W maxStreams : ℤ) :
    AllHeld (windowOr W) L allowed (newMuxConfig server W maxStreams) where
  window_eq := windowOr_windowOr W
  held s hs := by cases hs

theorem AllHeld.congr {m' : Mux} (h : AllHeld window L allowed m) (ho : m'.objs = m.objs)
    (hw : m'.initialWindow = m.initialWindow) : AllHeld window L allowed m' where
  window_eq := by rw [hw]; exact h.window_eq
  held s hs := h.held s (by rw [← ho]; exact hs)

theorem AllHeld.setObj (h : AllHeld window L allowed m) (hs : Held window L allowed s) :
    AllHeld window L allowed (m.setObj r s) where
  window_eq := h.window_eq
  held s' hs' := by
    rcases List.mem_or_eq_of_mem_set hs' with hs' | rfl
    · exact h.held s' hs'
    · exact hs

theorem AllHeld.append {m' : Mux} (h : AllHeld window L allowed m) (hs : Held window L allowed s)
    (ho : m'.objs = m.objs ++ [s]) (hw : m'.initialWindow = m.initialWindow) :
    AllHeld window L allowed m' where
  window_eq := by rw [hw]; exact h.window_eq
  held s' hs' := by
    rw [ho, List.mem_append, List.mem_singleton] at hs'
    rcases hs' with hs' | rfl
    · exact h.held s' hs'
    · exact hs

theorem AllHeld.writeCtrl (h : AllHeld window L allowed m) (f : Frame) :
    AllHeld window L allowed (m.writeCtrl f) := by
  refine h.congr (m.writeCtrl_objs f) ?_
  rw [Mux.writeCtrl]
  split <;> rfl

theorem AllHeld.failAll (h : AllHeld window L allowed m) (err : GoError) :
    AllHeld window L allowed (m.failAll err) where
  window_eq := h.window_eq
  held := Visit.forall_mem_foldl_modify (fun _ hs => hs.failWith _) m.streams.entries h.held

/-- **One routed frame.** -/
theorem AllHeld.route (h : AllHeld window L allowed m) (hpos : 0 ≤ window)
    (hL : ∀ n, allowed n → n ≤ L) {f : Frame}
    (hf : routesAsMsg f.kind = true → allowed f.payload.length) :
    AllHeld window L allowed (m.route f).1 := by
  unfold Mux.route
  split
  · unfold Mux.routeOpen
    split_ifs
    · exact h
    · exact h.writeCtrl _
    · exact h.writeCtrl _
    · have hnew : Held window L allowed (newStream m.ctxErr f.streamId f.method m.initialWindow) :=
        held_newStream h.window_eq hpos _ _ _
      exact h.append (s := { newStream m.ctxErr f.streamId f.method m.initialWindow with
        header := f.headers }) (hnew.congr rfl rfl rfl) rfl rfl
  · rename_i hopen
    unfold Mux.routeFrame
    split
    · exact h
    · rename_i r s hfind
      have hs := h.held s (List.mem_of_getElem? (Mux.find_eq_some.1 hfind).2)
      have hs' := hs.onFrame hpos hL m.server hopen hf
      split
      · rename_i s' hon
        rw [hon] at hs'
        exact h.setObj hs'
      · rename_i s' hon
        rw [hon] at hs'
        exact (h.setObj (r := r) hs').congr rfl rfl
      · rename_i s' hon
        rw [hon] at hs'
        exact ((h.setObj (r := r) hs').writeCtrl _).congr rfl rfl

/-! ## Whole runs -/

theorem allHeld_step {x x' : Host} {a : Act} (hpos : 0 ≤ window) (hL : ∀ n, allowed n → n ≤ L)
    (h : AllHeld window L allowed x.mux) (ha : Sized allowed x a) (hx : x.step a = some x') :
    AllHeld window L allowed x'.mux := by
  cases a with
  | route f =>
      obtain rfl := Option.some.inj hx
      exact h.route hpos hL ha
  | newClientStream ctxErr method written =>
      rw [Host.step] at hx
      split_ifs at hx
      obtain rfl := Option.some.inj hx
      exact h.append (held_newStream h.window_eq hpos _ _ _) rfl rfl
  | op r o =>
      obtain ⟨s, hs, rfl⟩ := Option.map_eq_some_iff.1 hx
      exact h.setObj ((h.held s (List.mem_of_getElem? hs)).op o)
  | endStream r st =>
      obtain ⟨s, hs, rfl⟩ := Option.map_eq_some_iff.1 hx
      exact h.setObj ((h.held s (List.mem_of_getElem? hs)).failWith _)
  | remove r =>
      obtain ⟨s, hs, rfl⟩ := Option.map_eq_some_iff.1 hx
      exact h.congr rfl rfl
  | close =>
      obtain rfl := Option.some.inj hx
      exact h.congr rfl rfl
  | readFail =>
      obtain rfl := Option.some.inj hx
      exact (h.failAll _).congr rfl rfl

/-- **The backlog in every run**: in every state, every stream counts the bytes of its
backlog, which exceed the window by one message at most. -/
theorem held_of_reach (server : Bool) (W maxStreams : ℤ) (hL : ∀ n, allowed n → n ≤ L) {x : Host}
    (h : Reach Host.step (Sized allowed) (Host.start server W maxStreams) x) :
    ∀ s ∈ x.mux.objs, Held (windowOr W) L allowed s := by
  have hpos : 0 ≤ windowOr W := (windowOr_pos W).le
  refine (h.invariant (P := fun x => AllHeld (windowOr W) L allowed x.mux)
    (allHeld_new server W maxStreams) ?_).held
  intro x a x' hx ha hstep
  exact allHeld_step hpos hL hx ha hstep

/-! ## A flood of empty messages -/

/-- A message without payload. -/
def emptyMsg : Frame := { streamId := 1, kind := .kindMsg }

/-- The stream 1 is registered and live, and holds `n` messages of no bytes. -/
def Flooded (n : ℕ) (x : Host) : Prop :=
  ∃ s, x.mux.find 1 = some (0, s) ∧ s.ctxErr = none ∧ 0 ≤ s.maxRecvBytes ∧ s.recvBytes = 0 ∧
    s.recvItems.length = n

/-- An empty message is never over the window, and stays. -/
theorem Flooded.route {n : ℕ} {x : Host} (h : Flooded n x) :
    ∃ x', x.step (.route emptyMsg) = some x' ∧ Flooded (n + 1) x' := by
  obtain ⟨s, hfind, hctx, hmax, hbytes, hlen⟩ := h
  obtain ⟨hl, hs⟩ := Mux.find_eq_some.1 hfind
  have hover : ¬ s.maxRecvBytes < s.recvBytes := by omega
  have hon : s.onFrame x.mux.server emptyMsg = .kept
      { s with recvItems := s.recvItems ++ [emptyMsg], recvSignal := true } := by
    simp [Stream.onFrame, emptyMsg, Stream.tryDeliver, Stream.deliver, hctx, hover,
      Stream.signalRecv]
  have hroute : (x.mux.route emptyMsg).1 = x.mux.setObj 0
      { s with recvItems := s.recvItems ++ [emptyMsg], recvSignal := true } := by
    have hkind : ¬ emptyMsg.kind = .kindOpen := by decide
    rw [Mux.route, if_neg hkind, Mux.routeFrame, show emptyMsg.streamId = 1 from rfl, hfind]
    simp only [hon]
  refine ⟨_, rfl, ?_⟩
  rw [Flooded, hroute]
  refine ⟨{ s with recvItems := s.recvItems ++ [emptyMsg], recvSignal := true },
    Mux.find_eq_some.2 ⟨hl, ?_⟩, hctx, hmax, hbytes, ?_⟩
  · have hlt : 0 < x.mux.objs.length := (List.getElem?_eq_some_iff.1 hs).1
    simp [Mux.setObj, hlt]
  · simp [hlen]

/-- **The count has no bound** where messages may be empty. -/
theorem exists_flooded (h₀ : allowed 0) (W : ℤ) (n : ℕ) :
    ∃ x, Reach Host.step (Sized allowed) (Host.start true W 0) x ∧ Flooded n x := by
  have hopen : (Host.start true W 0).step (.route { streamId := 1, kind := .kindOpen }) = some
      { mux := ((newMuxConfig true W 0).register { streamId := 1, kind := .kindOpen }).1 } := rfl
  refine (Reach.refl.tail (fun hmsg => nomatch hmsg) hopen).climb (P := Flooded) ?_ ?_ n
  · refine ⟨_, rfl, rfl, ?_, rfl, rfl⟩
    exact (windowOr_pos _).le
  · intro n x hx
    obtain ⟨x', hstep, hx'⟩ := hx.route
    exact ⟨.route emptyMsg, x', fun _ => h₀, hstep, hx'⟩

/-! ## The reset -/

/-- **A message that finds the backlog over the window** resets the stream: it ends with
ResourceExhausted, leaves the registry, and the peer is told if the control channel has
room. -/
theorem route_over (hs : Held window L allowed s) (hpos : 0 ≤ window) {f : Frame}
    (hmsg : routesAsMsg f.kind = true) (hfind : m.find f.streamId = some (r, s))
    (hctx : s.ctxErr = none) (hover : window < s.recvBytes) :
    (m.route f).1.streams.lookup f.streamId = none ∧
      (m.route f).1.objs[r]? = some (s.failWith (some overflowErr)) ∧
      (m.ctrlCh.length < ctrlBufferSize →
        rstFrame f.streamId Code.resourceExhausted "receive buffer overflow" ∈
          (m.route f).1.ctrlCh) := by
  have hne : s.recvItems ≠ [] := by
    intro hnil
    have : s.recvBytes = 0 := by rw [hs.counted, sizes, hnil]; rfl
    omega
  have hmax : s.maxRecvBytes < s.recvBytes := by rw [hs.ceiling]; exact hover
  have hon : s.onFrame m.server f = .overflowed (s.failWith (some overflowErr)) := by
    have hdel : s.tryDeliver f = none := by
      simp [Stream.tryDeliver, Stream.deliver, hctx, hne, hmax]
    unfold Stream.onFrame
    cases hk : f.kind <;> simp_all [routesAsMsg]
  have hopen : ¬ f.kind = .kindOpen := by
    intro ho
    rw [ho] at hmsg
    cases hmsg
  have hlt : r < m.objs.length := (List.getElem?_eq_some_iff.1 (Mux.find_eq_some.1 hfind).2).1
  rw [Mux.route, if_neg hopen, Mux.routeFrame, hfind]
  simp only [hon]
  refine ⟨AList.lookup_erase _ _, ?_, ?_⟩
  · simp [Mux.remove, Mux.setObj, hlt]
  · intro hroom
    simp [Mux.remove, Mux.writeCtrl, Mux.setObj, hroom]

end WsProto.Go.Backlog
