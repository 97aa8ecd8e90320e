import WsProto.Ts.Ledger

/-!
# The receive backlog of a TypeScript stream

A MSG that finds `bufferedBytes` over the window aborts its stream; any other is pushed
into `inbound`.  The counter goes up when a message is pushed and down only when `recv`
has resumed with it, so it counts the messages in the queue and those on their way to the
application.

* `held_of_reach` — the bytes of the queue exceed the window by one message at most;
* `exists_flooded` — messages without payload are never over: any number of them is
  retained;
* `route_over` — a message that finds the counter over the window aborts the stream.
-/

namespace WsProto.Ts.Backlog

open Machine Ledger

/-- The bytes a result carries to the application. -/
def resultSize : PullResult Payload → ℕ
  | .value v => v.length
  | .done => 0
  | .rejected _ => 0

/-- The payload sizes of the messages in the queue. -/
def sizes (s : StreamImpl) : List ℕ := s.inbound.values.map (·.length)

/-- The condition on an event: the messages the peer sends have an allowed size. -/
def Sized (allowed : ℕ → Prop) (_ : Session) : Act → Prop
  | .message _ (some f) => f.kind = .kindMsg → allowed f.payload.length
  | _ => True

/-! ## The queue -/

section Queue

variable {q q' : AsyncQueue Payload} {extra : List Payload}

/-- The bytes in the queue and in the results after the first `n`. -/
def bytes (q : AsyncQueue Payload) (n : ℕ) : ℕ :=
  (q.values.map (·.length)).sum + ((q.settled.drop n).map resultSize).sum

/-- A method of the queue brings it from `q` to `q'` with the values `extra`. -/
structure Moves (q q' : AsyncQueue Payload) (extra : List Payload) : Prop where
  bytes_le : ∀ n ≤ q.settled.length, bytes q' n ≤ bytes q n + (extra.map (·.length)).sum
  values : ∀ v ∈ q'.values, v ∈ q.values ∨ v ∈ extra
  settled : q.settled.length ≤ q'.settled.length

theorem Moves.refl (q : AsyncQueue Payload) (extra : List Payload) : Moves q q extra where
  bytes_le _ _ := Nat.le_add_right _ _
  values _ hv := Or.inl hv
  settled := le_refl _

/-- A method that adds results and takes their bytes from the queue or from `extra`. -/
theorem moves_of_settled {l : List (PullResult Payload)} (hq : q'.settled = q.settled ++ l)
    (hbytes : (q'.values.map (·.length)).sum + (l.map resultSize).sum ≤
      (q.values.map (·.length)).sum + (extra.map (·.length)).sum)
    (hvalues : ∀ v ∈ q'.values, v ∈ q.values ∨ v ∈ extra) : Moves q q' extra where
  bytes_le n hn := by
    rw [bytes, bytes, hq, List.drop_append_of_le_length hn, List.map_append, List.sum_append]
    omega
  values := hvalues
  settled := by rw [hq, List.length_append]; exact Nat.le_add_right _ _

/-- The waiting pulls get a result that carries nothing. -/
theorem moves_of_replicate {x : PullResult Payload} {n : ℕ}
    (hq : q'.settled = q.settled ++ List.replicate n x) (hv : q'.values = q.values)
    (hx : resultSize x = 0) : Moves q q' [] := by
  refine moves_of_settled hq ?_ fun v hv' => Or.inl (hv ▸ hv')
  simp [hv, hx]

theorem moves_endQueue (q : AsyncQueue Payload) : Moves q q.endQueue [] := by
  unfold AsyncQueue.endQueue
  split_ifs
  · exact .refl q []
  · exact moves_of_replicate rfl rfl rfl

theorem moves_fail (q : AsyncQueue Payload) (e : WsStatusError) : Moves q (q.fail e) [] := by
  unfold AsyncQueue.fail
  split_ifs
  · exact .refl q []
  · exact moves_of_replicate rfl rfl rfl

/-- `push`: into the queue, to a waiting pull, or nowhere after the end. -/
theorem moves_push (q : AsyncQueue Payload) (p : Payload) : Moves q (q.push p) [p] := by
  unfold AsyncQueue.push
  split_ifs
  · exact .refl q [p]
  · exact moves_of_settled rfl (le_refl _) fun v hv => Or.inl hv
  · refine moves_of_settled (l := []) (List.append_nil _).symm ?_ fun v hv => List.mem_append.1 hv
    simp

/-- `pull` takes its value from the front of the queue. -/
theorem moves_pull (q : AsyncQueue Payload) : Moves q q.pull [] := by
  unfold AsyncQueue.pull
  split
  · rename_i v rest hvalues
    refine moves_of_settled rfl ?_ fun w hw => Or.inl ?_
    · simp [hvalues, resultSize]
      omega
    · rw [hvalues]
      exact List.mem_cons_of_mem v hw
  · exact moves_of_settled rfl (le_refl _) fun v hv => Or.inl hv
  · exact moves_of_settled rfl (le_refl _) fun v hv => Or.inl hv
  · exact moves_of_settled (List.append_nil _).symm (le_refl _) fun v hv => Or.inl hv

theorem pull_error (q : AsyncQueue Payload) : q.pull.error = q.error := by
  unfold AsyncQueue.pull
  split <;> rfl

theorem push_error (q : AsyncQueue Payload) (p : Payload) : (q.push p).error = q.error := by
  unfold AsyncQueue.push
  split_ifs <;> rfl

theorem endQueue_error (q : AsyncQueue Payload) : q.endQueue.error = q.error := by
  unfold AsyncQueue.endQueue
  split_ifs <;> rfl

end Queue

/-! ## One stream -/

variable {window : ℤ} {L : ℕ} {allowed : ℕ → Prop} {s s' : StreamImpl}

/-- The backlog of a stream with the given window, from a peer whose messages have an
allowed size of at most `L`. -/
structure Held (window : ℤ) (L : ℕ) (allowed : ℕ → Prop) (s : StreamImpl) : Prop where
  counted : (bytes s.inbound s.resumed : ℤ) ≤ s.bufferedBytes
  bounded : s.bufferedBytes ≤ window + L
  sized : ∀ v ∈ s.inbound.values, allowed v.length
  resumed : s.resumed ≤ s.inbound.settled.length
  live : s.finished = false → s.inbound.error = none

theorem held_new (hpos : 0 ≤ window) (id : UInt32) (W B : ℤ) :
    Held window L allowed (newStreamImpl id W B) where
  counted := le_refl _
  bounded := by
    show (0 : ℤ) ≤ window + L
    omega
  sized v hv := by cases hv
  resumed := le_refl _
  live _ := rfl

/-- What is not about the backlog does not change it. -/
theorem Held.congr (h : Held window L allowed s) (hi : s'.inbound = s.inbound)
    (hr : s'.resumed = s.resumed) (hb : s'.bufferedBytes = s.bufferedBytes)
    (hfin : s'.finished = false → s.finished = false) : Held window L allowed s' where
  counted := by rw [hb, hi, hr]; exact h.counted
  bounded := by rw [hb]; exact h.bounded
  sized := by rw [hi]; exact h.sized
  resumed := by rw [hi, hr]; exact h.resumed
  live hf := by rw [hi]; exact h.live (hfin hf)

/-- **A method of the queue**: what it brings in is counted, and within the bound. -/
theorem Held.moves {q : AsyncQueue Payload} {extra : List Payload} (h : Held window L allowed s)
    (hq : Moves s.inbound q extra) (hextra : ∀ v ∈ extra, allowed v.length)
    (hroom : s.bufferedBytes + (extra.map (·.length)).sum ≤ window + L)
    (hlive : s.finished = false → q.error = none) :
    Held window L allowed
      { s with inbound := q, bufferedBytes := s.bufferedBytes + (extra.map (·.length)).sum } where
  counted := by
    have hcounted := h.counted
    have hle := hq.bytes_le _ h.resumed
    show (bytes q s.resumed : ℤ) ≤ s.bufferedBytes + ((extra.map (·.length)).sum : ℕ)
    omega
  bounded := hroom
  sized v hv := by
    rcases hq.values v hv with hv | hv
    · exact h.sized v hv
    · exact hextra v hv
  resumed := h.resumed.trans hq.settled
  live := hlive

/-- A method that brings nothing in. -/
theorem Held.moves_nil {q : AsyncQueue Payload} (h : Held window L allowed s)
    (hq : Moves s.inbound q []) (hlive : s.finished = false → q.error = none) :
    Held window L allowed { s with inbound := q } := by
  have hroom : s.bufferedBytes + (([] : List Payload).map (·.length)).sum ≤ window + L := by
    have := h.bounded
    simpa using this
  refine (h.moves hq (fun v hv => nomatch hv) hroom hlive).congr rfl rfl ?_ id
  simp

theorem Held.endQueue (h : Held window L allowed s) :
    Held window L allowed { s with inbound := s.inbound.endQueue } := by
  refine h.moves_nil (moves_endQueue _) fun hf => ?_
  rw [endQueue_error]
  exact h.live hf

/-- A queue fails with its stream. -/
theorem Held.fail (h : Held window L allowed s) (hfin : s.finished = true) (e : WsStatusError) :
    Held window L allowed { s with inbound := s.inbound.fail e } := by
  refine h.moves_nil (moves_fail _ e) fun hf => ?_
  rw [hfin] at hf
  cases hf

theorem Held.resolveHeaders (h : Held window L allowed s) (hs : Headers) :
    Held window L allowed (s.resolveHeaders hs) := by
  simp only [StreamImpl.resolveHeaders]
  split_ifs <;> exact h.congr rfl rfl rfl id

theorem Held.finish (h : Held window L allowed s) :
    Held window L allowed { s with finished := true } :=
  h.congr rfl rfl rfl fun hf => nomatch hf

theorem Held.endOk (h : Held window L allowed s) (hs : Headers) :
    Held window L allowed (s.endOk hs) := by
  unfold StreamImpl.endOk
  split_ifs
  · exact h
  · exact (h.finish.resolveHeaders hs).endQueue

theorem Held.endError (h : Held window L allowed s) (e : WsStatusError) (hs : Headers) :
    Held window L allowed (s.endError e hs) := by
  unfold StreamImpl.endError
  split_ifs
  · exact h
  · exact (h.finish.resolveHeaders hs).fail ((StreamImpl.resolveHeaders_follows _ hs).finished rfl) e

/-- The end of `cancel` or `abort`. -/
theorem Held.settled (h : Held window L allowed s) (hfin : s.finished = true)
    (err : Option WsStatusError) : Held window L allowed (s.settle err) := by
  have hres := h.resolveHeaders s.headers
  cases err with
  | none => exact hres.endQueue
  | some e => exact hres.fail ((StreamImpl.resolveHeaders_follows _ _).finished hfin) e

/-- A message that finds the counter within the window is pushed. -/
theorem Held.pushMsg (h : Held window L allowed s) (hL : ∀ n, allowed n → n ≤ L) {p : Payload}
    (hp : allowed p.length) (hroom : s.bufferedBytes ≤ window) :
    Held window L allowed (s.pushMsg p) := by
  have hlen := hL _ hp
  have hle : s.bufferedBytes + (([p] : List Payload).map (·.length)).sum ≤ window + L := by
    simp only [List.map_cons, List.map_nil, List.sum_singleton]
    omega
  refine (h.moves (moves_push _ p) ?_ hle ?_).congr rfl rfl ?_ id
  · intro v hv
    rw [List.mem_singleton.1 hv]
    exact hp
  · intro hf
    rw [push_error]
    exact h.live hf
  · simp [StreamImpl.pushMsg]

theorem Held.recv (h : Held window L allowed s) : Held window L allowed s.recv := by
  refine h.moves_nil (moves_pull _) fun hf => ?_
  rw [pull_error]
  exact h.live hf

theorem Held.returnCredit (h : Held window L allowed s) (n : ℤ) :
    Held window L allowed (s.returnCredit n).1 := by
  unfold StreamImpl.returnCredit
  split_ifs
  · exact h
  · exact h.congr rfl rfl rfl id
  · exact h.congr rfl rfl rfl id

/-- The oldest result `recv` has not resumed after. -/
theorem bytes_succ {q : AsyncQueue Payload} {n : ℕ} {x : PullResult Payload}
    (h : q.settled[n]? = some x) : bytes q n = bytes q (n + 1) + resultSize x := by
  obtain ⟨hlt, rfl⟩ := List.getElem?_eq_some_iff.1 h
  rw [bytes, bytes, List.drop_eq_getElem_cons hlt, List.map_cons, List.sum_cons]
  omega

/-- `recv` resumes: the bytes it brings are no longer counted. -/
theorem Held.resume (h : Held window L allowed s) {y : StreamImpl × Option ℤ}
    (hy : s.resume = some y) : Held window L allowed y.1 := by
  have hcounted := h.counted
  have hbounded := h.bounded
  unfold StreamImpl.resume at hy
  split at hy
  · cases hy
  · rename_i v hv
    cases hy
    have hlt := (List.getElem?_eq_some_iff.1 hv).1
    rw [bytes_succ hv, resultSize] at hcounted
    refine Held.returnCredit (s := { s with
      resumed := s.resumed + 1
      bufferedBytes := s.bufferedBytes - v.length }) ?_ _
    refine { h with counted := ?_, bounded := ?_, resumed := hlt }
    · show (bytes s.inbound (s.resumed + 1) : ℤ) ≤ s.bufferedBytes - v.length
      omega
    · show s.bufferedBytes - (v.length : ℤ) ≤ window + L
      omega
  · rename_i x _ hx
    cases hy
    rw [bytes_succ hx] at hcounted
    refine { h with counted := ?_, resumed := (List.getElem?_eq_some_iff.1 hx).1 }
    show (bytes s.inbound (s.resumed + 1) : ℤ) ≤ s.bufferedBytes
    omega

/-- The bytes of the queue. -/
theorem Held.bytes_le (h : Held window L allowed s) (hpos : 0 ≤ window) :
    (sizes s).sum ≤ window.toNat + L := by
  have hcounted := h.counted
  have hbounded := h.bounded
  rw [bytes] at hcounted
  rw [sizes]
  omega

/-- Messages that are not empty are as many as their bytes at most. -/
theorem Held.length_le (h : Held window L allowed s) (hpos : 0 ≤ window) (h₀ : ¬ allowed 0) :
    s.inbound.values.length ≤ window.toNat + L := by
  have hone : ∀ n ∈ sizes s, 1 ≤ n := by
    intro n hn
    obtain ⟨v, hv, rfl⟩ := List.mem_map.1 hn
    refine Nat.one_le_iff_ne_zero.2 fun hzero => h₀ ?_
    rw [← hzero]
    exact h.sized v hv
  calc s.inbound.values.length = (sizes s).length := by rw [sizes, List.length_map]
    _ ≤ (sizes s).sum := List.length_le_sum_of_one_le _ hone
    _ ≤ window.toNat + L := h.bytes_le hpos

/-! ## The mux -/

variable {m m' : Mux} {r : Ref} {size : Frame → ℕ}

/-- The backlog of every stream of a mux is held to its window. -/
structure AllHeld (window : ℤ) (L : ℕ) (allowed : ℕ → Prop) (m : Mux) : Prop where
  ceiling : m.maxRecvBytes = window
  held : ∀ s ∈ m.objs, Held window L allowed s

theorem AllHeld.congr (h : AllHeld window L allowed m) (ho : m'.objs = m.objs)
    (hw : m'.maxRecvBytes = m.maxRecvBytes) : AllHeld window L allowed m' where
  ceiling := hw.trans h.ceiling
  held := by rw [ho]; exact h.held

theorem AllHeld.obj (h : AllHeld window L allowed m) (hs : m.objs[r]? = some s) :
    Held window L allowed s := h.held s (List.mem_of_getElem? hs)

theorem AllHeld.setObj (h : AllHeld window L allowed m) (hs : Held window L allowed s) :
    AllHeld window L allowed (m.setObj r s) where
  ceiling := h.ceiling
  held s' hs' := by
    rcases List.mem_or_eq_of_mem_set hs' with hs' | rfl
    · exact h.held s' hs'
    · exact hs

theorem AllHeld.append (h : AllHeld window L allowed m) (hs : Held window L allowed s)
    (ho : m'.objs = m.objs ++ [s]) (hw : m'.maxRecvBytes = m.maxRecvBytes) :
    AllHeld window L allowed m' where
  ceiling := hw.trans h.ceiling
  held s' hs' := by
    rw [ho, List.mem_append, List.mem_singleton] at hs'
    rcases hs' with hs' | rfl
    · exact h.held s' hs'
    · exact hs

/-- `failAll`. -/
theorem AllHeld.markDefunct (h : AllHeld window L allowed m) (err : WsStatusError) :
    AllHeld window L allowed (m.markDefunct err) where
  ceiling := h.ceiling
  held := Visit.forall_mem_foldl_modify (fun _ hs => hs.endError _ _) m.streams.entries h.held

theorem AllHeld.fail (h : AllHeld window L allowed m) (err : WsStatusError) :
    AllHeld window L allowed (m.fail err) := by
  refine AllHeld.markDefunct ?_ err
  exact h.congr rfl rfl

theorem AllHeld.write (h : AllHeld window L allowed m) (size : Frame → ℕ) (f : Frame) :
    AllHeld window L allowed (m.writeFrame size f).1 := by
  unfold Mux.writeFrame
  split_ifs
  · exact h
  · exact h.congr rfl rfl
  · exact h.fail _
  · exact h.congr rfl rfl

/-- `abort`: the stream has finished when its queue fails. -/
theorem AllHeld.abort (h : AllHeld window L allowed m) (hwf : m.WF) (size : Frame → ℕ) (r : Ref)
    (err : Option WsStatusError) : AllHeld window L allowed (m.abort size r err).1 := by
  rcases abort_cases size hwf r err with ⟨-, heq, -⟩ | ⟨s, m₁, hs, -, rfl, hstop, heq, -⟩
  · rw [heq]
    exact h
  · have hheld : Held window L allowed s.stop := (h.obj hs).congr rfl rfl rfl fun hf => nomatch hf
    have hwrite := (h.setObj (r := r) hheld).write size s.rstFrame
    rw [heq]
    exact (hwrite.setObj (r := r) (hheld.settled rfl err)).congr rfl rfl

theorem AllHeld.openStream (h : AllHeld window L allowed m) (hpos : 0 ≤ window)
    (size : Frame → ℕ) (method : Text) (headers : Headers) :
    AllHeld window L allowed (m.openStream size method headers).1 := by
  have hnew : Held window L allowed
      (newStreamImpl (UInt32.ofNat m.nextId) m.initialWindow m.maxSendBuffer) :=
    held_new hpos _ _ _
  unfold Mux.openStream
  dsimp only
  split_ifs
  · exact h.append (hnew.endError _ _) rfl rfl
  · refine AllHeld.write ?_ size _
    exact h.append hnew rfl rfl

/-- A terminal frame. -/
theorem AllHeld.ended (h : AllHeld window L allowed m) (hwf : m.WF) (f : Frame) :
    AllHeld window L allowed (m.endWith f (ending f)) := by
  unfold Mux.endWith
  split
  · exact h.congr rfl rfl
  · rename_i r s hfind
    have hs := h.obj (hwf.find_eq_some hfind).2.1
    have hend : Held window L allowed (ending f s) := by
      unfold ending
      split_ifs
      · cases statusErrorFromProto f.status with
        | none => exact hs.endOk _
        | some e => exact hs.endError _ _
      · exact hs.endError _ _
    exact (h.setObj (r := r) hend).congr rfl rfl

/-- A change of a stream that writes nothing. -/
theorem Held.touch (h : Held window L allowed s) {m₀ : Mux} {a : Act}
    (hL : ∀ n, allowed n → n ≤ L) (ha : ∀ x, Sized allowed x a) (h₀ : m₀.maxRecvBytes = window)
    (ht : Touch m₀ a r s s') : Held window L allowed s' := by
  cases ht with
  | enqueue | credit | header => exact h.congr rfl rfl rfl id
  | recv => exact h.recv
  | resume _ hy => exact h.resume hy
  | message hmsg hk _ hroom =>
      subst hmsg
      exact h.pushMsg hL (ha { mux := m₀ } hk) (h₀ ▸ hroom)

/-- A change of a stream that comes with a frame. -/
theorem Held.speaks (h : Held window L allowed s) {a : Act} {f : Frame} (ht : Speaks a r s f s') :
    Held window L allowed s' := by
  cases ht with
  | msg hshift =>
      unfold StreamImpl.shift at hshift
      split at hshift
      · cases hshift
      · obtain ⟨-, hshift⟩ := Option.ite_none_right_eq_some.1 hshift
        cases hshift
        exact h.congr rfl rfl rfl id
  | update _ hy => exact h.resume hy
  | halfClose => exact h.congr rfl rfl rfl id

/-- **Every move** keeps the backlogs within their windows. -/
theorem AllHeld.turn {fs accepted : List Frame} {m₀ : Mux} {a : Act}
    (hsound : Sound size m accepted) (h : AllHeld window L allowed m) (hpos : 0 ≤ window)
    (hL : ∀ n, allowed n → n ≤ L) (ha : ∀ x, Sized allowed x a) (h₀ : m₀.maxRecvBytes = window)
    (ht : Turn size m₀ a m fs m') : AllHeld window L allowed m' := by
  cases ht with
  | set hs htouch => exact h.setObj ((h.obj hs).touch hL ha h₀ htouch)
  | write hs _ hspeaks => exact (h.setObj ((h.obj hs).speaks hspeaks)).write size _
  | abort _ _ => exact h.abort hsound.books.wf size _ _
  | leave | flush => exact h.congr rfl rfl
  | ended _ _ => exact h.ended hsound.books.wf _
  | opens _ _ => exact h.openStream hpos size _ _
  | fails _ _ =>
      refine AllHeld.markDefunct ?_ _
      exact h.congr rfl rfl

/-- What an event does. -/
theorem AllHeld.call {accepted : List Frame} (hsound : Sound size m accepted)
    (h : AllHeld window L allowed m) (hpos : 0 ≤ window) (hL : ∀ n, allowed n → n ≤ L) {a : Act}
    {y : Mux × Option WsStatusError} (ha : ∀ x, Sized allowed x a)
    (hy : call size m a = some y) : AllHeld window L allowed y.1 :=
  (((sound_kept size m a).and (Q := fun m _ => AllHeld window L allowed m)
    fun hs hh => hh.turn hs hpos hL ha h.ceiling).call ⟨hsound, h⟩ hy).2.2

/-! ## Whole runs -/

theorem positiveOr_pos (W : ℤ) : 0 < positiveOr W defaultInitialWindow := by
  rw [positiveOr]
  split
  · assumption
  · decide

theorem allHeld_start (W B F : ℤ) (ready : Bool) (got : Option Text) :
    AllHeld (positiveOr W defaultInitialWindow) L allowed (Mux.new W B F ready got) := by
  have hbare : ∀ m : Mux, m.objs = [] → m.maxRecvBytes = positiveOr W defaultInitialWindow →
      AllHeld (positiveOr W defaultInitialWindow) L allowed m := by
    intro m ho hw
    refine ⟨hw, ?_⟩
    rw [ho]
    exact fun s hs => nomatch hs
  unfold Mux.new
  dsimp only
  split_ifs
  · split
    · exact (hbare _ rfl rfl).fail _
    · exact hbare _ rfl rfl
  · exact hbare _ rfl rfl

/-- **The backlog in every run**: in every state, the bytes in the queue of every stream
exceed the window by one message at most. -/
theorem held_of_reach (size : Frame → ℕ) (W B F : ℤ) (ready : Bool) (got : Option Text)
    (hL : ∀ n, allowed n → n ≤ L) {x : Session}
    (h : Reach (Session.step size) (Sized allowed) (Session.start W B F ready got) x) :
    AllHeld (positiveOr W defaultInitialWindow) L allowed x.mux := by
  refine (h.invariant (P := fun x => Sound size x.mux x.accepted ∧
    AllHeld (positiveOr W defaultInitialWindow) L allowed x.mux)
    ⟨sound_start size W B F ready got, allHeld_start W B F ready got⟩ ?_).2
  rintro x a x' ⟨hsound, hx⟩ ha hstep
  obtain ⟨y, hy, rfl⟩ := Option.map_eq_some_iff.1 hstep
  exact ⟨(hsound.call hy).2, hx.call hsound (positiveOr_pos W).le hL (fun _ => ha) hy⟩

/-! ## A flood of empty messages -/

/-- A message without payload. -/
def emptyMsg : Frame := { streamId := 1, kind := .kindMsg }

/-- The stream 1 is registered, and holds `n` messages of no bytes. -/
def Flooded (n : ℕ) (x : Session) : Prop :=
  ∃ s, x.mux.maxFrameBytes = 0 ∧ 0 ≤ x.mux.maxRecvBytes ∧ x.mux.find 1 = some (0, s) ∧
    s.bufferedBytes = 0 ∧ s.inbound.ended = false ∧ s.inbound.error = none ∧
    s.inbound.waiters = 0 ∧ s.inbound.values.length = n

/-- An empty message is never over the window, and stays. -/
theorem Flooded.message {n : ℕ} {x : Session} (h : Flooded n x) (size : Frame → ℕ) :
    ∃ x', x.step size (.message 0 (some emptyMsg)) = some x' ∧ Flooded (n + 1) x' := by
  obtain ⟨s, hframe, hmax, hfind, hbytes, hended, herror, hwaiters, hlen⟩ := h
  have hover : ¬ x.mux.maxRecvBytes < s.bufferedBytes := by omega
  have hpush : s.pushMsg [] = { s.resolveLeading ∅ with
      bufferedBytes := 0
      inbound := { s.inbound with values := s.inbound.values ++ [[]] } } := by
    simp [StreamImpl.pushMsg, AsyncQueue.push, hended, herror, hwaiters, hbytes]
  have hroute : (x.mux.handleMessage size 0 (some emptyMsg)).1 =
      x.mux.setObj 0 (s.pushMsg []) := by
    simp only [Mux.handleMessage, hframe, lt_irrefl, false_and, if_false, Mux.route, emptyMsg,
      hfind, hover]
  refine ⟨_, rfl, ?_⟩
  simp only [Flooded, hroute]
  refine ⟨s.pushMsg [], hframe, hmax, ?_, ?_, ?_, ?_, ?_, ?_⟩
  · obtain ⟨q, hq, hfind⟩ := Option.bind_eq_some_iff.1 hfind
    obtain ⟨u, hu, heq⟩ := Option.map_eq_some_iff.1 hfind
    cases heq
    simp only [Mux.find, Mux.setObj] at hq ⊢
    rw [hq]
    simp [(List.getElem?_eq_some_iff.1 hu).1]
  · rw [hpush]
  · rw [hpush]; exact hended
  · rw [hpush]; exact herror
  · rw [hpush]; exact hwaiters
  · rw [hpush]; simp [hlen]

/-- **The count has no bound** where messages may be empty. -/
theorem exists_flooded (size : Frame → ℕ) (h₀ : allowed 0) (W B : ℤ) (n : ℕ) :
    ∃ x, Reach (Session.step size) (Sized allowed) (Session.start W B 0 true none) x ∧
      Flooded n x := by
  have hopen : (Session.start W B 0 true none).step size (.openStream .empty ∅ none) = some
      { mux := Mux.startOne size .empty ∅ W B
        accepted := [(Mux.new W B 0 true none).openFrame .empty ∅] } := rfl
  have hok : Sized allowed (Session.start W B 0 true none) (.openStream .empty ∅ none) := trivial
  refine (Reach.refl.tail hok hopen).climb (P := Flooded) ?_ ?_ n
  · refine ⟨_, rfl, (positiveOr_pos W).le, rfl, rfl, rfl, rfl, rfl, rfl⟩
  · intro n x hx
    obtain ⟨x', hstep, hx'⟩ := hx.message size
    exact ⟨.message 0 (some emptyMsg), x', fun _ => h₀, hstep, hx'⟩

/-! ## The reset -/

theorem sound_of_reach (size : Frame → ℕ) (W B F : ℤ) (ready : Bool) (got : Option Text)
    {x : Session}
    (h : Reach (Session.step size) (Sized allowed) (Session.start W B F ready got) x) :
    Sound size x.mux x.accepted := by
  refine h.invariant (P := fun x => Sound size x.mux x.accepted)
    (sound_start size W B F ready got) ?_
  intro x a x' hx _ hstep
  obtain ⟨y, hy, rfl⟩ := Option.map_eq_some_iff.1 hstep
  exact (hx.call hy).2

/-- `abort` of a live stream: its queue fails with the error, and the RST is written unless
it does not fit into the buffer of a socket that is not open, which fails the mux. -/
theorem abort_live {accepted : List Frame} (h : Sound size m accepted) (hs : m.objs[r]? = some s)
    (hlive : s.finished = false) (herror : s.inbound.error = none) (e : WsStatusError) :
    (∃ t, (m.abort size r (some e)).1.objs[r]? = some t ∧ t.finished = true ∧
      t.inbound.error = some e) ∧
    ((m.abort size r (some e)).1.defunct = true ∨
      (m.abort size r (some e)).1.out = m.out ++ [s.rstFrame]) := by
  have hwf : (m.setObj r s.stop).WF := h.books.wf.setObj hs rfl fun _ => rfl
  have hd : (m.setObj r s.stop).defunct = false := h.books.wf.not_defunct hs hlive
  obtain ⟨-, hcase⟩ := (m.setObj r s.stop).writeFrame_spec size hd hwf.buffer s.rstFrame
  have hsettled : (s.stop.settle (some e)).inbound.error = some e := by
    have hinbound : (s.stop.resolveHeaders s.headers).inbound = s.inbound := by
      rw [StreamImpl.resolveHeaders]
      split_ifs <;> rfl
    show ((s.stop.resolveHeaders s.headers).inbound.fail e).error = some e
    rw [hinbound, AsyncQueue.fail, herror]
    rfl
  rcases abort_cases size h.books.wf r (some e) with
    ⟨hdone, -⟩ | ⟨s₁, m₁, hs₁, -, rfl, hstop, heq, -⟩
  · rw [hdone s hs] at hlive
    cases hlive
  · obtain rfl : s = s₁ := Option.some.inj (hs.symm.trans hs₁)
    rw [heq]
    refine ⟨⟨_, Mux.getElem?_setObj hstop _, (s.stop.settle_follows _).finished rfl, hsettled⟩, ?_⟩
    rcases hcase with hacc | hfail
    · exact .inr hacc.out
    · left
      rw [hfail]
      rfl

/-- **A message that finds the counter over the window** resets the stream: nothing is
thrown, the stream leaves the registry, its receivers get ResourceExhausted, and the peer an
RST, unless the mux fails. -/
theorem route_over {accepted : List Frame} (h : Sound size m accepted)
    (hheld : AllHeld window L allowed m) {f : Frame} (hmsg : f.kind = .kindMsg)
    (hfind : m.find f.streamId = some (r, s)) (hover : window < s.bufferedBytes) :
    (m.route size f).2 = none ∧ (m.route size f).1.streams.lookup f.streamId = none ∧
      (∃ t, (m.route size f).1.objs[r]? = some t ∧ t.finished = true ∧
        t.inbound.error = some receiveOverflow) ∧
      ((m.route size f).1.defunct = true ∨ (m.route size f).1.out = m.out ++ [s.rstFrame]) := by
  obtain ⟨hl, hs, -⟩ := h.books.wf.find_eq_some hfind
  have hlive := h.tidy _ _ _ hl hs
  obtain ⟨⟨t, ht, hfin, herror⟩, hrst⟩ :=
    abort_live h hs hlive ((hheld.obj hs).live hlive) receiveOverflow
  have hthrow := abort_silent size h.books.wf r (some receiveOverflow)
  have hmax : m.maxRecvBytes < s.bufferedBytes := by rw [hheld.ceiling]; exact hover
  unfold Mux.route
  simp only [hmsg, hfind, if_pos hmax]
  cases ha : m.abort size r (some receiveOverflow) with
  | mk m' e =>
      rw [ha] at hthrow ht hrst
      cases hthrow
      exact ⟨rfl, AList.lookup_erase _ _, ⟨t, ht, hfin, herror⟩, hrst⟩

end WsProto.Ts.Backlog
