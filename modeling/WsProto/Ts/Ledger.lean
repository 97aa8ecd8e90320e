import WsProto.Lib.Run
import WsProto.Ts.Turns

/-!
# The books of a TypeScript mux

A mux with any number of streams, under any sequence of calls and socket events.  A
ghost lists the frames `writeFrame` has accepted, so that the frames given to `ws.send`
can be held against them.

* `Books` — what holds also in the middle of a method: the pre-open buffer is counted and
  capped, a defunct mux holds nothing, and the frames that went out are those that were
  accepted;
* `Tidy` — what holds between two events: a registered stream has not finished;
* `books_balance` — both in every run, and that no call of `writeFrame` ever throws.

`encodeFrame` rejects an id or a delta beyond 32 bits before `writeFrame` is reached.  A
stream whose OPEN is rejected stays in the registry, and nobody else knows it; such
streams are only counted.
-/

namespace WsProto.Ts

open Machine

/-! ## The system -/

namespace Ledger

/-- A mux, what `writeFrame` has accepted, and the streams whose OPEN could not be
encoded. -/
structure Session where
  mux : Mux
  /-- Ghost: the frames accepted by `writeFrame`. -/
  accepted : List Frame := []
  /-- Streams registered under an id beyond 32 bits, which `failAll` ends. -/
  strays : ℕ := 0
  deriving DecidableEq

section System

variable (size : Frame → ℕ)

/-- The stream an event leaves behind without an id that can be encoded. -/
def stray (m : Mux) : Act → ℕ
  | .openStream _ _ _ => if m.nextId < 2 ^ 32 then 0 else 1
  | _ => 0

def Session.step (x : Session) (a : Act) : Option Session :=
  (call size x.mux a).map fun y =>
    { mux := y.1
      accepted := x.accepted ++ log size x.mux a
      strays := if y.1.defunct then 0 else x.strays + stray x.mux a }

end System

/-- A fresh mux over a socket that is not open yet, or already is. -/
def Session.start (initialWindow maxSendBuffer maxFrameBytes : ℤ) (ready : Bool)
    (got : Option Text) : Session :=
  { mux := .new initialWindow maxSendBuffer maxFrameBytes ready got }

/-! ## The invariants -/

/-- The books of a mux that has accepted the frames `L`. -/
structure Books (size : Frame → ℕ) (m : Mux) (L : List Frame) : Prop where
  wf : m.WF
  counted : m.sendBufferBytes = (m.sendBuffer.map fun f => (size f : ℤ)).sum
  capped : m.sendBufferBytes ≤ maxPreopenBufferBytes
  empty : m.defunct = true → m.sendBuffer = []
  kept : m.defunct = false → m.out = L
  flushed : m.opened = true → m.sent = L
  part : m.sent <+: L

/-- A registered stream has not finished. -/
def Tidy (m : Mux) : Prop :=
  ∀ (id : UInt32) (r : Ref) (s : StreamImpl), m.streams.lookup id = some r →
    m.objs[r]? = some s → s.finished = false

variable {size : Frame → ℕ} {m m' : Mux} {L : List Frame} {r : Ref} {s s' : StreamImpl} {f : Frame}

/-! ### The pieces of a method -/

theorem Books.setObj (h : Books size m L) (hs : m.objs[r]? = some s) (hid : s'.id = s.id)
    (hfin : s.finished = true → s'.finished = true) : Books size (m.setObj r s') L :=
  { h with wf := h.wf.setObj hs hid hfin }

theorem Books.delete (h : Books size m L) {id : UInt32}
    (hid : ∀ (r : Ref) (s : StreamImpl), m.objs[r]? = some s → s.id = id → s.finished = true) :
    Books size (m.delete id) L :=
  { h with wf := h.wf.delete hid }

theorem Books.markDefunct (h : Books size m L) (err : WsStatusError) (c d : Bool)
    (hcd : (c || d) = true) : Books size ({ m with closed := c, dead := d }.markDefunct err) L where
  wf := by
    rw [Mux.markDefunct_flags]
    exact { h.wf.markDefunct err with defunct := fun _ => rfl }
  counted := rfl
  capped := by
    show (0 : ℤ) ≤ maxPreopenBufferBytes
    decide
  empty _ := rfl
  kept hd := by
    have hd' : (c || d) = false := hd
    rw [hcd] at hd'
    cases hd'
  flushed := h.flushed
  part := h.part

/-- **A write on a live mux**: the books record what it takes. -/
theorem Books.write (h : Books size m L) (hd : m.defunct = false)
    (hf : ∃ (r : Ref) (s : StreamImpl), m.objs[r]? = some s ∧ s.id = f.streamId) :
    Books size (m.writeFrame size f).1 (L ++ m.takes size f) := by
  have hout := h.kept hd
  have hd' : ¬ m.defunct = true := by rw [hd]; decide
  by_cases ho : m.opened = true
  · have hnil : m.sendBuffer = [] := h.wf.buffer ho
    have hsent := h.flushed ho
    have hwf : ({ m with sent := m.sent ++ [f] } : Mux).WF := by
      refine h.wf.accepts ⟨?_, rfl, rfl, rfl, rfl, h.wf.buffer⟩ hf
      simp [Mux.out, hnil]
    rw [Mux.writeFrame_opened ho hd, Mux.takes, if_neg hd', if_pos ho]
    refine { h with wf := hwf, kept := fun _ => ?_, flushed := fun _ => ?_, part := ?_ }
    · rw [← hout]
      simp [Mux.out, hnil]
    · rw [← hsent]
    · rw [← hsent]
  · by_cases hover : maxPreopenBufferBytes < m.sendBufferBytes + size f
    · rw [Mux.writeFrame, if_neg hd', if_neg ho, if_pos hover, Mux.takes, if_neg hd', if_neg ho,
        if_pos hover, List.append_nil]
      exact h.markDefunct preopenOverflow true m.dead (Bool.true_or _)
    · rw [Mux.writeFrame, if_neg hd', if_neg ho, if_neg hover, Mux.takes, if_neg hd', if_neg ho,
        if_neg hover]
      have hout' : ({ m with
          sendBuffer := m.sendBuffer ++ [f]
          sendBufferBytes := m.sendBufferBytes + size f } : Mux).out = m.out ++ [f] := by
        simp [Mux.out]
      refine
        { wf := h.wf.accepts ⟨hout', rfl, rfl, rfl, rfl, fun hop => absurd hop ho⟩ hf
          counted := ?_
          capped := not_lt.1 hover
          empty := fun hdef => absurd hdef hd'
          kept := fun _ => by rw [hout', hout]
          flushed := fun hop => absurd hop ho
          part := h.part.trans (List.prefix_append _ _) }
      show m.sendBufferBytes + size f = ((m.sendBuffer ++ [f]).map _).sum
      rw [h.counted, List.map_append, List.sum_append]
      simp

theorem tidy_markDefunct (m : Mux) (err : WsStatusError) : Tidy (m.markDefunct err) := by
  intro id r s hl
  simp [Mux.markDefunct, Mux.failAll] at hl

/-- A change of a stream that does not finish it. -/
theorem Tidy.setObj (h : Tidy m) (hs : m.objs[r]? = some s)
    (hfin : s.finished = false → s'.finished = false) : Tidy (m.setObj r s') := by
  intro id q t hl ht
  obtain ⟨rfl, rfl⟩ | ⟨-, ht⟩ := Mux.of_getElem?_setObj hs ht
  · exact hfin (h id q s hl hs)
  · exact h id q t hl ht

/-- In the middle of `abort`: the stream `q` has finished and is still registered. -/
def TidyExcept (m : Mux) (q : Ref) : Prop :=
  ∀ (id : UInt32) (r : Ref) (s : StreamImpl), r ≠ q → m.streams.lookup id = some r →
    m.objs[r]? = some s → s.finished = false

theorem Tidy.setExcept (h : Tidy m) (r : Ref) (s' : StreamImpl) : TidyExcept (m.setObj r s') r := by
  intro id q t hq hl ht
  rw [Mux.getElem?_setObj_ne (Ne.symm hq)] at ht
  exact h id q t hl ht

theorem Tidy.write (h : Tidy m) (f : Frame) : Tidy (m.writeFrame size f).1 := by
  rcases writeFrame_streams size m f with ⟨hobjs, hstreams⟩ | hfail
  · rw [Tidy, hobjs, hstreams]
    exact h
  · rw [hfail]
    exact tidy_markDefunct _ _

variable (size) in
theorem TidyExcept.write {q : Ref} (h : TidyExcept m q) (f : Frame) :
    TidyExcept (m.writeFrame size f).1 q := by
  rcases writeFrame_streams size m f with ⟨hobjs, hstreams⟩ | hfail
  · rw [TidyExcept, hobjs, hstreams]
    exact h
  · rw [hfail]
    exact fun id r s _ hl => tidy_markDefunct _ _ id r s hl

/-- A stream that leaves the registry may have finished. -/
theorem TidyExcept.leave (h : TidyExcept m r) (hwf : m.WF) (hs : m.objs[r]? = some s) :
    Tidy ((m.delete s.id).setObj r s') := by
  intro id q t hl ht
  have hne : id ≠ s.id := by
    rintro rfl
    rw [show ((m.delete s.id).setObj r s').streams = m.streams.erase s.id from rfl,
      AList.lookup_erase] at hl
    cases hl
  have hl' : m.streams.lookup id = some q := by rw [← AList.lookup_erase_ne hne]; exact hl
  have hq : q ≠ r := by
    rintro rfl
    obtain ⟨u, hu, hid⟩ := hwf.reg id q hl'
    obtain rfl : s = u := Option.some.inj (hs.symm.trans hu)
    exact hne hid.symm
  refine h id q t hq hl' ?_
  rw [Mux.getElem?_setObj_ne (Ne.symm hq)] at ht
  exact ht

/-! ### The methods -/

/-- What a method has to keep. -/
structure Sound (size : Frame → ℕ) (m : Mux) (L : List Frame) : Prop where
  books : Books size m L
  tidy : Tidy m

theorem Sound.markDefunct (h : Sound size m L) (err : WsStatusError) (c d : Bool)
    (hcd : (c || d) = true) : Sound size ({ m with closed := c, dead := d }.markDefunct err) L :=
  ⟨h.books.markDefunct err c d hcd, tidy_markDefunct _ err⟩

/-- A change of one stream that is not its end. -/
theorem Sound.setObj (h : Sound size m L) (hs : m.objs[r]? = some s) (hid : s'.id = s.id)
    (hfin : s'.finished = s.finished) : Sound size (m.setObj r s') L :=
  ⟨h.books.setObj hs hid (by rw [hfin]; exact id), h.tidy.setObj hs (by rw [hfin]; exact id)⟩

/-- A stream that has not finished changes, and writes. -/
theorem Sound.emit (h : Sound size m L) (hs : m.objs[r]? = some s) (hlive : s.finished = false)
    (hid : s'.id = s.id) (hfin : s'.finished = s.finished) (hf : f.streamId = s.id) :
    Sound size ((m.setObj r s').writeFrame size f).1 (L ++ (m.setObj r s').takes size f) := by
  have hset := h.setObj hs hid hfin
  refine ⟨hset.books.write (h.books.wf.not_defunct hs hlive) ?_, hset.tidy.write f⟩
  exact ⟨r, s', Mux.getElem?_setObj hs s', hid.trans hf.symm⟩

/-- `cancel` and `abort`: the stream finishes, and leaves the registry after the write. -/
theorem Sound.abort (h : Sound size m L) (r : Ref) (err : Option WsStatusError) :
    Sound size (m.abort size r err).1 (L ++ m.abortLog size r) := by
  rcases abort_cases size h.books.wf r err with
    ⟨-, heq, hlog⟩ | ⟨s, m₁, hs, hfin, rfl, hstop, heq, hlog⟩
  · rw [heq, hlog, List.append_nil]
    exact h
  · rw [heq, hlog]
    have hset : Books size (m.setObj r s.stop) L := h.books.setObj hs rfl fun _ => rfl
    have hbooks := hset.write (f := s.rstFrame) (h.books.wf.not_defunct hs hfin)
      ⟨r, s.stop, Mux.getElem?_setObj hs s.stop, rfl⟩
    have htidy := (h.tidy.setExcept r s.stop).write size s.rstFrame
    have hsettle := s.stop.settle_follows err
    refine ⟨?_, htidy.leave (s := s.stop) hbooks.wf hstop⟩
    refine Books.setObj (hbooks.delete fun q u hu hid => ?_) hstop hsettle.id hsettle.finished
    obtain rfl : q = r := hbooks.wf.id_inj hu hstop hid
    obtain rfl : s.stop = u := Option.some.inj (hstop.symm.trans hu)
    rfl

/-! ### Opening and routing -/

/-- A new stream: it is registered and has not finished, or neither. -/
theorem Sound.openStream (h : Sound size m L) (hb : m.nextId < 2 ^ 32) (method : Text)
    (headers : Headers) :
    Sound size (m.openStream size method headers).1
      (L ++ m.takes size (m.openFrame method headers)) := by
  by_cases hd : m.defunct = true
  · unfold Mux.openStream
    dsimp only
    rw [if_pos hd, Mux.takes, if_pos hd, List.append_nil]
    obtain ⟨hfol, hfin⟩ := (newStreamImpl (UInt32.ofNat m.nextId) m.initialWindow
      m.maxSendBuffer).endError_follows (m.terminalError.getD connectionLost) ∅
    have hnil : m.streams = ∅ := h.books.wf.defunct hd
    refine ⟨{ h.books with wf := ?_ }, ?_⟩
    · exact h.books.wf.add hb hfol.id (fun _ _ => rfl) (by simp [hnil]) (by simp [hfin])
        h.books.wf.defunct
    · intro id r s hl
      simp [hnil] at hl
  · rw [openStream_live hd]
    have hlive : m.enlist.defunct = false := Bool.eq_false_iff.2 hd
    have hbooks : Books size m.enlist L := { h.books with wf := h.books.wf.enlist hd hb }
    have htidy : Tidy m.enlist := by
      intro id r s hl hs
      rcases Mux.getElem?_add.1 hs with hs | ⟨-, rfl⟩
      · by_cases hid : id = UInt32.ofNat m.nextId
        · subst hid
          have hr := Option.some.inj ((AList.lookup_insert _).symm.trans hl)
          rw [← hr] at hs
          simp at hs
        · exact h.tidy id r s ((AList.lookup_insert_ne hid).symm.trans hl) hs
      · rfl
    refine ⟨hbooks.write hlive ?_, htidy.write _⟩
    exact ⟨m.objs.length, _, Mux.getElem?_add.2 (Or.inr ⟨rfl, rfl⟩), rfl⟩

/-- The id of a stream that has finished leaves the registry. -/
theorem Sound.delete (h : Sound size m L) {id : UInt32}
    (hid : ∀ (r : Ref) (s : StreamImpl), m.objs[r]? = some s → s.id = id → s.finished = true) :
    Sound size (m.delete id) L := by
  refine ⟨h.books.delete hid, fun id' r s hl hs => ?_⟩
  have hne : id' ≠ id := by
    rintro rfl
    rw [show (m.delete id').streams = m.streams.erase id' from rfl, AList.lookup_erase] at hl
    cases hl
  exact h.tidy id' r s ((AList.lookup_erase_ne hne).symm.trans hl) hs

/-- A terminal frame: its stream finishes and leaves the registry. -/
theorem Sound.endWith (h : Sound size m L) (f : Frame) (g : StreamImpl → StreamImpl)
    (hfol : ∀ s : StreamImpl, s.Follows (g s) ∧ (g s).finished = true) :
    Sound size (m.endWith f g) L := by
  unfold Mux.endWith
  cases hfind : m.find f.streamId with
  | none =>
      refine h.delete fun r s hs hid => ?_
      by_contra hne
      have hl := h.books.wf.live r s hs (by simpa using hne)
      rw [hid] at hl
      simp [Mux.find, hl, hs] at hfind
  | some y =>
      obtain ⟨r, s⟩ := y
      obtain ⟨-, hs, hid⟩ := h.books.wf.find_eq_some hfind
      have hexcept : TidyExcept m r := fun id q t _ hl ht => h.tidy id q t hl ht
      have hset := h.books.setObj hs (hfol s).1.id (hfol s).1.finished
      have hnew := Mux.getElem?_setObj hs (g s)
      dsimp only
      rw [← hid]
      refine ⟨?_, hexcept.leave h.books.wf hs⟩
      -- finishing the stream and letting go of it commute
      show Books size ((m.setObj r (g s)).delete s.id) L
      refine hset.delete fun q t ht hidt => ?_
      obtain rfl : q = r := hset.wf.id_inj ht hnew (hidt.trans (hfol s).1.id.symm)
      obtain rfl : g s = t := Option.some.inj (hnew.symm.trans ht)
      exact (hfol s).2

/-- The socket opens: the same frames, now all of them on it. -/
theorem Sound.flush (h : Sound size m L) (hd : m.defunct = false) :
    Sound size { m with
      opened := true
      sent := m.sent ++ m.sendBuffer
      sendBuffer := []
      sendBufferBytes := 0 } L := by
  have hout := h.books.kept hd
  have hout' : ({ m with
      opened := true
      sent := m.sent ++ m.sendBuffer
      sendBuffer := []
      sendBufferBytes := 0 } : Mux).out = m.out := by
    simp [Mux.out]
  refine ⟨?_, h.tidy⟩
  exact
    { wf := { h.books.wf with
        buffer := fun _ => rfl
        frames := by rw [hout']; exact h.books.wf.frames }
      counted := rfl
      capped := by
        show (0 : ℤ) ≤ maxPreopenBufferBytes
        decide
      empty := fun _ => rfl
      kept := fun _ => hout'.trans hout
      flushed := fun _ => hout
      part := by
        show m.sent ++ m.sendBuffer <+: L
        rw [← hout]
        exact List.prefix_rfl }

/-! ## Every run -/

/-- **Every move** leaves the books in order. -/
theorem sound_kept (size : Frame → ℕ) (m₀ : Mux) (a : Act) : Kept size m₀ a (Sound size) where
  wf h := h.books.wf
  turn h ht := by
    cases ht with
    | set hs htouch => simpa using h.setObj hs htouch.id htouch.finished
    | write hs hlive hspeaks => exact h.emit hs hlive hspeaks.id hspeaks.finished hspeaks.streamId
    | abort _ _ => exact h.abort _ _
    | leave hs hfin =>
        rw [List.append_nil]
        refine h.delete fun q u hu hid => ?_
        obtain rfl := h.books.wf.id_inj hu hs hid
        obtain rfl := Option.some.inj (hs.symm.trans hu)
        exact hfin
    | ended _ _ => simpa using h.endWith _ _ (ending_follows _)
    | opens _ hb => exact h.openStream hb _ _
    | flush _ hd => simpa using h.flush hd
    | fails hcd _ => simpa using h.markDefunct _ _ _ hcd

/-- **An event** throws nothing, and leaves the books in order. -/
theorem Sound.call (h : Sound size m L) {a : Act} {y : Mux × Option WsStatusError}
    (hy : call size m a = some y) : y.2 = none ∧ Sound size y.1 (L ++ log size m a) :=
  (sound_kept size m a).call h hy

theorem sound_start (size : Frame → ℕ) (W B F : ℤ) (ready : Bool) (got : Option Text) :
    Sound size (Session.start W B F ready got).mux [] := by
  have hempty : ∀ m : Mux, m.objs = [] → m.nextId = 1 → m.streams = ∅ → m.sent = [] →
      m.sendBuffer = [] → m.sendBufferBytes = 0 → Sound size m [] := by
    intro m hobjs hnext hstreams hsent hbuf hbytes
    refine ⟨?_, by simp [Tidy, hobjs]⟩
    exact
      { wf := .of_empty hobjs hnext hstreams hsent hbuf
        counted := by rw [hbytes, hbuf]; rfl
        capped := by rw [hbytes]; decide
        empty := fun _ => hbuf
        kept := fun _ => by rw [Mux.out, hsent, hbuf]; rfl
        flushed := fun _ => hsent
        part := by rw [hsent] }
  unfold Session.start Mux.new
  dsimp only
  split
  · split <;> exact hempty _ rfl rfl rfl rfl rfl rfl
  · exact hempty _ rfl rfl rfl rfl rfl rfl

/-- The books of a session between two events. -/
structure Balanced (size : Frame → ℕ) (x : Session) : Prop where
  /-- A stream is in the registry under its id if and only if it has not finished. -/
  registered : ∀ (r : Ref) (s : StreamImpl), x.mux.objs[r]? = some s →
    (x.mux.streams.lookup s.id = some r ↔ s.finished = false)
  /-- A mux that is closed or dead holds nothing. -/
  released : x.mux.defunct = true →
    x.mux.streams = ∅ ∧ x.strays = 0 ∧ x.mux.sendBuffer = [] ∧ x.mux.sendBufferBytes = 0
  counted : x.mux.sendBufferBytes = (x.mux.sendBuffer.map fun f => (size f : ℤ)).sum
  capped : x.mux.sendBufferBytes ≤ maxPreopenBufferBytes
  drained : x.mux.opened = true → x.mux.sendBuffer = []
  /-- What was accepted has been sent or waits for the socket to open. -/
  kept : x.mux.defunct = false → x.mux.sent ++ x.mux.sendBuffer = x.accepted
  sent : x.mux.opened = true → x.mux.sent = x.accepted
  /-- A mux that never opened has sent a part of it. -/
  part : x.mux.sent <+: x.accepted
  /-- `writeFrame` does not throw, whatever is called next. -/
  silent : ∀ a y, call size x.mux a = some y → y.2 = none

theorem Sound.balanced {x : Session} (h : Sound size x.mux x.accepted)
    (hstray : x.mux.defunct = true → x.strays = 0) : Balanced size x where
  registered r s hs := by
    constructor
    · exact fun hl => h.tidy s.id r s hl hs
    · exact h.books.wf.live r s hs
  released hd := by
    have hnil := h.books.empty hd
    refine ⟨h.books.wf.defunct hd, hstray hd, hnil, ?_⟩
    rw [h.books.counted, hnil]
    rfl
  counted := h.books.counted
  capped := h.books.capped
  drained := h.books.wf.buffer
  kept := h.books.kept
  sent := h.books.flushed
  part := h.books.part
  silent _ _ hy := (h.call hy).1

/-- **The books balance**, in every state that any sequence of calls and socket events
reaches. -/
theorem books_balance (size : Frame → ℕ) (W B F : ℤ) (ready : Bool) (got : Option Text)
    {x : Session} (h : Reach (Session.step size) Always (Session.start W B F ready got) x) :
    Balanced size x := by
  have hinv : Sound size x.mux x.accepted ∧ (x.mux.defunct = true → x.strays = 0) := by
    refine h.invariant
      (P := fun x => Sound size x.mux x.accepted ∧ (x.mux.defunct = true → x.strays = 0))
      ⟨sound_start size W B F ready got, fun _ => rfl⟩ ?_
    rintro x a x' ⟨hsound, -⟩ - hstep
    obtain ⟨y, hy, rfl⟩ := Option.map_eq_some_iff.1 hstep
    exact ⟨(hsound.call hy).2, fun hd => if_pos hd⟩
  exact hinv.1.balanced hinv.2

/-- Two streams are opened and one of them is cancelled before the socket opens. -/
theorem books_balance_cancelled :
    ∃ x, Reach (Session.step fun _ => 9) Always (Session.start 0 0 0 false none) x ∧
      x.mux.objs.length = 2 ∧ x.accepted.length = 3 ∧ x.mux.sent = x.accepted ∧
      Balanced (fun _ => 9) x := by
  obtain ⟨x, hx, hp⟩ := exists_reach_of_exec (Session.step fun _ => 9) Always
    (Session.start 0 0 0 false none)
    (fun x : Session => decide (x.mux.opened = true ∧ x.mux.objs.length = 2 ∧
      x.accepted.length = 3))
    [.openStream .empty ∅ none, .openStream .empty ∅ none, .abort 0 none, .onopen none] (by decide)
  simp only [decide_eq_true_eq] at hp
  obtain ⟨hopen, hobjs, hlen⟩ := hp
  have hbal := books_balance (fun _ => 9) 0 0 0 false none hx
  exact ⟨x, hx, hobjs, hlen, hbal.sent hopen, hbal⟩

end Ledger

end WsProto.Ts
