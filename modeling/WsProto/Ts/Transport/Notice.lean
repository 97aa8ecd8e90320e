import WsProto.Ts.Transport.Model

/-!
# What a mux tells its transport

The transport knows its mux by the hooks the mux calls.  `call_reports` says that they
tell the truth about the mux's flags: a live mux that calls no hook is as open as it was
and still live; one that calls `open` is open; one that calls `drop` is gone, and it is
closed exactly if the failure is a permanent one.
-/

namespace WsProto.Ts.Transport

/-! ## The flags of a mux -/

/-- What the methods of a stream can do to the flags: fail the mux. -/
structure Keeps (m m' : Mux) : Prop where
  opened : m'.opened = m.opened
  dead : m'.dead = m.dead
  closed : m.closed = true → m'.closed = true

theorem Keeps.refl (m : Mux) : Keeps m m := ⟨rfl, rfl, id⟩

theorem Keeps.trans {m m' m'' : Mux} (h : Keeps m m') (h' : Keeps m' m'') : Keeps m m'' :=
  ⟨h'.opened.trans h.opened, h'.dead.trans h.dead, h'.closed ∘ h.closed⟩

section Methods

variable (size : Frame → ℕ) {m : Mux} {r : Ref}

theorem keeps_writeFrame (m : Mux) (f : Frame) : Keeps m (m.writeFrame size f).1 := by
  unfold Mux.writeFrame
  split_ifs
  · exact .refl m
  · exact ⟨rfl, rfl, id⟩
  · exact ⟨rfl, rfl, fun _ => rfl⟩
  · exact ⟨rfl, rfl, id⟩

/-- A change of one stream, and a write. -/
theorem keeps_emit (m : Mux) (r : Ref) (s : StreamImpl) (f : Frame) :
    Keeps m ((m.setObj r s).writeFrame size f).1 := by
  have h := keeps_writeFrame size (m.setObj r s) f
  exact ⟨h.opened, h.dead, h.closed⟩

theorem keeps_pumpTurns (n : ℕ) : ∀ m : Mux, Keeps m (m.pumpTurns size n r).1 := by
  induction n with
  | zero => exact .refl
  | succ n ih =>
      intro m
      unfold Mux.pumpTurns
      split
      · exact .refl m
      · rename_i s _
        split
        · exact .refl m
        · rename_i payload s' _
          have hw := keeps_emit size m r s' (s.msgFrame payload)
          split
          · rename_i m' e heq
            rw [heq] at hw
            exact hw
          · rename_i m' heq
            rw [heq] at hw
            exact hw.trans (ih m')

theorem keeps_pump (m : Mux) (r : Ref) : Keeps m (m.pump size r).1 := by
  unfold Mux.pump
  split
  · exact .refl m
  · exact keeps_pumpTurns size _ m

theorem keeps_abort (m : Mux) (r : Ref) (err : Option WsStatusError) :
    Keeps m (m.abort size r err).1 := by
  unfold Mux.abort
  split
  · exact .refl m
  · rename_i s _
    have hw := keeps_emit size m r s.stop s.rstFrame
    split
    · exact .refl m
    · split
      · rename_i m' e heq
        rw [heq] at hw
        exact hw
      · rename_i m' heq
        rw [heq] at hw
        exact ⟨hw.opened, hw.dead, hw.closed⟩

theorem keeps_send (m : Mux) (r : Ref) (payload : Payload) : Keeps m (m.send size r payload).1 := by
  unfold Mux.send
  split
  · exact .refl m
  · rename_i s _
    split_ifs
    · exact .refl m
    · exact keeps_abort size m r _
    · have h := keeps_pump size (m.setObj r (s.enqueue payload)) r
      exact ⟨h.opened, h.dead, h.closed⟩

theorem keeps_creditSend (m : Mux) (r : Ref) (delta : ℤ) :
    Keeps m (m.creditSend size r delta).1 := by
  unfold Mux.creditSend
  split
  · exact .refl m
  · rename_i s _
    split_ifs
    · exact .refl m
    · have h := keeps_pump size
        (m.setObj r { s with sendWindow := s.sendWindow + delta }) r
      exact ⟨h.opened, h.dead, h.closed⟩

theorem keeps_closeSend (m : Mux) (r : Ref) : Keeps m (m.closeSend size r).1 := by
  unfold Mux.closeSend
  split
  · exact .refl m
  · split_ifs
    · exact .refl m
    · exact keeps_emit size m r _ _

theorem keeps_resume {y : Mux × Option WsStatusError} (h : m.resume size r = some y) :
    Keeps m y.1 := by
  unfold Mux.resume at h
  obtain ⟨s, -, h⟩ := Option.bind_eq_some_iff.1 h
  obtain ⟨z, -, rfl⟩ := Option.map_eq_some_iff.1 h
  split
  · exact ⟨rfl, rfl, id⟩
  · split_ifs
    · exact keeps_emit size m r _ _
    · exact ⟨rfl, rfl, id⟩

theorem keeps_openStream (m : Mux) (method : Text) (headers : Headers) :
    Keeps m (m.openStream size method headers).1 := by
  unfold Mux.openStream
  dsimp only
  split_ifs
  · exact ⟨rfl, rfl, id⟩
  · refine Keeps.trans ?_ (keeps_writeFrame size _ _)
    exact ⟨rfl, rfl, id⟩

theorem keeps_openWith (m : Mux) (method : Text) (headers : Headers)
    (aborted : Option WsStatusError) : Keeps m (m.openWith size method headers aborted).1 := by
  have hopen := keeps_openStream size m method headers
  unfold Mux.openWith
  split
  · rename_i m' e heq
    rw [heq] at hopen
    exact hopen
  · rename_i m' heq
    rw [heq] at hopen
    split
    · exact hopen
    · exact hopen.trans (keeps_abort size m' _ _)

theorem keeps_endWith (m : Mux) (f : Frame) (g : StreamImpl → StreamImpl) :
    Keeps m (m.endWith f g) := by
  unfold Mux.endWith
  split <;> exact ⟨rfl, rfl, id⟩

theorem keeps_route (m : Mux) (f : Frame) : Keeps m (m.route size f).1 := by
  unfold Mux.route
  split
  · split
    · exact .refl m
    · exact ⟨rfl, rfl, id⟩
  · split
    · exact .refl m
    · exact keeps_creditSend size m _ _
  · split
    · exact .refl m
    · rename_i r s _
      split_ifs
      · have habort := keeps_abort size m r (some receiveOverflow)
        split
        · rename_i m' e heq
          rw [heq] at habort
          exact habort
        · rename_i m' heq
          rw [heq] at habort
          exact ⟨habort.opened, habort.dead, habort.closed⟩
      · exact ⟨rfl, rfl, id⟩
  · exact keeps_endWith m f _
  · exact keeps_endWith m f _
  · exact .refl m

end Methods

/-! ## The hooks -/

variable {size : Frame → ℕ} {m m' : Mux}

/-- What a hook, or none, says about the mux that a live mux has become. -/
def Reports (m m' : Mux) : Option Notice → Prop
  | none => m'.opened = m.opened ∧ m'.closed = false ∧ m'.dead = false
  | some .opened => m'.opened = true ∧ m'.closed = false ∧ m'.dead = false
  | some (.drop _ redial) => m'.defunct = true ∧ m'.closed = !redial

theorem defunct_eq_false : m.defunct = false ↔ m.closed = false ∧ m.dead = false :=
  Bool.or_eq_false_iff

/-- The methods that can only overflow the pre-open buffer. -/
theorem Keeps.reports (h : Keeps m m') (hd : m.defunct = false) :
    Reports m m'
      (if m.closed = false ∧ m'.closed then some (.drop preopenOverflow false) else none) := by
  obtain ⟨hc, hdead⟩ := defunct_eq_false.1 hd
  cases hc' : m'.closed with
  | true =>
      rw [if_pos ⟨hc, rfl⟩]
      refine ⟨?_, hc'⟩
      rw [Mux.defunct, hc', Bool.true_or]
  | false =>
      rw [if_neg (by simp)]
      exact ⟨h.opened, hc', h.dead.trans hdead⟩

theorem Keeps.defunct (h : Keeps m m') (hd : m.defunct = true) : m'.defunct = true := by
  rw [Mux.defunct, Bool.or_eq_true] at hd ⊢
  exact hd.imp h.closed (by rw [h.dead]; exact id)

/-- **The hooks of a mux tell the truth**, for every event but `close`, which calls
none. -/
theorem call_reports {a : Ledger.Act} {y : Mux × Option WsStatusError}
    (hy : Ledger.call size m a = some y) (ha : ∀ err, a ≠ .close err) :
    (m.defunct = true → y.1.defunct = true) ∧
      (m.defunct = false → Reports m y.1 (notice m a y.1)) := by
  have hkeeps : ∀ {m' : Mux}, Keeps m m' → (m.defunct = true → m'.defunct = true) ∧
      (m.defunct = false → Reports m m'
        (if m.closed = false ∧ m'.closed then some (.drop preopenOverflow false) else none)) :=
    fun h => ⟨h.defunct, h.reports⟩
  cases a with
  | close err => exact absurd rfl (ha err)
  | openStream method headers aborted =>
      cases hy
      refine hkeeps ?_
      split_ifs
      · exact keeps_openWith size m method headers aborted
      · exact .refl m
  | send r payload => cases hy; exact hkeeps (keeps_send size m r payload)
  | closeSend r => cases hy; exact hkeeps (keeps_closeSend size m r)
  | abort r err => cases hy; exact hkeeps (keeps_abort size m r err)
  | recv r => cases hy; exact hkeeps ⟨rfl, rfl, id⟩
  | resume r => exact hkeeps (keeps_resume size hy)
  | message len f =>
      cases hy
      simp only [notice]
      unfold Mux.handleMessage
      by_cases hbig : 0 < m.maxFrameBytes ∧ m.maxFrameBytes < len
      · simp only [if_pos hbig]
        exact ⟨fun _ => rfl, fun _ => ⟨rfl, rfl⟩⟩
      · simp only [if_neg hbig]
        refine hkeeps ?_
        cases f with
        | none => exact .refl m
        | some f => exact keeps_route size m f
  | onopen got =>
      cases hy
      simp only [notice, Mux.onopen]
      by_cases hd : m.defunct = true
      · rw [if_pos hd, if_pos hd]
        exact ⟨id, fun h => absurd hd (by rw [h]; decide)⟩
      · rw [if_neg hd, if_neg hd]
        refine ⟨fun h => absurd h hd, fun hlive => ?_⟩
        obtain ⟨hc, hdead⟩ := defunct_eq_false.1 hlive
        cases got with
        | some p => exact ⟨rfl, rfl⟩
        | none =>
            have hc' : ¬ ({ m with opened := true } : Mux).closed = true := by
              show ¬ m.closed = true
              rw [hc]
              decide
            dsimp only
            rw [Mux.flush, if_neg hc']
            exact ⟨rfl, hc, hdead⟩
  | drop =>
      cases hy
      simp only [notice, Mux.onTransportDrop]
      by_cases hd : m.defunct = true
      · rw [if_pos hd, if_pos hd]
        exact ⟨id, fun h => absurd hd (by rw [h]; decide)⟩
      · rw [if_neg hd, if_neg hd]
        refine ⟨fun h => absurd h hd, fun hlive => ?_⟩
        refine ⟨?_, (defunct_eq_false.1 hlive).1⟩
        exact Bool.or_true _

end WsProto.Ts.Transport
