import WsProto.Ts.Terminal
import WsProto.Ts.Ledger

/-!
# What an event of a mux is to one of its streams

`Ts.Terminal` is about the calls of one stream, `Ts.Ledger` about the events of a mux with
any number of them.  Here the second is brought to the first: `callOn` says which call an
event is to a given stream, if it is one at all.  A frame is a call to the stream it is
addressed to; an event that fails the mux, of whichever stream, ends all of them.

* `Shows` — a stream has received what a mailbox says;
* `shows_call` — every event of the mux keeps that, with `callOn` applied to the mailbox;
* `shows_resume` — so does the continuation of `recv`, which may write;
* `shows_open` — a new stream starts with an empty mailbox, or has ended.
-/

namespace WsProto.Ts.ReadSide

open Machine Terminal Ledger

/-! ## The calls -/

/-- The error with which an event fails the mux, if it does. -/
def failure (m : Mux) : Act → WsStatusError
  | .drop => connectionLost
  | .close err => err
  | .onopen got => got.elim preopenOverflow wrongProtocol
  | .message len _ =>
      if 0 < m.maxFrameBytes ∧ m.maxFrameBytes < len then frameTooBig else preopenOverflow
  | _ => preopenOverflow

/-- The event fails the mux. -/
def fails (size : Frame → ℕ) (m : Mux) (a : Act) : Bool :=
  !m.defunct && (call size m a).any (·.1.defunct)

/-- What a frame is to the stream `s` it is addressed to. -/
def frameCall (m : Mux) (s : StreamImpl) (f : Frame) : Option Call :=
  match f.kind with
  | .kindHeader => some (.setLeadingHeaders (f.headers.getD ∅))
  | .kindMsg =>
      some (if m.maxRecvBytes < s.bufferedBytes then .abort receiveOverflow
        else .pushMsg f.payload)
  | .kindEnd =>
      some ((statusErrorFromProto f.status).elim (.endOk (f.headers.getD ∅))
        fun e => .endError e (f.headers.getD ∅))
  | .kindRst => some (.endError (resetError f) (f.headers.getD ∅))
  | _ => none

/-- The call an event makes on the stream `s` at `r` itself. -/
def direct (m : Mux) (r : Ref) (s : StreamImpl) : Act → Option Call
  | .send q _ =>
      if q = r ∧ (s.sendClosed || s.finished) = false ∧ s.maxSendBuffer < s.outboundBytes then
        some (.abort sendOverflow)
      else none
  | .abort q err => if q = r then some (err.elim .cancel .abort) else none
  | .recv q => if q = r then some .recv else none
  | .message len (some f) =>
      if 0 < m.maxFrameBytes ∧ m.maxFrameBytes < len then none
      else if m.streams.lookup f.streamId = some r then frameCall m s f
      else none
  | _ => none

/-- The call an event is to the stream `s` at `r`. -/
def callOn (size : Frame → ℕ) (m : Mux) (r : Ref) (s : StreamImpl) (a : Act) : Option Call :=
  (direct m r s a).or
    (if fails size m a then some (.endError (failure m a) ∅) else none)

/-- The mailbox after a call, if there was one. -/
def deliver (h : Mailbox Payload Event) (c : Option Call) : Mailbox Payload Event :=
  c.elim h (·.onBox h)

/-- What a stream has received when `openStream` returns it: nothing, or what ended it at
birth.  `aborted` is the error of a signal that is already aborted. -/
def opening (size : Frame → ℕ) (m : Mux) (method : Text) (headers : Headers)
    (aborted : Option WsStatusError) : Mailbox Payload Event :=
  if m.defunct then { outcome := some { error := m.terminalError.getD connectionLost } }
  else if (m.openStream size method headers).1.defunct then
    { outcome := some { error := preopenOverflow } }
  else { outcome := aborted.map fun e => { error := e, resets := true } }

/-! ## The part of a stream that is read -/

/-- The fields of a stream on which its reader depends. -/
structure View where
  inbound : AsyncQueue Payload
  resumed : ℕ
  finished : Bool
  headersSettled : Bool
  headers : Headers

def view (s : StreamImpl) : View :=
  ⟨s.inbound, s.resumed, s.finished, s.headersSettled, s.headers⟩

/-- The stream has received what the mailbox says. -/
structure Shows (s : StreamImpl) (h : Mailbox Payload Event) : Prop where
  inbound : s.inbound = queueOf Event.error h
  finished : s.finished = h.outcome.isSome
  settled : s.headersSettled = h.outcome.isSome
  headers : s.headers = (h.outcome.map Event.headers).getD ∅

variable {s t : StreamImpl} {h : Mailbox Payload Event}

/-- `endError`, as its reader sees it. -/
theorem view_endError_eq (s : StreamImpl) (e : WsStatusError) (hs : Headers) :
    view (s.endError e hs) =
      if s.finished then view s
      else ⟨s.inbound.fail e, s.resumed, true, true, if s.headersSettled then s.headers else hs⟩ := by
  unfold StreamImpl.endError StreamImpl.resolveHeaders StreamImpl.resolveLeading
  by_cases hfin : s.finished = true
  · rw [if_pos hfin, if_pos hfin]
  · rw [if_neg hfin, if_neg hfin]
    cases s.headersSettled <;> simp [view]

theorem endError_resumed (s : StreamImpl) (e : WsStatusError) (hs : Headers) :
    (s.endError e hs).resumed = s.resumed := by
  have hview := congrArg View.resumed (view_endError_eq s e hs)
  refine hview.trans ?_
  split_ifs <;> rfl

theorem endOk_resumed (s : StreamImpl) (hs : Headers) : (s.endOk hs).resumed = s.resumed := by
  unfold StreamImpl.endOk StreamImpl.resolveHeaders StreamImpl.resolveLeading
  cases s.finished <;> cases s.headersSettled <;> rfl

theorem view_endError (heq : view t = view s) (e : WsStatusError) (hs : Headers) :
    view (t.endError e hs) = view (s.endError e hs) := by
  have hfields := heq
  simp only [view, View.mk.injEq] at hfields
  obtain ⟨hin, hres, hfin, hset, hhead⟩ := hfields
  rw [view_endError_eq, view_endError_eq, heq, hin, hres, hfin, hset, hhead]

theorem Shows.congr (hx : Shows s h) (heq : view t = view s) : Shows t h := by
  simp only [view, View.mk.injEq] at heq
  obtain ⟨hin, -, hfin, hset, hhead⟩ := heq
  exact ⟨hin.trans hx.inbound, hfin.trans hx.finished, hset.trans hx.settled,
    hhead.trans hx.headers⟩

/-- The first terminal call. -/
theorem Shows.finish {ev : Event} (ho : h.outcome = none)
    (hin : t.inbound = queueOf Event.error (h.finish ev)) (hfin : t.finished = true)
    (hset : t.headersSettled = true) (hhead : t.headers = ev.headers) :
    Shows t (h.finish ev) := by
  have hout : (h.finish ev).outcome = some ev := (Mailbox.finish_of_none ev ho).1
  refine ⟨hin, ?_, ?_, ?_⟩
  · rw [hfin, hout]
    rfl
  · rw [hset, hout]
    rfl
  · rw [hhead, hout]
    rfl

/-- A later terminal call changes nothing. -/
theorem Shows.finish_again (hx : Shows s h) (hfin : s.finished = true) (ev : Event) :
    Shows s (h.finish ev) := by
  rw [Mailbox.finish_of_some ev (by rw [← hx.finished, hfin])]
  exact hx

theorem Shows.outcome_none (hx : Shows s h) (hfin : ¬ s.finished = true) : h.outcome = none := by
  rw [hx.finished] at hfin
  simpa using hfin

theorem Shows.endOk (hx : Shows s h) (hs : Headers) :
    Shows (s.endOk hs) ((Call.endOk hs).onBox h) := by
  show Shows _ (h.finish { error := none, headers := hs })
  unfold StreamImpl.endOk
  split
  · rename_i hfin
    exact hx.finish_again hfin _
  · rename_i hfin
    have ho := hx.outcome_none hfin
    have hopen : ({ s with finished := true } : StreamImpl).headersSettled = false :=
      hx.settled.trans (by rw [ho]; rfl)
    simp only [StreamImpl.resolveHeaders_open hopen]
    refine Shows.finish ho ?_ rfl rfl rfl
    show s.inbound.endQueue = _
    rw [hx.inbound]
    exact endQueue_queueOf ho rfl

theorem Shows.endError (hx : Shows s h) (e : WsStatusError) (hs : Headers) :
    Shows (s.endError e hs) ((Call.endError e hs).onBox h) := by
  show Shows _ (h.finish { error := some e, headers := hs })
  unfold StreamImpl.endError
  split
  · rename_i hfin
    exact hx.finish_again hfin _
  · rename_i hfin
    have ho := hx.outcome_none hfin
    have hopen : ({ s with finished := true } : StreamImpl).headersSettled = false :=
      hx.settled.trans (by rw [ho]; rfl)
    simp only [StreamImpl.resolveHeaders_open hopen]
    refine Shows.finish ho ?_ rfl rfl rfl
    show s.inbound.fail e = _
    rw [hx.inbound]
    exact fail_queueOf ho rfl

/-- `cancel` and `abort` on a stream that has not finished. -/
theorem Shows.stop (hx : Shows s h) (hlive : s.finished = false) (err : Option WsStatusError) :
    Shows (s.stop.settle err) (h.finish { error := err, resets := true }) := by
  have ho := hx.outcome_none (by rw [hlive]; decide)
  have hopen : s.stop.headersSettled = false := hx.settled.trans (by rw [ho]; rfl)
  have hhead : s.headers = ∅ := hx.headers.trans (by rw [ho]; rfl)
  cases err with
  | none =>
      simp only [StreamImpl.settle, StreamImpl.resolveHeaders_open hopen]
      refine Shows.finish ho ?_ rfl rfl hhead
      show s.inbound.endQueue = _
      rw [hx.inbound]
      exact endQueue_queueOf ho rfl
  | some e =>
      simp only [StreamImpl.settle, StreamImpl.resolveHeaders_open hopen]
      refine Shows.finish ho ?_ rfl rfl hhead
      show s.inbound.fail e = _
      rw [hx.inbound]
      exact fail_queueOf ho rfl

theorem Shows.pushMsg (hx : Shows s h) (p : Payload) : Shows (s.pushMsg p) (h.push p) := by
  refine ⟨?_, ?_, ?_, ?_⟩
  · show s.inbound.push p = _
    rw [hx.inbound]
    exact push_queueOf p
  · exact hx.finished.trans (by rw [Mailbox.push_outcome])
  · exact hx.settled.trans (by rw [Mailbox.push_outcome])
  · exact hx.headers.trans (by rw [Mailbox.push_outcome])

theorem Shows.recv (hx : Shows s h) : Shows s.recv h.pull := by
  refine ⟨?_, hx.finished, hx.settled, hx.headers⟩
  show s.inbound.pull = _
  rw [hx.inbound]
  exact pull_queueOf

/-! ## Events of other streams -/

variable {size : Frame → ℕ} {m m' m'' : Mux} {L : List Frame} {r q : Ref} {e : WsStatusError}
  {u u' : StreamImpl}

/-- The reader of the stream at `r` sees nothing of a change, or it sees that the mux has
failed with `e`. -/
def Spares (e : WsStatusError) (r : Ref) (m m' : Mux) : Prop :=
  ∀ s, m.objs[r]? = some s → ∃ t, m'.objs[r]? = some t ∧
    ((view t = view s ∧ m'.defunct = m.defunct) ∨
      (view t = view (s.endError e ∅) ∧ m.defunct = false ∧ m'.defunct = true))

theorem Spares.refl (e : WsStatusError) (r : Ref) (m : Mux) : Spares e r m m :=
  fun s hs => ⟨s, hs, .inl ⟨rfl, rfl⟩⟩

theorem Spares.trans (h₁ : Spares e r m m') (h₂ : Spares e r m' m'') : Spares e r m m'' := by
  intro s hs
  obtain ⟨t, ht, hcase⟩ := h₁ s hs
  obtain ⟨u, hu, hcase'⟩ := h₂ t ht
  refine ⟨u, hu, ?_⟩
  rcases hcase with ⟨hview, hd⟩ | ⟨hview, hlive, hd⟩
  · rcases hcase' with ⟨hview', hd'⟩ | ⟨hview', hlive', hd'⟩
    · exact .inl ⟨hview'.trans hview, hd'.trans hd⟩
    · exact .inr ⟨hview'.trans (view_endError hview e ∅), hd.symm.trans hlive', hd'⟩
  · rcases hcase' with ⟨hview', hd'⟩ | ⟨-, hlive', -⟩
    · exact .inr ⟨hview'.trans hview, hlive, hd'.trans hd⟩
    · rw [hd] at hlive'
      cases hlive'

/-- Another stream changes, or this one where its reader does not look. -/
theorem spares_setObj (hu : m.objs[q]? = some u) (hsame : q = r → view u' = view u) :
    Spares e r m (m.setObj q u') := by
  intro s hs
  by_cases hq : q = r
  · subst hq
    obtain rfl : u = s := Option.some.inj (hu.symm.trans hs)
    exact ⟨u', Mux.getElem?_setObj hu u', .inl ⟨hsame rfl, rfl⟩⟩
  · exact ⟨s, by rw [Mux.getElem?_setObj_ne hq]; exact hs, .inl ⟨rfl, rfl⟩⟩

/-- `failAll` ends each stream in the registry, once. -/
theorem foldl_endError_getElem? (e : WsStatusError) (l : List ((_ : UInt32) × Ref)) :
    ∀ (o : List StreamImpl) (s : StreamImpl), o[r]? = some s →
      (l.foldl (fun o e' => o.modify e'.2 (·.endError e ∅)) o)[r]? =
        some (if r ∈ l.map (·.2) then s.endError e ∅ else s) := by
  intro o s hs
  have hend : (s.endError e ∅).finished = true := (s.endError_follows e ∅).2
  have hagain : (s.endError e ∅).endError e ∅ = s.endError e ∅ := by
    rw [StreamImpl.endError, if_pos hend]
  exact Visit.foldl_modify_of_idem hagain l hs

/-- The mux goes defunct: every stream that has not finished ends with its error. -/
theorem markDefunct_getElem? (hwf : m.WF) (hs : m.objs[r]? = some s) (e : WsStatusError) :
    (m.markDefunct e).objs[r]? = some (s.endError e ∅) := by
  refine (foldl_endError_getElem? e m.streams.entries m.objs s hs).trans ?_
  split_ifs with hmem
  · rfl
  · -- a stream that is not registered has finished
    have hfin : s.finished = true := by
      by_contra hne
      have hl := hwf.live r s hs (by simpa using hne)
      exact hmem (List.mem_map.2 ⟨⟨s.id, r⟩, AList.mem_lookup_iff.1 hl, rfl⟩)
    rw [StreamImpl.endError, if_pos hfin]

theorem spares_markDefunct (hwf : m.WF) (e : WsStatusError) (c d : Bool)
    (hcd : (c || d) = true) :
    Spares e r m ({ m with closed := c, dead := d }.markDefunct e) := by
  intro s hs
  refine ⟨s.endError e ∅, markDefunct_getElem? hwf hs e, ?_⟩
  have hdefunct : ({ m with closed := c, dead := d }.markDefunct e).defunct = true := hcd
  cases hd : m.defunct with
  | false => exact .inr ⟨rfl, rfl, hdefunct⟩
  | true =>
      refine .inl ⟨?_, hdefunct⟩
      have hfin : s.finished = true := by
        by_contra hne
        rw [hwf.not_defunct hs (by simpa using hne)] at hd
        cases hd
      rw [StreamImpl.endError, if_pos hfin]

theorem spares_write (size : Frame → ℕ) (hwf : m.WF) (f : Frame) :
    Spares preopenOverflow r m (m.writeFrame size f).1 := by
  unfold Mux.writeFrame
  split_ifs
  · exact Spares.refl _ r m
  · exact fun s hs => ⟨s, hs, .inl ⟨rfl, rfl⟩⟩
  · exact spares_markDefunct hwf preopenOverflow true m.dead (Bool.true_or _)
  · exact fun s hs => ⟨s, hs, .inl ⟨rfl, rfl⟩⟩

theorem view_shift {payload : Payload} (hsh : s.shift = some (payload, t)) : view t = view s := by
  unfold StreamImpl.shift at hsh
  cases hout : s.outbound with
  | nil => simp [hout] at hsh
  | cons p rest =>
      simp only [hout] at hsh
      split_ifs at hsh
      cases hsh
      rfl

/-- `cancel` or `abort` of another stream. -/
theorem spares_abort (hwf : m.WF) (hq : q ≠ r) (err : Option WsStatusError) :
    Spares preopenOverflow r m (m.abort size q err).1 := by
  rcases abort_cases size hwf q err with ⟨-, heq, -⟩ | ⟨u, m₁, hu, -, rfl, hstop, heq, -⟩
  · rw [heq]
    exact Spares.refl _ r m
  · have hset : (m.setObj q u.stop).WF := hwf.setObj hu rfl fun _ => rfl
    have hwrite := (spares_setObj hu (absurd · hq)).trans
      (spares_write size hset u.rstFrame (r := r))
    rw [heq]
    refine hwrite.trans fun s hs => ⟨s, ?_, .inl ⟨rfl, rfl⟩⟩
    rw [Mux.getElem?_setObj_ne hq]
    exact hs

/-- `cancel` or `abort` of a stream: that its RST may fail the mux makes no difference to
it. -/
theorem abort_getElem? (hwf : m.WF) (hs : m.objs[r]? = some s) (hlive : s.finished = false)
    (err : Option WsStatusError) :
    (m.abort size r err).1.objs[r]? = some (s.stop.settle err) := by
  rcases abort_cases size hwf r err with ⟨hfin, -, -⟩ | ⟨u, m₁, hu, -, -, hstop, heq, -⟩
  · rw [hfin s hs] at hlive
    cases hlive
  · obtain rfl : s = u := Option.some.inj (hs.symm.trans hu)
    rw [heq]
    exact Mux.getElem?_setObj hstop _

/-- A new stream changes no other. -/
theorem spares_openStream (hwf : m.WF) (hb : m.nextId < 2 ^ 32) (method : Text)
    (headers : Headers) :
    Spares preopenOverflow r m (m.openStream size method headers).1 := by
  by_cases hd : m.defunct = true
  · intro s hs
    unfold Mux.openStream
    dsimp only
    rw [if_pos hd]
    exact ⟨s, Mux.getElem?_add.2 (.inl hs), .inl ⟨rfl, rfl⟩⟩
  · rw [openStream_live hd]
    have hadd : Spares preopenOverflow r m m.enlist :=
      fun s hs => ⟨s, Mux.getElem?_add.2 (.inl hs), .inl ⟨rfl, rfl⟩⟩
    exact hadd.trans (spares_write size (hwf.enlist hd hb) _)

/-- A terminal frame for another stream, or for none. -/
theorem spares_endWith (hwf : m.WF) (f : Frame) (g : StreamImpl → StreamImpl)
    (hne : m.streams.lookup f.streamId ≠ some r) : Spares e r m (m.endWith f g) := by
  unfold Mux.endWith
  cases hfind : m.find f.streamId with
  | none => exact fun s hs => ⟨s, hs, .inl ⟨rfl, rfl⟩⟩
  | some y =>
      obtain ⟨q, u⟩ := y
      obtain ⟨hl, hu, -⟩ := hwf.find_eq_some hfind
      have hq : q ≠ r := by
        rintro rfl
        exact hne hl
      have hdelete : Spares e r m (m.delete f.streamId) := fun s hs => ⟨s, hs, .inl ⟨rfl, rfl⟩⟩
      exact hdelete.trans (spares_setObj hu (absurd · hq))

/-! ## Every event -/

variable {a : Act} {m₀ : Mux} {s₀ : StreamImpl}

theorem failure_of_calm (hc : Calm m a) : failure m a = preopenOverflow := by
  cases a with
  | message len f => exact if_neg hc
  | onopen got =>
      cases got with
      | none => rfl
      | some g => cases hc
  | drop | close => cases hc
  | _ => rfl

theorem failure_of_fails (hf : Fails m a e) : failure m a = e := by
  cases hf with
  | message hbig => exact if_pos hbig
  | _ => rfl

/-- A frame that is a call of the stream. -/
theorem direct_message {len : ℕ} {f : Frame} (hc : Calm m (.message len (some f)))
    (hl : m.streams.lookup f.streamId = some r) :
    direct m r s (.message len (some f)) = frameCall m s f :=
  (if_neg hc).trans (if_pos hl)

/-- What is no call of the stream leaves alone what its reader sees. -/
theorem view_touch (htouch : Touch m₀ a r u u') (hc : Calm m₀ a) (ha : a ≠ .resume r)
    (hdirect : direct m₀ r s₀ a = none) : view u' = view u := by
  cases htouch with
  | enqueue | credit => rfl
  | recv heq =>
      subst heq
      simp [direct] at hdirect
  | resume heq => exact absurd heq ha
  | header heq hk hl =>
      subst heq
      rw [direct_message hc hl, frameCall, hk] at hdirect
      cases hdirect
  | message heq hk hl =>
      subst heq
      rw [direct_message hc hl, frameCall, hk] at hdirect
      cases hdirect

theorem view_speaks {f : Frame} (hspeaks : Speaks a r u f u') (ha : a ≠ .resume r) :
    view u' = view u := by
  cases hspeaks with
  | msg hsh => exact view_shift hsh
  | update heq => exact absurd heq ha
  | halfClose => rfl

/-- The streams that an event aborts have it as a call. -/
theorem direct_of_aborts {err : Option WsStatusError} (hab : Aborts m₀ a r err) (hc : Calm m₀ a)
    (hs : m₀.objs[r]? = some s₀) : direct m₀ r s₀ a ≠ none := by
  cases hab with
  | caller heq =>
      subst heq
      simp [direct]
  | @send payload s heq hs' hopen hover =>
      subst heq
      obtain rfl : s₀ = s := Option.some.inj (hs.symm.trans hs')
      have hdirect : direct m₀ r s₀ (.send r payload) = some (.abort sendOverflow) :=
        if_pos ⟨rfl, hopen, hover⟩
      simp [hdirect]
  | message heq hk hl =>
      subst heq
      rw [direct_message hc hl, frameCall, hk]
      simp
  | born _ hr =>
      subst hr
      simp at hs

/-- **A move of an event** that is no call of the stream. -/
theorem spares_turn (hwf : m.WF) (hs : m₀.objs[r]? = some s₀) (ha : a ≠ .resume r)
    (hdirect : direct m₀ r s₀ a = none) {fs : List Frame} (ht : Turn size m₀ a m fs m') :
    Spares (failure m₀ a) r m m' := by
  cases ht with
  | set hu htouch hc =>
      refine spares_setObj hu ?_
      rintro rfl
      exact view_touch htouch hc ha hdirect
  | write hu hlive hspeaks hc =>
      rw [failure_of_calm hc]
      have hset := hwf.setObj hu hspeaks.id fun hl => (hspeaks.finished.trans hl :)
      refine Spares.trans (spares_setObj hu ?_) (spares_write size hset _)
      rintro rfl
      exact view_speaks hspeaks ha
  | abort _ hab hc =>
      rw [failure_of_calm hc]
      refine spares_abort hwf ?_ _
      rintro rfl
      exact direct_of_aborts hab hc hs hdirect
  | leave hu hfin => exact fun s hs => ⟨s, hs, .inl ⟨rfl, rfl⟩⟩
  | @ended len f heq hk hc =>
      subst heq
      refine spares_endWith hwf f _ fun hl => ?_
      rw [direct_message hc hl] at hdirect
      rcases hk with hk | hk <;> simp [frameCall, hk] at hdirect
  | opens heq hb =>
      subst heq
      exact spares_openStream hwf hb _ _
  | flush => exact fun s hs => ⟨s, hs, .inl ⟨rfl, rfl⟩⟩
  | fails hcd hf =>
      rw [failure_of_fails hf]
      exact spares_markDefunct hwf _ _ _ hcd

/-- **An event** that is no call of the stream. -/
theorem spares_call (hsound : Sound size m L) (hs : m.objs[r]? = some s) (ha : a ≠ .resume r)
    (hdirect : direct m r s a = none) {y : Mux × Option WsStatusError}
    (hy : call size m a = some y) : Spares (failure m a) r m y.1 := by
  have hk : Ledger.Kept size m a fun m' L => Sound size m' L ∧ Spares (failure m a) r m m' :=
    (sound_kept size m a).and fun hsound' hsp ht =>
      hsp.trans (spares_turn hsound'.books.wf hs ha hdirect ht)
  exact (hk.call ⟨hsound, Spares.refl _ r m⟩ hy).2.2

/-- What `Spares` says of an event that is no call of the stream itself; `s₀` is the stream
before the event reaches the other ones. -/
theorem Spares.shows {y : Mux × Option WsStatusError} (hsp : Spares (failure m a) r m₀ y.1)
    (hd₀ : m₀.defunct = m.defunct) (hy : call size m a = some y)
    (hdirect : direct m r s a = none) (hs : m₀.objs[r]? = some s₀) (hx : Shows s₀ h) :
    ∃ t, y.1.objs[r]? = some t ∧ Shows t (deliver h (callOn size m r s a)) ∧
      t.resumed = s₀.resumed := by
  obtain ⟨t, ht, ⟨hview, hd⟩ | ⟨hview, hlive, hd⟩⟩ := hsp s₀ hs
  · have hno : fails size m a = false := by
      rw [fails, hy, Option.any_some, hd, hd₀]
      cases m.defunct <;> rfl
    rw [callOn, hdirect, hno]
    exact ⟨t, ht, hx.congr hview, congrArg View.resumed hview⟩
  · have hyes : fails size m a = true := by
      rw [fails, hy, Option.any_some, hd, ← hd₀, hlive]
      rfl
    rw [callOn, hdirect, hyes]
    exact ⟨t, ht, (hx.endError _ ∅).congr hview,
      (congrArg View.resumed hview).trans (endError_resumed s₀ _ ∅)⟩

/-- A call of the stream itself. -/
theorem callOn_of_direct {c : Call} (hdirect : direct m r s a = some c) :
    callOn size m r s a = some c := by
  rw [callOn, hdirect]
  rfl

/-- A call that ends the stream keeps the count of the continuations. -/
theorem settle_resumed (s : StreamImpl) (err : Option WsStatusError) :
    (s.stop.settle err).resumed = s.resumed := by
  unfold StreamImpl.settle StreamImpl.resolveHeaders StreamImpl.resolveLeading
  cases s.stop.headersSettled <;> cases err <;> rfl

variable (size) in
/-- `cancel` and `abort` of the stream itself. -/
theorem shows_abort (hwf : m.WF) (hs : m.objs[r]? = some s) (hx : Shows s h)
    (err : Option WsStatusError) :
    ∃ t, (m.abort size r err).1.objs[r]? = some t ∧
      Shows t (h.finish { error := err, resets := true }) ∧ t.resumed = s.resumed := by
  cases hfin : s.finished with
  | false =>
      exact ⟨_, abort_getElem? hwf hs hfin err, hx.stop hfin err, settle_resumed s err⟩
  | true =>
      refine ⟨s, ?_, hx.finish_again hfin _, rfl⟩
      simp [Mux.abort, hs, hfin]

/-- A frame that was decoded. -/
theorem shows_route (hwf : m.WF) (hs : m.objs[r]? = some s) (hx : Shows s h)
    {f : Frame} (hreg : m.streams.lookup f.streamId = some r) {c : Call}
    (hc : frameCall m s f = some c) :
    ∃ t, (m.route size f).1.objs[r]? = some t ∧ Shows t (c.onBox h) ∧ t.resumed = s.resumed := by
  have hfind : m.find f.streamId = some (r, s) := by simp [Mux.find, hreg, hs]
  unfold frameCall at hc
  unfold Mux.route
  cases hk : f.kind with
  | kindHeader =>
      simp only [hk, Option.some.injEq] at hc
      subst hc
      simp only [hfind]
      exact ⟨_, Mux.getElem?_setObj hs _, ⟨hx.inbound, hx.finished, hx.settled, hx.headers⟩, rfl⟩
  | kindMsg =>
      simp only [hk, Option.some.injEq] at hc
      subst hc
      simp only [hfind]
      split_ifs with hover
      · obtain ⟨t, ht, hshow, hres⟩ := shows_abort size hwf hs hx (some receiveOverflow)
        have hthrow := abort_silent size hwf r (some receiveOverflow)
        cases hw : m.abort size r (some receiveOverflow) with
        | mk m' thrown =>
            rw [hw] at hthrow ht
            cases hthrow
            exact ⟨t, ht, hshow, hres⟩
      · exact ⟨_, Mux.getElem?_setObj hs _, hx.pushMsg f.payload, rfl⟩
  | kindEnd =>
      simp only [hk, Option.some.injEq] at hc
      subst hc
      simp only [Mux.endWith, hfind]
      cases statusErrorFromProto f.status with
      | none =>
          exact ⟨_, Mux.getElem?_setObj hs _, hx.endOk _, endOk_resumed s _⟩
      | some e =>
          exact ⟨_, Mux.getElem?_setObj hs _, hx.endError e _, endError_resumed s e _⟩
  | kindRst =>
      simp only [hk, Option.some.injEq] at hc
      subst hc
      simp only [Mux.endWith, hfind]
      exact ⟨_, Mux.getElem?_setObj hs _, hx.endError _ _, endError_resumed s _ _⟩
  | kindWindowUpdate => simp [hk] at hc
  | _ => simp [hk] at hc

/-- **Every event of the mux** is to a stream the call that `callOn` says. -/
theorem shows_call (hsound : Sound size m L) (hs : m.objs[r]? = some s) (hx : Shows s h) {a : Act}
    {y : Mux × Option WsStatusError} (ha : a ≠ .resume r) (hy : call size m a = some y) :
    ∃ t, y.1.objs[r]? = some t ∧ Shows t (deliver h (callOn size m r s a)) ∧
      t.resumed = s.resumed := by
  have hwf := hsound.books.wf
  cases hdirect : direct m r s a with
  | none => exact Spares.shows (spares_call hsound hs ha hdirect hy) rfl hy hdirect hs hx
  | some c =>
      rw [callOn_of_direct hdirect]
      cases a with
      | send q payload =>
          obtain ⟨⟨rfl, hopen, hlt⟩, ⟨⟩⟩ := Option.ite_none_right_eq_some.1 hdirect
          cases hy
          have hsend : m.send size q payload = m.abort size q (some sendOverflow) := by
            simp only [Mux.send, hs, hopen, Bool.false_eq_true, if_false, if_pos hlt]
          rw [hsend]
          exact shows_abort size hwf hs hx (some sendOverflow)
      | abort q err =>
          obtain ⟨rfl, ⟨⟩⟩ := Option.ite_none_right_eq_some.1 hdirect
          cases hy
          obtain ⟨t, ht, hshow, hres⟩ := shows_abort size hwf hs hx err
          refine ⟨t, ht, ?_, hres⟩
          cases err <;> exact hshow
      | recv q =>
          obtain ⟨rfl, ⟨⟩⟩ := Option.ite_none_right_eq_some.1 hdirect
          cases hy
          refine ⟨s.recv, ?_, hx.recv, rfl⟩
          show (m.objs.modify q _)[q]? = _
          rw [List.getElem?_modify_eq, hs]
          rfl
      | message len f =>
          cases hy
          cases f with
          | none => cases hdirect
          | some f =>
              obtain ⟨hsmall, hdirect⟩ := Option.ite_none_left_eq_some.1 hdirect
              obtain ⟨hreg, hcall⟩ := Option.ite_none_right_eq_some.1 hdirect
              have hmsg : m.handleMessage size len (some f) = m.route size f := if_neg hsmall
              rw [hmsg]
              exact shows_route hwf hs hx hreg hcall
      | openStream | closeSend | resume | onopen | drop | close => cases hdirect

/-- `recv` after its `await`: one more result is out, and the credit may be written. -/
theorem shows_resume (hsound : Sound size m L) (hs : m.objs[r]? = some s) (hx : Shows s h)
    {y : Mux × Option WsStatusError} (hy : call size m (.resume r) = some y) :
    ∃ t, y.1.objs[r]? = some t ∧ Shows t (deliver h (callOn size m r s (.resume r))) ∧
      t.resumed = s.resumed + 1 := by
  obtain ⟨u, hu, hy'⟩ := Option.bind_eq_some_iff.1 hy
  obtain rfl : s = u := Option.some.inj (hs.symm.trans hu)
  obtain ⟨⟨s', d⟩, hz, hyz⟩ := Option.map_eq_some_iff.1 hy'
  have hset := hsound.setObj hs (StreamImpl.resume_follows hz).1.id (StreamImpl.resume_finished hz)
  obtain ⟨x, hset'⟩ : ∃ x, s.inbound.settled[s.resumed]? = some x := by
    by_contra hne
    rw [not_exists, ← Option.eq_none_iff_forall_ne_some] at hne
    simp [StreamImpl.resume, hne] at hz
  obtain ⟨c, d', hspec⟩ := StreamImpl.resume_spec hset'
  obtain ⟨rfl, rfl⟩ := Prod.mk.inj (Option.some.inj (hspec.symm.trans hz))
  have hx' : Shows { s with
      resumed := s.resumed + 1
      bufferedBytes := s.bufferedBytes - x.size
      pendingCredit := c } h := ⟨hx.inbound, hx.finished, hx.settled, hx.headers⟩
  have hsp : Spares preopenOverflow r (m.setObj r { s with
      resumed := s.resumed + 1
      bufferedBytes := s.bufferedBytes - x.size
      pendingCredit := c }) y.1 := by
    subst hyz
    cases d' with
    | none => exact Spares.refl _ r _
    | some delta =>
        dsimp only
        split_ifs
        · exact spares_write size hset.books.wf _
        · exact Spares.refl _ r _
  exact Spares.shows (m := m) (a := .resume r) hsp rfl hy rfl (Mux.getElem?_setObj hs _) hx'

/-! ## A new stream -/

theorem shows_new (id : UInt32) (W B : ℤ) : Shows (newStreamImpl id W B) {} :=
  ⟨rfl, rfl, rfl, rfl⟩

theorem shows_openStream (hsound : Sound size m L) (hb : m.nextId < 2 ^ 32) (method : Text)
    (headers : Headers) :
    ∃ t, (m.openStream size method headers).1.objs[m.objs.length]? = some t ∧
      Shows t (opening size m method headers none) ∧ t.resumed = 0 := by
  have hnew := shows_new (UInt32.ofNat m.nextId) m.initialWindow m.maxSendBuffer
  unfold opening
  by_cases hd : m.defunct = true
  · rw [if_pos hd]
    refine ⟨(newStreamImpl (UInt32.ofNat m.nextId) m.initialWindow m.maxSendBuffer).endError
      (m.terminalError.getD connectionLost) ∅, ?_, hnew.endError _ ∅, endError_resumed _ _ _⟩
    simp [Mux.openStream, hd]
  · rw [if_neg hd, openStream_live hd]
    have hlive : m.enlist.defunct = false := Bool.eq_false_iff.2 hd
    obtain ⟨t, ht, ⟨hview, hd'⟩ | ⟨hview, -, hd'⟩⟩ := spares_write size
      (hsound.books.wf.enlist hd hb) (m.openFrame method headers) _
      (Mux.getElem?_add.2 (.inr ⟨rfl, rfl⟩))
    · rw [if_neg (by rw [hd', hlive]; decide)]
      exact ⟨t, ht, hnew.congr hview, congrArg View.resumed hview⟩
    · rw [if_pos hd']
      exact ⟨t, ht, (hnew.endError _ ∅).congr hview,
        (congrArg View.resumed hview).trans (endError_resumed _ _ _)⟩

/-- **A new stream** has received nothing, or has ended at birth. -/
theorem shows_open (hsound : Sound size m L) (hb : m.nextId < 2 ^ 32) (method : Text)
    (headers : Headers) (aborted : Option WsStatusError) :
    ∃ t, (m.openWith size method headers aborted).1.objs[m.objs.length]? = some t ∧
      Shows t (opening size m method headers aborted) ∧ t.resumed = 0 := by
  obtain ⟨t, ht, hshow, hres⟩ := shows_openStream hsound hb method headers
  have hthrow := openStream_silent size hsound.books.wf method headers
  cases aborted with
  | none =>
      refine ⟨t, ?_, hshow, hres⟩
      unfold Mux.openWith
      cases hw : m.openStream size method headers with
      | mk m' thrown =>
          rw [hw] at ht hthrow
          cases hthrow
          exact ht
  | some err =>
      obtain ⟨t', ht', hshow', hres'⟩ := shows_abort size
        (hsound.openStream hb method headers).books.wf ht hshow (some err)
      have hfinish : (opening size m method headers none).finish { error := err, resets := true } =
          opening size m method headers (some err) := by
        unfold opening
        split_ifs <;> rfl
      rw [hfinish] at hshow'
      refine ⟨t', ?_, hshow', hres'.trans hres⟩
      unfold Mux.openWith
      cases hw : m.openStream size method headers with
      | mk m' thrown =>
          rw [hw] at ht' hthrow
          cases hthrow
          exact ht'

end WsProto.Ts.ReadSide
