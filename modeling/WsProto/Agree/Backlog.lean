import WsProto.Agree.Received
import WsProto.Go.Backlog
import WsProto.Ts.Backlog

/-!
# The receive backlog against any peer

Both runtimes document the backlog of a stream as a backstop: a peer that ignores the
window cannot grow memory without limit.  Both bound it by its bytes.

* `backlog_bounded_iff` — the bytes are bounded against any peer, and the peer that goes
  on sending is reset; the number of messages is bounded if and only if the peer sends no
  empty one;
* `backlog_unbounded` — a peer of a window of one byte that sends empty messages.
-/

namespace WsProto.Agree

open Machine

/-! ## Bounds on a backlog, in every run -/

/-- In every run of a Go mux of either side whose peer sends messages of an allowed size,
the backlog of every stream satisfies `P`. -/
def GoBacklog (W : ℤ) (allowed : ℕ → Prop) (P : List ℕ → Prop) : Prop :=
  ∀ (server : Bool) (maxStreams : ℤ) (x : Go.StreamContext.Host),
    Reach Go.StreamContext.Host.step (Go.Backlog.Sized allowed)
        (Go.StreamContext.Host.start server W maxStreams) x →
      ∀ s ∈ x.mux.objs, P (Go.Backlog.sizes s)

/-- In every run of a TypeScript mux whose peer sends messages of an allowed size, the
backlog of every stream satisfies `P`. -/
def TsBacklog (W : ℤ) (allowed : ℕ → Prop) (P : List ℕ → Prop) : Prop :=
  ∀ (size : Frame → ℕ) (B F : ℤ) (ready : Bool) (got : Option Text) (x : Ts.Ledger.Session),
    Reach (Ts.Ledger.Session.step size) (Ts.Backlog.Sized allowed)
        (Ts.Ledger.Session.start W B F ready got) x →
      ∀ s ∈ x.mux.objs, P (Ts.Backlog.sizes s)

/-- In every run of a Go mux, a message for a live registered stream whose backlog is over
the window ends the stream with ResourceExhausted and unregisters it, and the RST is
queued unless the control channel is full. -/
def GoResets (W : ℤ) (allowed : ℕ → Prop) : Prop :=
  ∀ (server : Bool) (maxStreams : ℤ) (x : Go.StreamContext.Host),
    Reach Go.StreamContext.Host.step (Go.Backlog.Sized allowed)
        (Go.StreamContext.Host.start server W maxStreams) x →
      ∀ (f : Frame) (r : Go.Ref) (s : Go.Stream), Go.routesAsMsg f.kind = true →
        x.mux.find f.streamId = some (r, s) → s.ctxErr = none →
        Go.windowOr W < (Go.Backlog.sizes s).sum →
        (x.mux.route f).1.streams.lookup f.streamId = none ∧
          (∃ s', (x.mux.route f).1.objs[r]? = some s' ∧ s'.ended = true ∧
            s'.endSt.map Go.Status.code = some Go.Code.resourceExhausted ∧
            s'.recvItems = s.recvItems) ∧
          (x.mux.ctrlCh.length < Go.ctrlBufferSize →
            Go.rstFrame f.streamId Go.Code.resourceExhausted "receive buffer overflow" ∈
              (x.mux.route f).1.ctrlCh)

/-- In every run of a TypeScript mux, a MSG for a registered stream whose backlog is over
the window fails the stream with ResourceExhausted and unregisters it, and an RST follows
what was sent or buffered, unless the buffer of a socket that is not open is full and the
mux fails. -/
def TsResets (W : ℤ) (allowed : ℕ → Prop) : Prop :=
  ∀ (size : Frame → ℕ) (B F : ℤ) (ready : Bool) (got : Option Text) (x : Ts.Ledger.Session),
    Reach (Ts.Ledger.Session.step size) (Ts.Backlog.Sized allowed)
        (Ts.Ledger.Session.start W B F ready got) x →
      ∀ (f : Frame) (r : Ts.Ref) (s : Ts.StreamImpl), f.kind = .kindMsg →
        x.mux.find f.streamId = some (r, s) →
        Ts.positiveOr W Ts.defaultInitialWindow < (Ts.Backlog.sizes s).sum →
        (x.mux.route size f).1.streams.lookup f.streamId = none ∧
          (∃ t, (x.mux.route size f).1.objs[r]? = some t ∧ t.finished = true ∧
            t.inbound.error.map Ts.WsStatusError.code = some Ts.codeResourceExhausted) ∧
          ((x.mux.route size f).1.defunct = true ∨
            (x.mux.route size f).1.out = x.mux.out ++ [s.rstFrame])

variable {W : ℤ} {L : ℕ} {allowed : ℕ → Prop}

/-! ## What holds against any peer -/

theorem goBacklog_of_held {P : List ℕ → Prop} (hL : ∀ n, allowed n → n ≤ L)
    (h : ∀ s, Go.Backlog.Held (Go.windowOr W) L allowed s → P (Go.Backlog.sizes s)) :
    GoBacklog W allowed P := by
  intro server maxStreams x hx s hs
  exact h s (Go.Backlog.held_of_reach server W maxStreams hL hx s hs)

theorem tsBacklog_of_held {P : List ℕ → Prop} (hL : ∀ n, allowed n → n ≤ L)
    (h : ∀ s, Ts.Backlog.Held (Ts.positiveOr W Ts.defaultInitialWindow) L allowed s →
      P (Ts.Backlog.sizes s)) : TsBacklog W allowed P := by
  intro size B F ready got x hx s hs
  exact h s ((Ts.Backlog.held_of_reach size W B F ready got hL hx).held s hs)

theorem goResets (hL : ∀ n, allowed n → n ≤ L) : GoResets W allowed := by
  intro server maxStreams x hx f r s hmsg hfind hctx hover
  have hobj := (Go.Mux.find_eq_some.1 hfind).2
  have hs := Go.Backlog.held_of_reach server W maxStreams hL hx s (List.mem_of_getElem? hobj)
  rw [← hs.counted] at hover
  obtain ⟨hl, hobj', hrst⟩ :=
    Go.Backlog.route_over hs (Go.windowOr_pos W).le hmsg hfind hctx hover
  exact ⟨hl, ⟨_, hobj', rfl, rfl, rfl⟩, hrst⟩

theorem tsResets (hL : ∀ n, allowed n → n ≤ L) : TsResets W allowed := by
  intro size B F ready got x hx f r s hmsg hfind hover
  have hheld := Ts.Backlog.held_of_reach size W B F ready got hL hx
  have hsound := Ts.Backlog.sound_of_reach size W B F ready got hx
  have hs := (hsound.books.wf.find_eq_some hfind).2.1
  have hbytes := (hheld.obj hs).counted
  have hover' : Ts.positiveOr W Ts.defaultInitialWindow < s.bufferedBytes := by
    rw [Ts.Backlog.bytes] at hbytes
    rw [Ts.Backlog.sizes] at hover
    omega
  obtain ⟨-, hl, ⟨t, ht, hfin, herror⟩, hrst⟩ :=
    Ts.Backlog.route_over hsound hheld hmsg hfind hover'
  exact ⟨hl, ⟨t, ht, hfin, by rw [herror]; rfl⟩, hrst⟩

/-! ## What an empty message does -/

theorem not_goBacklog (h₀ : allowed 0) (N : ℕ) :
    ¬ GoBacklog W allowed fun l => l.length ≤ N := by
  intro h
  obtain ⟨x, hx, s, hfind, -, -, -, hlen⟩ := Go.Backlog.exists_flooded h₀ W (N + 1)
  have hle := h true 0 x hx s (List.mem_of_getElem? (Go.Mux.find_eq_some.1 hfind).2)
  rw [Go.Backlog.sizes, List.length_map, hlen] at hle
  omega

theorem not_tsBacklog (h₀ : allowed 0) (N : ℕ) :
    ¬ TsBacklog W allowed fun l => l.length ≤ N := by
  intro h
  obtain ⟨x, hx, s, -, -, hfind, -, -, -, -, hlen⟩ :=
    Ts.Backlog.exists_flooded (fun _ => 0) h₀ W 0 (N + 1)
  have hs : s ∈ x.mux.objs := by
    obtain ⟨q, -, hfind⟩ := Option.bind_eq_some_iff.1 hfind
    obtain ⟨t, ht, heq⟩ := Option.map_eq_some_iff.1 hfind
    cases heq
    exact List.mem_of_getElem? ht
  have hle := h (fun _ => 0) 0 0 true none x hx s hs
  rw [Ts.Backlog.sizes, List.length_map, hlen] at hle
  omega

/-! ## The bounds -/

/-- **The backlog is bounded in bytes, and in messages if none of them is empty.**  For
every window and every largest payload there are a bound on the bytes and a bound on the
number of messages such that, whatever sizes the peer may send: the bytes in the backlog
of a stream never exceed theirs; a message for a stream over its window resets the stream
with ResourceExhausted; and the messages never exceed theirs, in either runtime, if and
only if the peer may not send empty ones. -/
theorem backlog_bounded_iff (W : ℤ) (L : ℕ) :
    ∃ B N : ℕ, ∀ allowed : ℕ → Prop, (∀ n, allowed n → n ≤ L) →
      GoBacklog W allowed (fun l => l.sum ≤ B) ∧ TsBacklog W allowed (fun l => l.sum ≤ B) ∧
      GoResets W allowed ∧ TsResets W allowed ∧
      (GoBacklog W allowed (fun l => l.length ≤ N) ↔ ¬ allowed 0) ∧
      (TsBacklog W allowed (fun l => l.length ≤ N) ↔ ¬ allowed 0) := by
  have hwin := windowOr_eq_positiveOr W
  have hgo : 0 ≤ Go.windowOr W := (Go.windowOr_pos W).le
  refine ⟨(Go.windowOr W).toNat + L, (Go.windowOr W).toNat + L, fun allowed hL => ?_⟩
  refine ⟨?_, ?_, goResets hL, tsResets hL, ⟨?_, ?_⟩, ⟨?_, ?_⟩⟩
  · exact goBacklog_of_held hL fun s hs => hs.bytes_le hgo
  · rw [hwin] at hgo ⊢
    exact tsBacklog_of_held hL fun s hs => hs.bytes_le hgo
  · exact fun h h₀ => not_goBacklog h₀ _ h
  · intro h₀
    refine goBacklog_of_held hL fun s hs => ?_
    rw [Go.Backlog.sizes, List.length_map]
    exact hs.length_le hgo h₀
  · exact fun h h₀ => not_tsBacklog h₀ _ h
  · intro h₀
    rw [hwin] at hgo ⊢
    refine tsBacklog_of_held hL fun s hs => ?_
    rw [Ts.Backlog.sizes, List.length_map]
    exact hs.length_le hgo h₀

/-- A window of one byte and messages of one byte. -/
theorem backlog_bounded_iff_one :
    ∃ B N : ℕ, GoBacklog 1 (fun n => n = 1) (fun l => l.sum ≤ B) ∧
      GoBacklog 1 (fun n => n = 1) (fun l => l.length ≤ N) ∧
      TsBacklog 1 (fun n => n = 1) (fun l => l.length ≤ N) := by
  obtain ⟨B, N, h⟩ := backlog_bounded_iff 1 1
  obtain ⟨hbytes, -, -, -, hgo, hts⟩ := h (fun n => n = 1) fun n hn => hn.le
  exact ⟨B, N, hbytes, hgo.2 (by decide), hts.2 (by decide)⟩

/-- **Any number of messages is retained.**  The window is one byte, messages have one byte
at most, and no bound on their number holds in either runtime: empty ones are never over
the window. -/
theorem backlog_unbounded :
    (¬ ∃ N : ℕ, GoBacklog 1 (· ≤ 1) fun l => l.length ≤ N) ∧
      ¬ ∃ N : ℕ, TsBacklog 1 (· ≤ 1) fun l => l.length ≤ N := by
  constructor
  · rintro ⟨N, h⟩
    exact not_goBacklog (Nat.zero_le 1) N h
  · rintro ⟨N, h⟩
    exact not_tsBacklog (Nat.zero_le 1) N h

end WsProto.Agree
