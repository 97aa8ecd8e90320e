import WsProto.Inbox

/-!
# Loops that drain a stream

A call helper is a loop around the receive operation of its stream: it keeps a state,
looks at each result, and goes on or returns (`Drain`).  A `Runtime` is what it runs on.
Frames come in at any time, and the loop calls receive whenever its last call has
returned (`Draining`); `Returns` says what comes out of that for a given sequence of
frames, whatever the interleaving.

On a runtime that is the mailbox of `WsProto.Inbox` (`Refines`) a sequence of frames is
its messages before the first terminal frame, and that frame (`Tracks`), because only a
second message can overflow a receive buffer.  So what a drain returns is read off its
own step function:

* `returns_first`, `returns_terminal`, `returns_pair` — it returns on the first message,
  on a terminal frame without a message, on the terminal frame after one message;
* `waits_silent`, `waits_open` — it waits for a server that sends neither, or one
  message and no more.
-/

namespace WsProto

open Inbox

variable {S σ ρ ο : Type}

/-! ## The model -/

/-- A loop that receives until it returns. -/
structure Drain (σ ρ ο : Type) where
  start : σ
  /-- What a result makes it do: go on in another state, or return. -/
  step : σ → ρ → σ ⊕ ο

namespace Drain

/-- After some results: the state in which it wants the next one, or what it has
returned. -/
def afterFrom (d : Drain σ ρ ο) : σ → List ρ → σ ⊕ ο
  | q, [] => .inl q
  | q, r :: rs =>
      match d.step q r with
      | .inl q' => d.afterFrom q' rs
      | .inr o => .inr o

def after (d : Drain σ ρ ο) (rs : List ρ) : σ ⊕ ο := d.afterFrom d.start rs

/-- It calls receive: its `n` calls have the results `rs`, and it has not returned. -/
def Calls (d : Drain σ ρ ο) (rs : List ρ) (n : ℕ) : Prop :=
  rs.length = n ∧ (d.after rs).isLeft = true

end Drain

/-- A stream of a client: what an event does to it, and what its receive calls have
returned. -/
structure Runtime (S ρ : Type) where
  start : S
  event : S → Event → S → Prop
  results : S → List ρ

/-- Frames come in, and the drain makes its calls. -/
inductive Draining (rt : Runtime S ρ) (d : Drain σ ρ ο) : List Frame → ℕ → S → Prop
  | start : Draining rt d [] 0 rt.start
  | frame {fs : List Frame} {n : ℕ} {s s' : S} {f : Frame} : Draining rt d fs n s →
      rt.event s (.frame f) s' → Draining rt d (fs ++ [f]) n s'
  | call {fs : List Frame} {n : ℕ} {s s' : S} : Draining rt d fs n s →
      d.Calls (rt.results s) n → rt.event s .recv s' → Draining rt d fs (n + 1) s'

/-- For this sequence of frames, however the calls fall between them, the drain returns
and what it returns satisfies `P`. -/
def Returns (rt : Runtime S ρ) (d : Drain σ ρ ο) (fs : List Frame) (P : ο → Prop) : Prop :=
  (∃ n s, Draining rt d fs n s ∧ ¬ d.Calls (rt.results s) n) ∧
    ∀ n s, Draining rt d fs n s → ¬ d.Calls (rt.results s) n →
      ∃ o, d.after (rt.results s) = .inr o ∧ P o

/-- However the calls fall between the frames, the drain has not returned when all of them
have come in. -/
def Waits (rt : Runtime S ρ) (d : Drain σ ρ ο) (fs : List Frame) : Prop :=
  ∀ n s, Draining rt d fs n s → ∃ q, d.after (rt.results s) = .inl q

theorem Waits.not_returns {rt : Runtime S ρ} {d : Drain σ ρ ο} {fs : List Frame} {P : ο → Prop}
    (h : Waits rt d fs) : ¬ Returns rt d fs P := by
  rintro ⟨⟨n, s, hs, hcalls⟩, hP⟩
  obtain ⟨o, ho, -⟩ := hP n s hs hcalls
  obtain ⟨q, hq⟩ := h n s hs
  rw [hq] at ho
  cases ho

/-- The runtime is the mailbox: `toResult` is what it makes of a result. -/
structure Refines (rt : Runtime S ρ) (limit : ℤ) (toResult : Except Cause Payload → ρ)
    (rel : S → Mailbox Payload Cause → Prop) : Prop where
  pos : 0 < limit
  start : rel rt.start {}
  exists_event : ∀ {s h e}, rel s h → (∀ f, e = .frame f → Addressed f) → ∃ s', rt.event s e s'
  event : ∀ {s h e s'}, rel s h → (∀ f, e = .frame f → Addressed f) → rt.event s e s' →
    rel s' (Inbox.step limit h e)
  results : ∀ {s h}, rel s h → rt.results s = h.results.map toResult

/-! ## Sequences of frames -/

/-- END and RST. -/
def isTerminal (f : Frame) : Bool := f.kind = .kindEnd ∨ f.kind = .kindRst

/-- The messages before the first terminal frame. -/
def messages (fs : List Frame) : List Payload :=
  ((fs.takeWhile fun f => !isTerminal f).filter fun f => f.kind = .kindMsg).map Frame.payload

/-- The first terminal frame. -/
def terminal (fs : List Frame) : Option Frame := fs.find? isTerminal

section Frames

variable {fs : List Frame} {f : Frame}

theorem takeWhile_of_terminal_none (ht : terminal fs = none) :
    fs.takeWhile (fun f => !isTerminal f) = fs := by
  rw [List.takeWhile_eq_self_iff]
  intro f hf
  simpa using List.find?_eq_none.1 ht f hf

/-- What comes after a terminal frame is not looked at. -/
theorem messages_append_of_some (ht : (terminal fs).isSome) :
    messages (fs ++ [f]) = messages fs ∧ terminal (fs ++ [f]) = terminal fs := by
  obtain ⟨t, ht⟩ := Option.isSome_iff_exists.1 ht
  refine ⟨?_, ?_⟩
  · have hmem := List.mem_of_find?_eq_some ht
    have hstop : ¬ (fs.takeWhile fun f => !isTerminal f).length = fs.length := by
      intro hlen
      have hall := List.takeWhile_eq_self_iff.1
        ((List.takeWhile_prefix fun f => !isTerminal f).eq_of_length hlen) t hmem
      rw [List.find?_some ht] at hall
      cases hall
    rw [messages, List.takeWhile_append, if_neg hstop]
    rfl
  · rw [terminal, List.find?_append, show fs.find? isTerminal = some t from ht, ht]
    rfl

theorem terminal_append_of_none (ht : terminal fs = none) :
    terminal (fs ++ [f]) = if isTerminal f then some f else none := by
  rw [terminal, List.find?_append, show fs.find? isTerminal = none from ht, Option.none_or,
    List.find?_singleton]

theorem messages_append_of_none (ht : terminal fs = none) :
    messages (fs ++ [f]) =
      if f.kind = .kindMsg then messages fs ++ [f.payload] else messages fs := by
  have hself := takeWhile_of_terminal_none ht
  rw [messages, List.takeWhile_append, if_pos (by rw [hself]), messages, hself]
  by_cases hk : f.kind = .kindMsg
  · have hterm : isTerminal f = false := by simp [isTerminal, hk]
    simp [hterm, hk]
  · cases hterm : isTerminal f <;> simp [hterm, hk]

end Frames

/-- What the mailbox knows of the frames.  An overflow has lost a message, so there are
two of them at least. -/
structure Tracks (h : Mailbox Payload Cause) (fs : List Frame) : Prop where
  whole : h.outcome ≠ some .overflow →
    h.accepted = messages fs ∧ h.outcome = (terminal fs).map .frame
  lost : h.outcome = some .overflow →
    h.accepted ≠ [] ∧ h.accepted <+: messages fs ∧ 2 ≤ (messages fs).length

section Tracks

variable {h : Mailbox Payload Cause} {fs : List Frame} {f : Frame} {limit : ℤ}

/-- After the outcome a frame changes nothing. -/
theorem Tracks.frame_finished (hh : Tracks h fs) (ho : h.outcome.isSome) (f : Frame) :
    Tracks (Inbox.step limit h (.frame f)) (fs ++ [f]) := by
  rw [step_of_finished ho]
  refine ⟨fun hne => ?_, fun hover => ?_⟩
  · obtain ⟨hacc, hout⟩ := hh.whole hne
    have hterm : (terminal fs).isSome := by rwa [hout, Option.isSome_map] at ho
    obtain ⟨hmsg, ht⟩ := messages_append_of_some hterm (f := f)
    rw [hmsg, ht]
    exact ⟨hacc, hout⟩
  · obtain ⟨hne, hpre, hlen⟩ := hh.lost hover
    have hgrow : messages fs <+: messages (fs ++ [f]) := by
      cases ht : terminal fs with
      | some t => rw [(messages_append_of_some (by rw [ht]; rfl)).1]
      | none =>
          rw [messages_append_of_none ht]
          split
          · exact List.prefix_append _ _
          · exact List.prefix_rfl
    exact ⟨hne, hpre.trans hgrow, hlen.trans hgrow.length_le⟩

/-- **A frame**, on an open stream. -/
theorem Tracks.frame_open (hlim : 0 < limit) (hh : Tracks h fs) (ho : h.outcome = none)
    (f : Frame) : Tracks (Inbox.step limit h (.frame f)) (fs ++ [f]) := by
  obtain ⟨hacc, hout⟩ := hh.whole (by rw [ho]; simp)
  have hterm : terminal fs = none := by
    rw [ho] at hout
    exact Option.map_eq_none_iff.1 hout.symm
  have hmsg := messages_append_of_none hterm (f := f)
  have ht := terminal_append_of_none hterm (f := f)
  -- A frame that ends the stream, and a frame that is no message.
  have hend : isTerminal f = true → ¬ f.kind = .kindMsg →
      Tracks (h.finish (.frame f)) (fs ++ [f]) := by
    intro hf hk
    have hfin := (Mailbox.finish_of_none (.frame f) ho).1
    rw [if_neg hk] at hmsg
    rw [if_pos hf] at ht
    refine ⟨fun _ => ⟨hacc.trans hmsg.symm, ?_⟩, fun hover => ?_⟩
    · rw [hfin, ht]
      rfl
    · rw [hfin] at hover
      cases hover
  simp only [Inbox.step]
  split
  · rename_i hk
    rw [if_pos hk, ← hacc] at hmsg
    have hf : isTerminal f = false := by simp [isTerminal, hk]
    rw [hf] at ht
    by_cases hover : limit < bytes h.buffered
    · rw [if_pos hover]
      have hne : h.accepted ≠ [] := by
        intro hnil
        rw [Mailbox.buffered, hnil, List.drop_nil, bytes_nil] at hover
        omega
      refine ⟨fun hno => absurd (Mailbox.finish_of_none _ ho).1 hno, fun _ => ⟨hne, ?_, ?_⟩⟩
      · rw [hmsg]
        exact List.prefix_append _ _
      · have hpos := List.length_pos_iff.2 hne
        rw [hmsg, List.length_append, List.length_singleton]
        omega
    · rw [if_neg hover, Mailbox.push_of_none _ ho]
      refine ⟨fun _ => ⟨hmsg.symm, ?_⟩, fun hov => ?_⟩
      · rw [ht]
        exact ho
      · rw [show h.outcome = some .overflow from hov] at ho
        cases ho
  · rename_i hk
    exact hend (by simp [isTerminal, hk]) (by rw [hk]; simp)
  · rename_i hk
    exact hend (by simp [isTerminal, hk]) (by rw [hk]; simp)
  · rename_i hmsgk hendk hrstk
    have hf : isTerminal f = false := by
      simpa [isTerminal] using And.intro hendk hrstk
    rw [if_neg hmsgk] at hmsg
    rw [hf] at ht
    refine ⟨fun _ => ⟨hacc.trans hmsg.symm, ?_⟩, fun hov => ?_⟩
    · rw [ht, ho]
      rfl
    · rw [ho] at hov
      cases hov

theorem Tracks.frame (hlim : 0 < limit) (hh : Tracks h fs) (f : Frame) :
    Tracks (Inbox.step limit h (.frame f)) (fs ++ [f]) := by
  cases ho : h.outcome with
  | none => exact hh.frame_open hlim ho f
  | some c => exact hh.frame_finished (by rw [ho]; rfl) f

/-- The first message is the first result. -/
theorem Tracks.results_first (hh : Tracks h fs) {p : Payload} {ps : List Payload}
    (hm : messages fs = p :: ps) (hn : 0 < h.pulls) : ∃ rest, h.results = .ok p :: rest := by
  have hacc : ∃ l, h.accepted = p :: l := by
    by_cases hover : h.outcome = some .overflow
    · obtain ⟨hne, hpre, -⟩ := hh.lost hover
      obtain ⟨a, l, hl⟩ := List.exists_cons_of_ne_nil hne
      rw [hl, hm, List.cons_prefix_cons] at hpre
      exact ⟨l, by rw [hl, hpre.1]⟩
    · exact ⟨ps, (hh.whole hover).1.trans hm⟩
  obtain ⟨l, hl⟩ := hacc
  obtain ⟨n, hn⟩ := Nat.exists_eq_succ_of_ne_zero hn.ne'
  rw [Mailbox.results, hl, hn, List.take_succ_cons, List.map_cons, List.cons_append]
  exact ⟨_, rfl⟩

/-- With one message at most there is no overflow. -/
theorem Tracks.results_short (hh : Tracks h fs) (hlen : (messages fs).length ≤ 1) :
    h.results = ((messages fs).take h.pulls).map .ok ++
      ((terminal fs).map fun t =>
        List.replicate (h.pulls - (messages fs).length) (.error (.frame t))).getD [] := by
  have hover : h.outcome ≠ some .overflow := by
    intro hov
    have := (hh.lost hov).2.2
    omega
  obtain ⟨hacc, hout⟩ := hh.whole hover
  rw [Mailbox.results, Mailbox.beyond, hacc, hout, Option.map_map]
  rfl

end Tracks

/-! ## What a drain returns -/

theorem Drain.isRight_afterFrom (d : Drain σ ρ ο) {r : ρ} (hr : ∀ q, (d.step q r).isRight) :
    ∀ {rs : List ρ} (q : σ), r ∈ rs → (d.afterFrom q rs).isRight := by
  intro rs
  induction rs with
  | nil => intro q h; cases h
  | cons r' rs ih =>
      intro q h
      rw [afterFrom]
      cases hs : d.step q r' with
      | inr o => rfl
      | inl q' =>
          rcases List.mem_cons.1 h with rfl | h
          · have := hr q
            rw [hs] at this
            cases this
          · exact ih q' h

section Returns

variable {rt : Runtime S ρ} {d : Drain σ ρ ο} {limit : ℤ} {toResult : Except Cause Payload → ρ}
  {rel : S → Mailbox Payload Cause → Prop} {fs : List Frame} {P : ο → Prop}

/-- **Runs of a drain.** -/
theorem Draining.tracks (hr : Refines rt limit toResult rel) {n : ℕ} {s : S}
    (h : Draining rt d fs n s) (hfs : ∀ f ∈ fs, Addressed f) :
    ∃ g, rel s g ∧ Tracks g fs ∧ g.pulls = n := by
  induction h with
  | start => exact ⟨{}, hr.start, ⟨fun _ => ⟨rfl, rfl⟩, fun h => by cases h⟩, rfl⟩
  | @frame fs n s s' f _ hev ih =>
      obtain ⟨g, hrel, htr, hn⟩ := ih fun f hf => hfs f (List.mem_append_left _ hf)
      have hf : Addressed f := hfs f (List.mem_append_right _ List.mem_cons_self)
      refine ⟨_, hr.event hrel (by rintro _ ⟨⟩; exact hf) hev, htr.frame hr.pos f, ?_⟩
      rw [step_pulls, hn]
  | call _ _ hev ih =>
      obtain ⟨g, hrel, htr, hn⟩ := ih hfs
      refine ⟨g.pull, hr.event hrel (fun f hf => by cases hf) hev, ⟨htr.whole, htr.lost⟩, ?_⟩
      show g.pulls + 1 = _
      rw [hn]

/-- A frame can always come in. -/
theorem Draining.exists_frame (hr : Refines rt limit toResult rel) {n : ℕ} {s : S}
    {g : Mailbox Payload Cause} (hs : Draining rt d fs n s) (hrel : rel s g) {f : Frame}
    (hf : Addressed f) :
    ∃ s', Draining rt d (fs ++ [f]) n s' ∧ rel s' (Inbox.step limit g (.frame f)) := by
  have he : ∀ f', Event.frame f = .frame f' → Addressed f' := by
    rintro _ ⟨⟩
    exact hf
  obtain ⟨s', hev⟩ := hr.exists_event hrel he
  exact ⟨s', hs.frame hev, hr.event hrel he hev⟩

/-- A call that is due can be made. -/
theorem Draining.exists_call (hr : Refines rt limit toResult rel) {n : ℕ} {s : S}
    {g : Mailbox Payload Cause} (hs : Draining rt d fs n s) (hrel : rel s g)
    (hcalls : d.Calls (g.results.map toResult) n) :
    ∃ s', Draining rt d fs (n + 1) s' ∧ rel s' g.pull := by
  have he : ∀ f, Event.recv = .frame f → Addressed f := fun f hf => by cases hf
  obtain ⟨s', hev⟩ := hr.exists_event hrel he
  rw [← hr.results hrel] at hcalls
  exact ⟨s', hs.call hcalls hev, hr.event hrel he hev⟩

/-- All the frames before the first call. -/
theorem exists_draining_zero (hr : Refines rt limit toResult rel) :
    ∀ fs : List Frame, (∀ f ∈ fs, Addressed f) → ∃ s, Draining rt d fs 0 s := by
  intro fs
  induction fs using List.reverseRecOn with
  | nil => intro _; exact ⟨_, .start⟩
  | append_singleton fs f ih =>
      intro hfs
      have hfs' : ∀ f ∈ fs, Addressed f := fun f hf => hfs f (List.mem_append_left _ hf)
      obtain ⟨s, hs⟩ := ih hfs'
      obtain ⟨g, hrel, -⟩ := hs.tracks hr hfs'
      have hf : Addressed f := hfs f (List.mem_append_right _ List.mem_cons_self)
      obtain ⟨s', hs', -⟩ := hs.exists_frame hr hrel hf
      exact ⟨s', hs'⟩

/-- A call that is due finds a message or waits: the drain has seen no error. -/
theorem Refines.pulls_le (hr : Refines rt limit toResult rel)
    (hstop : ∀ q c, (d.step q (toResult (.error c))).isRight) {s : S}
    {g : Mailbox Payload Cause} (hrel : rel s g) (hcalls : d.Calls (rt.results s) g.pulls) :
    g.pulls ≤ g.accepted.length := by
  obtain ⟨hlen, hleft⟩ := hcalls
  rw [hr.results hrel] at hlen hleft
  by_contra hlt
  have hle : g.accepted.length ≤ g.pulls := by omega
  cases ho : g.outcome with
  | none =>
      rw [List.length_map, Mailbox.results, ho, List.take_of_length_le hle] at hlen
      simp only [Option.map_none, Option.getD_none, List.append_nil, List.length_map] at hlen
      omega
  | some c =>
      have hmem : .error c ∈ g.results := by
        rw [Mailbox.results, ho, List.mem_append]
        refine Or.inr (List.mem_replicate.2 ⟨?_, rfl⟩)
        rw [Mailbox.beyond]
        omega
      have hright := d.isRight_afterFrom (hstop · c) d.start (List.mem_map_of_mem hmem)
      rw [Drain.after, ← Sum.not_isRight] at hleft
      simp [hright] at hleft

/-- **A drain that stops at errors makes its last call.** -/
theorem exists_draining (hr : Refines rt limit toResult rel)
    (hstop : ∀ q c, (d.step q (toResult (.error c))).isRight) (hfs : ∀ f ∈ fs, Addressed f) :
    ∃ n s, Draining rt d fs n s ∧ ¬ d.Calls (rt.results s) n := by
  -- Each call takes one of the messages that are there, or is the last.
  have hgo : ∀ k n s g, Draining rt d fs n s → rel s g → g.pulls = n →
      g.accepted.length + 1 - n = k → ∃ n s, Draining rt d fs n s ∧ ¬ d.Calls (rt.results s) n := by
    intro k
    induction k with
    | zero =>
        intro n s g hs hrel hn hk
        refine ⟨n, s, hs, fun hcalls => ?_⟩
        have := hr.pulls_le hstop hrel (hn ▸ hcalls)
        omega
    | succ k ih =>
        intro n s g hs hrel hn hk
        by_cases hcalls : d.Calls (rt.results s) n
        · obtain ⟨s', hs', hrel'⟩ := hs.exists_call hr hrel (hr.results hrel ▸ hcalls)
          refine ih (n + 1) s' g.pull hs' hrel' ?_ ?_
          · rw [← hn]
            rfl
          · show g.accepted.length + 1 - (n + 1) = k
            omega
        · exact ⟨n, s, hs, hcalls⟩
  obtain ⟨s, hs⟩ := exists_draining_zero (d := d) hr fs hfs
  obtain ⟨g, hrel, -, hn⟩ := hs.tracks hr hfs
  exact hgo _ 0 s g hs hrel hn rfl

/-- A drain at rest has called at least once. -/
theorem Draining.pulls_pos (hr : Refines rt limit toResult rel) {s : S}
    {g : Mailbox Payload Cause} (hrel : rel s g) (hcalls : ¬ d.Calls (rt.results s) g.pulls) :
    0 < g.pulls := by
  rw [Nat.pos_iff_ne_zero]
  intro hz
  have hnil : g.results = [] := by
    rw [Mailbox.results, Mailbox.beyond, hz, List.take_zero, Nat.zero_sub]
    cases g.outcome <;> rfl
  rw [hr.results hrel, hnil, hz] at hcalls
  exact hcalls ⟨rfl, rfl⟩

variable (hr : Refines rt limit toResult rel)
  (hstop : ∀ q c, (d.step q (toResult (.error c))).isRight) (hfs : ∀ f ∈ fs, Addressed f)

include hr hstop hfs

/-- If every run that has come to rest has returned the same, that is what the drain
returns. -/
theorem returns_iff {o : ο} (hall : ∀ g, Tracks g fs → 0 < g.pulls →
    ¬ d.Calls (g.results.map toResult) g.pulls → d.after (g.results.map toResult) = .inr o) :
    Returns rt d fs P ↔ P o := by
  have hafter : ∀ n s, Draining rt d fs n s → ¬ d.Calls (rt.results s) n →
      d.after (rt.results s) = .inr o := by
    intro n s hs hcalls
    obtain ⟨g, hrel, htr, rfl⟩ := hs.tracks hr hfs
    have hpos := Draining.pulls_pos hr hrel hcalls
    rw [hr.results hrel] at hcalls ⊢
    exact hall g htr hpos hcalls
  obtain ⟨n, s, hs, hcalls⟩ := exists_draining (d := d) hr hstop hfs
  constructor
  · rintro ⟨-, hP⟩
    obtain ⟨o', ho', hP⟩ := hP n s hs hcalls
    rw [hafter n s hs hcalls] at ho'
    cases ho'
    exact hP
  · intro hP
    exact ⟨⟨n, s, hs, hcalls⟩, fun n s hs hcalls => ⟨o, hafter n s hs hcalls, hP⟩⟩

/-- It returns on the first message. -/
theorem returns_first {p : Payload} {ps : List Payload} {o : ο} (hm : messages fs = p :: ps)
    (hstep : d.step d.start (toResult (.ok p)) = .inr o) : Returns rt d fs P ↔ P o := by
  refine returns_iff hr hstop hfs fun g htr hpos _ => ?_
  obtain ⟨rest, hres⟩ := htr.results_first hm hpos
  rw [hres, Drain.after, List.map_cons, Drain.afterFrom, hstep]

/-- It returns on a terminal frame without a message. -/
theorem returns_terminal {t : Frame} {o : ο} (hm : messages fs = []) (ht : terminal fs = some t)
    (hstep : d.step d.start (toResult (.error (.frame t))) = .inr o) :
    Returns rt d fs P ↔ P o := by
  refine returns_iff hr hstop hfs fun g htr hpos _ => ?_
  obtain ⟨n, hn⟩ := Nat.exists_eq_succ_of_ne_zero hpos.ne'
  have hres : g.results = .error (.frame t) :: List.replicate n (.error (.frame t)) := by
    rw [htr.results_short (by rw [hm]; exact Nat.zero_le 1), hm, ht, hn]
    rfl
  rw [hres, Drain.after, List.map_cons, Drain.afterFrom, hstep]

/-- It goes on after the one message there is, and returns on the terminal frame. -/
theorem returns_pair {p : Payload} {t : Frame} {q : σ} {o : ο} (hm : messages fs = [p])
    (ht : terminal fs = some t) (hstep : d.step d.start (toResult (.ok p)) = .inl q)
    (hnext : d.step q (toResult (.error (.frame t))) = .inr o) : Returns rt d fs P ↔ P o := by
  refine returns_iff hr hstop hfs fun g htr hpos hcalls => ?_
  obtain ⟨n, hn⟩ := Nat.exists_eq_succ_of_ne_zero hpos.ne'
  have hres : g.results = .ok p :: List.replicate n (.error (.frame t)) := by
    rw [htr.results_short (by rw [hm]; exact le_rfl), hm, ht, hn, List.take_succ_cons,
      List.take_nil]
    rfl
  rw [hres, Drain.after, List.map_cons, Drain.afterFrom, hstep]
  cases n with
  | zero =>
      -- After one call it calls again.
      rw [hres, hn, Drain.Calls, Drain.after, List.map_cons, Drain.afterFrom, hstep] at hcalls
      exact absurd ⟨rfl, rfl⟩ hcalls
  | succ n =>
      show d.afterFrom q (toResult (.error (.frame t)) :: _) = _
      rw [Drain.afterFrom, hnext]

omit hstop in
/-- It waits for a server that sends neither. -/
theorem waits_silent (hm : messages fs = []) (ht : terminal fs = none) : Waits rt d fs := by
  intro n s hs
  obtain ⟨g, hrel, htr, -⟩ := hs.tracks hr hfs
  rw [hr.results hrel, htr.results_short (by rw [hm]; exact Nat.zero_le 1), hm, ht,
    List.take_nil]
  exact ⟨_, rfl⟩

omit hstop in
/-- It waits for a server that sends one message, after which it goes on, and nothing else. -/
theorem waits_open {p : Payload} {q : σ} (hm : messages fs = [p]) (ht : terminal fs = none)
    (hstep : d.step d.start (toResult (.ok p)) = .inl q) : Waits rt d fs := by
  intro n s hs
  obtain ⟨g, hrel, htr, -⟩ := hs.tracks hr hfs
  rw [hr.results hrel, htr.results_short (by rw [hm]; exact le_rfl), hm, ht]
  cases hn : g.pulls with
  | zero => exact ⟨_, rfl⟩
  | succ n =>
      rw [List.take_succ_cons, List.take_nil, Drain.after, Option.map_none, Option.getD_none,
        List.append_nil, List.map_cons, List.map_cons, Drain.afterFrom, hstep]
      exact ⟨q, rfl⟩

end Returns

end WsProto
