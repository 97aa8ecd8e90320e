import WsProto.Lib.Run

/-!
# The keepalive of a mux

`startKeepalive` starts a goroutine that pings the peer at every tick of a ticker and cancels
the mux when a ping is not answered in time.  A `time.Ticker` holds at most one tick that was
not received; a tick that finds another is dropped, so that pings slower than the interval
follow one another without a pause.

The runs are timed: time passes in units of a nanosecond, and not while the goroutine or the
ticker has something to do.  `Ping` may return at any time, and returns at the latest when its
context is done.

* `silent_inv`, `prompt_inv` — what holds in the runs with a peer that stops answering, and
  with one that answers in time;
* `exists_later` — time goes on from every state;
* `keepalive_detects` — a peer that stops answering is noticed within `interval + timeout`, one
  that answers in time is never taken for dead, and without an interval neither is any.
-/

namespace WsProto.Go.Keepalive

open Machine

/-! ## The model -/

/-- Where the goroutine of `startKeepalive` is. -/
inductive Pc where
  /-- Not started: there is no interval. -/
  | off
  /-- In the select on `m.ctx` and the ticker. -/
  | waiting
  /-- In `Ping`, since then. -/
  | pinging (since : ℕ)
  | returned
  deriving DecidableEq

/-- The ticker is made with the goroutine and stopped when it returns. -/
def Pc.ticking : Pc → Bool
  | .waiting | .pinging _ => true
  | .off | .returned => false

structure Watch where
  now : ℕ := 0
  pc : Pc
  /-- When the ticker sends next. -/
  nextTick : ℕ
  /-- `ticker.C` holds a tick. -/
  tick : Bool := false
  /-- `m.ctx` is done. -/
  cancelled : Bool := false
  /-- Ghost: it was the goroutine that cancelled the mux. -/
  failed : Bool := false
  deriving DecidableEq

/-- `startKeepalive`. -/
def startKeepalive (interval : Int64) : Watch where
  pc := if interval ≤ 0 then .off else .waiting
  nextTick := interval.toInt.toNat

inductive Event where
  /-- A nanosecond passes. -/
  | pass
  /-- The ticker sends. -/
  | send
  /-- The goroutine receives a tick and calls `Ping`. -/
  | ping
  /-- `Ping` returns nil. -/
  | pong
  /-- `Ping` returns an error. -/
  | pingErr
  /-- The goroutine sees that `m.ctx` is done. -/
  | done
  /-- Somebody else cancels the mux. -/
  | cancel
  deriving DecidableEq

namespace Watch

/-- The context of `Ping` is done: its timeout is over, or that of the mux is. -/
def expired (timeout : ℕ) (x : Watch) (since : ℕ) : Prop :=
  x.cancelled = true ∨ since + timeout ≤ x.now

instance (timeout : ℕ) (x : Watch) (since : ℕ) : Decidable (x.expired timeout since) :=
  inferInstanceAs (Decidable (_ ∨ _))

/-- The goroutine can go on by itself. -/
def Ready (timeout : ℕ) (x : Watch) : Pc → Prop
  | .waiting => x.tick = true ∨ x.cancelled = true
  | .pinging since => x.expired timeout since
  | .off | .returned => False

instance (timeout : ℕ) (x : Watch) (pc : Pc) : Decidable (x.Ready timeout pc) := by
  cases pc <;> unfold Ready <;> infer_instance

/-- The ticker is to send now. -/
def Sends (x : Watch) : Prop := x.pc.ticking = true ∧ x.nextTick = x.now

instance (x : Watch) : Decidable x.Sends := inferInstanceAs (Decidable (_ ∧ _))

def step (interval timeout : ℕ) (x : Watch) : Event → Option Watch
  | .pass =>
      if x.Ready timeout x.pc ∨ x.Sends then none else some { x with now := x.now + 1 }
  | .send =>
      if x.Sends then some { x with tick := true, nextTick := x.nextTick + interval } else none
  | .ping =>
      match x.pc, x.tick with
      | .waiting, true => some { x with pc := .pinging x.now, tick := false }
      | _, _ => none
  | .pong =>
      match x.pc with
      | .pinging _ => some { x with pc := .waiting }
      | _ => none
  | .pingErr =>
      match x.pc with
      | .pinging _ =>
          some { x with pc := .returned, cancelled := true, failed := x.failed || !x.cancelled }
      | _ => none
  | .done =>
      match x.pc, x.cancelled with
      | .waiting, true => some { x with pc := .returned }
      | _, _ => none
  | .cancel => some { x with cancelled := true }

end Watch

open Watch

/-- The peer answers no ping after `t`. -/
def Silent (t : ℕ) (x : Watch) (e : Event) : Prop := e = .pong → x.now ≤ t

/-- The peer answers every ping before it expires, and `Ping` fails for no other reason. -/
def Prompt (timeout : ℕ) (x : Watch) : Event → Prop
  | .pass => ∀ since, x.pc = .pinging since → x.now + 1 < since + timeout
  | .pingErr => ∀ since, x.pc = .pinging since → x.expired timeout since
  | _ => True

instance (t : ℕ) (x : Watch) (e : Event) : Decidable (Silent t x e) :=
  inferInstanceAs (Decidable (_ → _))

variable {interval timeout t : ℕ} {x y : Watch} {e : Event}

/-! ## A peer that stops answering -/

/-- What holds in every run with a peer that is silent after `t`. -/
structure SilentInv (interval timeout t : ℕ) (x : Watch) : Prop where
  now_le : x.pc.ticking = true → x.now ≤ x.nextTick
  le_now : x.nextTick ≤ x.now + interval
  ticking : x.cancelled = false → x.pc.ticking = true
  /-- The ping that is not answered starts in time. -/
  received : x.cancelled = false → x.pc = .waiting → x.tick = true → x.now ≤ t + interval
  waiting : x.cancelled = false → x.pc = .waiting → x.tick = false → x.nextTick ≤ t + interval
  pinging : ∀ since, x.cancelled = false → x.pc = .pinging since →
    since ≤ t + interval ∧ x.now ≤ since + timeout

namespace SilentInv

theorem start {i : Int64} (hi : 0 < i) (timeout t : ℕ) :
    SilentInv i.toInt.toNat timeout t (startKeepalive i) := by
  have hpc : (startKeepalive i).pc = .waiting := if_neg (Int64.not_le.2 hi)
  refine ⟨fun _ => Nat.zero_le _, Nat.le_add_left _ _, fun _ => by rw [hpc]; rfl, ?_, ?_, ?_⟩
  · intro _ _ htick
    cases htick
  · intro _ _ _
    exact Nat.le_add_left _ _
  · intro since _ hping
    rw [hpc] at hping
    cases hping

theorem pass (h : SilentInv interval timeout t x) (hidle : ¬(x.Ready timeout x.pc ∨ x.Sends)) :
    SilentInv interval timeout t { x with now := x.now + 1 } := by
  obtain ⟨hready, hsends⟩ := not_or.1 hidle
  refine ⟨?_, ?_, h.ticking, ?_, h.waiting, ?_⟩
  · intro hpc
    have hne : x.nextTick ≠ x.now := fun heq => hsends ⟨hpc, heq⟩
    exact Nat.lt_of_le_of_ne (h.now_le hpc) hne.symm
  · exact h.le_now.trans (Nat.add_le_add_right (Nat.le_succ _) _)
  · intro _ hpc htick
    exact absurd (by rw [hpc]; exact .inl htick) hready
  · intro since hlive hpc
    have hearly : ¬x.expired timeout since := by
      intro hexp
      exact hready (by rw [hpc]; exact hexp)
    exact ⟨(h.pinging since hlive hpc).1, not_le.1 (not_or.1 hearly).2⟩

theorem send (h : SilentInv interval timeout t x) (hs : x.Sends) :
    SilentInv interval timeout t { x with tick := true, nextTick := x.nextTick + interval } := by
  refine ⟨?_, ?_, h.ticking, ?_, ?_, h.pinging⟩
  · intro _
    exact hs.2 ▸ Nat.le_add_right _ _
  · exact Nat.add_le_add_right hs.2.le _
  · intro hlive hpc _
    cases htick : x.tick with
    | true => exact h.received hlive hpc htick
    | false => exact hs.2 ▸ h.waiting hlive hpc htick
  · intro _ _ htick
    cases htick

theorem ping (h : SilentInv interval timeout t x) (hpc : x.pc = .waiting) (htick : x.tick = true) :
    SilentInv interval timeout t { x with pc := .pinging x.now, tick := false } := by
  refine ⟨fun _ => h.now_le (by rw [hpc]; rfl), h.le_now, fun _ => rfl, ?_, ?_, ?_⟩
  · intro _ hwait
    cases hwait
  · intro _ hwait
    cases hwait
  · intro since hlive hping
    cases hping
    exact ⟨h.received hlive hpc htick, Nat.le_add_right _ _⟩

/-- The last answer is no later than `t`, and the next tick comes within an interval of it. -/
theorem pong {since : ℕ} (h : SilentInv interval timeout t x) (hpc : x.pc = .pinging since)
    (ht : x.now ≤ t) : SilentInv interval timeout t { x with pc := .waiting } := by
  refine ⟨fun _ => h.now_le (by rw [hpc]; rfl), h.le_now, fun _ => rfl, ?_, ?_, ?_⟩
  · intro _ _ _
    exact ht.trans (Nat.le_add_right _ _)
  · intro _ _ _
    exact h.le_now.trans (Nat.add_le_add_right ht _)
  · intro since _ hping
    cases hping

/-- Once the mux is cancelled nothing is asked of the goroutine. -/
theorem cancelled {pc : Pc} {failed : Bool} (h : SilentInv interval timeout t x)
    (hpc : pc = .returned ∨ pc = x.pc) :
    SilentInv interval timeout t { x with pc := pc, cancelled := true, failed := failed } := by
  refine ⟨?_, h.le_now, ?_, ?_, ?_, ?_⟩
  · intro htick
    rcases hpc with rfl | rfl
    · cases htick
    · exact h.now_le htick
  · intro hlive
    cases hlive
  · intro hlive
    cases hlive
  · intro hlive
    cases hlive
  · intro since hlive
    cases hlive

theorem step (h : SilentInv interval timeout t x) (hok : Silent t x e)
    (hs : Watch.step interval timeout x e = some y) : SilentInv interval timeout t y := by
  cases e with
  | pass =>
      simp only [Watch.step] at hs
      split_ifs at hs with hidle
      cases hs
      exact h.pass hidle
  | send =>
      simp only [Watch.step] at hs
      split_ifs at hs with hsends
      cases hs
      exact h.send hsends
  | ping =>
      simp only [Watch.step] at hs
      split at hs
      · next hpc htick =>
          cases hs
          exact h.ping hpc htick
      · cases hs
  | pong =>
      simp only [Watch.step] at hs
      split at hs
      · next hpc =>
          cases hs
          exact h.pong hpc (hok rfl)
      · cases hs
  | pingErr =>
      simp only [Watch.step] at hs
      split at hs
      · cases hs
        exact h.cancelled (.inl rfl)
      · cases hs
  | done =>
      simp only [Watch.step] at hs
      split at hs
      · next hdone =>
          cases hs
          have hx : SilentInv interval timeout t { x with pc := .returned, cancelled := true } :=
            h.cancelled (.inl rfl)
          rwa [← hdone] at hx
      · cases hs
  | cancel =>
      cases hs
      exact h.cancelled (.inr rfl)

/-- A mux that is not cancelled has not outlived the last ping. -/
theorem now_bound (h : SilentInv interval timeout t x) (hlive : x.cancelled = false) :
    x.now ≤ t + interval + timeout := by
  cases hpc : x.pc with
  | off =>
      have htick := h.ticking hlive
      rw [hpc] at htick
      cases htick
  | returned =>
      have htick := h.ticking hlive
      rw [hpc] at htick
      cases htick
  | waiting =>
      have hnow : x.now ≤ t + interval := by
        cases htick : x.tick with
        | true => exact h.received hlive hpc htick
        | false => exact (h.now_le (by rw [hpc]; rfl)).trans (h.waiting hlive hpc htick)
      exact hnow.trans (Nat.le_add_right _ _)
  | pinging since =>
      obtain ⟨hsince, hnow⟩ := h.pinging since hlive hpc
      exact hnow.trans (Nat.add_le_add_right hsince _)

end SilentInv

theorem silent_inv {i : Int64} (hi : 0 < i)
    (h : Reach (Watch.step i.toInt.toNat timeout) (Silent t) (startKeepalive i) x) :
    SilentInv i.toInt.toNat timeout t x :=
  h.invariant (.start hi timeout t) fun _ _ _ hx hok hs => hx.step hok hs

/-! ## Time goes on -/

section Later

variable (t)

/-- The state after some silent steps in which a nanosecond passes. -/
def Later (interval timeout : ℕ) (x : Watch) : Prop :=
  ∃ y, Reach (Watch.step interval timeout) (Silent t) x y ∧ y.now = x.now + 1

variable {t}

theorem later_of_step (hs : Watch.step interval timeout x e = some y) (he : e ≠ .pong)
    (hnow : y.now = x.now) (h : Later t interval timeout y) : Later t interval timeout x := by
  obtain ⟨z, hz, hlater⟩ := h
  exact ⟨z, Reach.head (fun hp => absurd hp he) hs hz, by rw [hlater, hnow]⟩

theorem later_of_idle (hidle : ¬(x.Ready timeout x.pc ∨ x.Sends)) :
    Later t interval timeout x := by
  have hpass : Watch.step interval timeout x .pass = some { x with now := x.now + 1 } :=
    if_neg hidle
  exact ⟨_, Reach.refl.tail (fun hp => by cases hp) hpass, rfl⟩

theorem later_of_returned (hpc : x.pc = .returned ∨ x.pc = .off) :
    Later t interval timeout x := by
  apply later_of_idle
  rintro (hready | ⟨htick, -⟩)
  · rcases hpc with hpc | hpc
    · rwa [hpc] at hready
    · rwa [hpc] at hready
  · rcases hpc with hpc | hpc
    · rw [hpc] at htick
      cases htick
    · rw [hpc] at htick
      cases htick

theorem send_eq (hsends : x.Sends) : Watch.step interval timeout x .send =
    some { x with tick := true, nextTick := x.nextTick + interval } :=
  if_pos hsends

theorem later_of_pinging {since : ℕ} (hpos : 0 < interval) (hpc : x.pc = .pinging since) :
    Later t interval timeout x := by
  by_cases hexp : x.expired timeout since
  · have herr : Watch.step interval timeout x .pingErr = some
        { x with pc := .returned, cancelled := true, failed := x.failed || !x.cancelled } := by
      simp only [Watch.step, hpc]
    exact later_of_step herr (by decide) rfl (later_of_returned (.inl rfl))
  · have hready : ¬x.Ready timeout x.pc := by rwa [hpc]
    by_cases hsends : x.Sends
    · -- the ticker sends, and then not before another interval
      refine later_of_step (send_eq hsends) (by decide) rfl (later_of_idle (not_or.2 ⟨?_, ?_⟩))
      · show ¬Ready timeout _ x.pc
        rw [hpc]
        exact hexp
      · rintro ⟨-, heq⟩
        have heq' : x.nextTick + interval = x.now := heq
        have hnow := hsends.2
        omega
    · exact later_of_idle (not_or.2 ⟨hready, hsends⟩)

theorem later_of_tick (hpos : 0 < interval) (hpc : x.pc = .waiting) (htick : x.tick = true) :
    Later t interval timeout x := by
  have hping : Watch.step interval timeout x .ping =
      some { x with pc := .pinging x.now, tick := false } := by
    simp only [Watch.step, hpc, htick]
  exact later_of_step hping (by decide) rfl (later_of_pinging hpos rfl)

/-- **Time goes on**, from every state. -/
theorem exists_later (hpos : 0 < interval) (x : Watch) : Later t interval timeout x := by
  cases hpc : x.pc with
  | off => exact later_of_returned (.inr hpc)
  | returned => exact later_of_returned (.inl hpc)
  | pinging since => exact later_of_pinging hpos hpc
  | waiting =>
      cases htick : x.tick with
      | true => exact later_of_tick hpos hpc htick
      | false =>
          cases hdone : x.cancelled with
          | true =>
              have hs : Watch.step interval timeout x .done = some { x with pc := .returned } := by
                simp only [Watch.step, hpc, hdone]
              exact later_of_step hs (by decide) rfl (later_of_returned (.inl rfl))
          | false =>
              by_cases hsends : x.Sends
              · exact later_of_step (send_eq hsends) (by decide) rfl (later_of_tick hpos hpc rfl)
              · apply later_of_idle
                rw [hpc]
                simp only [Ready, htick, hdone, hsends, Bool.false_eq_true, or_self,
                  not_false_eq_true]

end Later

/-! ## A peer that answers -/

/-- What holds in every run with a peer that answers in time. -/
structure PromptInv (timeout : ℕ) (x : Watch) : Prop where
  failed : x.failed = false
  early : ∀ since, x.pc = .pinging since → x.now < since + timeout

theorem PromptInv.step (h : PromptInv timeout x) (hpos : 0 < timeout) (hok : Prompt timeout x e)
    (hs : Watch.step interval timeout x e = some y) : PromptInv timeout y := by
  cases e with
  | pass =>
      simp only [Watch.step] at hs
      split_ifs at hs
      cases hs
      exact ⟨h.failed, hok⟩
  | send =>
      simp only [Watch.step] at hs
      split_ifs at hs
      cases hs
      exact ⟨h.failed, h.early⟩
  | ping =>
      simp only [Watch.step] at hs
      split at hs
      · cases hs
        refine ⟨h.failed, ?_⟩
        intro since hping
        cases hping
        exact Nat.lt_add_of_pos_right hpos
      · cases hs
  | pong =>
      simp only [Watch.step] at hs
      split at hs
      · cases hs
        refine ⟨h.failed, ?_⟩
        intro since hping
        cases hping
      · cases hs
  | pingErr =>
      simp only [Watch.step] at hs
      split at hs
      · next since hpc =>
          -- the timeout is not over, so that the mux was cancelled before
          have hdone : x.cancelled = true :=
            (hok since hpc).resolve_right (not_le.2 (h.early since hpc))
          cases hs
          refine ⟨by rw [h.failed, hdone]; rfl, ?_⟩
          intro since hping
          cases hping
      · cases hs
  | done =>
      simp only [Watch.step] at hs
      split at hs
      · cases hs
        refine ⟨h.failed, ?_⟩
        intro since hping
        cases hping
      · cases hs
  | cancel =>
      cases hs
      exact ⟨h.failed, h.early⟩

theorem prompt_inv (hpos : 0 < timeout) {i : Int64}
    (h : Reach (Watch.step i.toInt.toNat timeout) (Prompt timeout) (startKeepalive i) x) :
    PromptInv timeout x := by
  refine h.invariant ⟨rfl, ?_⟩ fun _ _ _ hx hok hs => hx.step hpos hok hs
  intro since hpc
  simp only [startKeepalive] at hpc
  split_ifs at hpc

/-- Without an interval the goroutine is not there. -/
theorem off_of_reach {i : Int64} (hi : i ≤ 0)
    (h : Reach (Watch.step i.toInt.toNat timeout) Always (startKeepalive i) x) :
    x.pc = .off ∧ x.failed = false := by
  refine h.invariant (P := fun x => x.pc = .off ∧ x.failed = false) ⟨if_pos hi, rfl⟩ ?_
  rintro x e y ⟨hpc, hfailed⟩ - hs
  have hidle : ¬x.Sends := by
    rintro ⟨htick, -⟩
    rw [hpc] at htick
    cases htick
  cases e <;> simp only [Watch.step, hpc, Ready, hidle, or_self, if_false, reduceCtorEq,
    Option.some.injEq] at hs
  · cases hs
    exact ⟨rfl, hfailed⟩
  · cases hs
    exact ⟨rfl, hfailed⟩

/-! ## The result -/

/-- What the keepalive of a mux notices. -/
structure Detects (interval timeout : Int64) : Prop where
  /-- A peer that stops answering at `t` has its mux cancelled in time, and time goes on. -/
  silent : 0 < interval → ∀ t x,
    Reach (Watch.step interval.toInt.toNat timeout.toInt.toNat) (Silent t)
      (startKeepalive interval) x →
    (x.cancelled = false → x.now ≤ t + interval.toInt.toNat + timeout.toInt.toNat) ∧
      Later t interval.toInt.toNat timeout.toInt.toNat x
  /-- A peer that answers in time is not taken for dead. -/
  prompt : 0 < timeout → ∀ x,
    Reach (Watch.step interval.toInt.toNat timeout.toInt.toNat) (Prompt timeout.toInt.toNat)
      (startKeepalive interval) x → x.failed = false
  /-- Without an interval nobody is. -/
  off : interval ≤ 0 → ∀ x,
    Reach (Watch.step interval.toInt.toNat timeout.toInt.toNat) Always
      (startKeepalive interval) x → x.failed = false

theorem toNat_pos {d : Int64} (hd : 0 < d) : 0 < d.toInt.toNat := by
  rw [Int64.lt_iff_toInt_lt, Int64.toInt_zero] at hd
  omega

/-- **The keepalive is a failure detector**, for any interval and timeout. -/
theorem keepalive_detects (interval timeout : Int64) : Detects interval timeout where
  silent hpos _ x h := ⟨(silent_inv hpos h).now_bound, exists_later (toNat_pos hpos) x⟩
  prompt hpos _ h := (prompt_inv (toNat_pos hpos) h).failed
  off hoff _ h := (off_of_reach hoff h).2

/-- The bound is reached. -/
example : (exec (Watch.step 3 2) (Silent 0) (startKeepalive 3)
    [.pass, .pass, .pass, .send, .ping, .pass, .pass]).map (fun x => (x.now, x.cancelled)) =
      some (3 + 2, false) := by
  decide

end WsProto.Go.Keepalive
