import WsProto.Lib.Binary64
import WsProto.Lib.Run

/-!
# The backoff of a reconnecting client

After the n-th failed dial `redial` sleeps for a random time of at most `initial * 2^n`,
capped at `max`.  `nextBackoff` computes the cap in `float64` and draws with `Int63n`, which
panics on an argument that is not positive.

A configuration carries that its durations are positive: `WithReconnect` starts from the
defaults, and no option replaces a duration by one that is not.

* `nextBackoff_eq` — the loop computes the capped power, and the draw panics exactly when
  that does not fit into an `int64`;
* `cap_lt_iff` — which configurations get there: only those whose `max` is within 512 ns of
  the largest duration;
* `cap_of_lt` — below 104 days no rounding shows;
* `redial_paced` — the sleeps of a whole run of `redial`.
-/

namespace WsProto.Go.Backoff

open Machine

/-! ## The configuration -/

/-- The `reconnectConfig` of a client with `WithReconnect`. -/
structure ReconnectConfig where
  initial : Int64
  max : Int64
  initial_pos : 0 < initial
  max_pos : 0 < max

def defaultReconnectConfig : ReconnectConfig where
  initial := 100000000
  max := 30000000000
  initial_pos := by decide
  max_pos := by decide

def withBackoff (initial max : Int64) (c : ReconnectConfig) : ReconnectConfig where
  initial := if 0 < initial then initial else c.initial
  max := if 0 < max then max else c.max
  initial_pos := by
    split_ifs with h
    · exact h
    · exact c.initial_pos
  max_pos := by
    split_ifs with h
    · exact h
    · exact c.max_pos

/-- `WithReconnect`; an option is the two durations of a `WithBackoff`. -/
def withReconnect (opts : List (Int64 × Int64)) : ReconnectConfig :=
  opts.foldl (fun c o => withBackoff o.1 o.2 c) defaultReconnectConfig

/-! ## The arithmetic of `nextBackoff` -/

/-- `float64(d)` of a positive duration. -/
def float64 (d : Int64) : ℕ := Binary64.round d.toInt.toNat

/-- What `int64(d)` gives for a double that is too large: the Go specification leaves it to
the implementation, and there are two. -/
inductive Conversion where
  /-- The smallest `int64`, on amd64. -/
  | indefinite
  /-- The largest `int64`, on arm64. -/
  | saturating
  deriving DecidableEq

def Conversion.overflow : Conversion → Int64
  | .indefinite => Int64.minValue
  | .saturating => Int64.maxValue

/-- `int64(d)`. -/
def toInt64 (conv : Conversion) (d : ℕ) : Int64 :=
  if d < 2 ^ 63 then Int64.ofNat d else conv.overflow

/-- `rng.Int63n(n)`; `none` is its panic. -/
def int63n (n : Int64) (draw : ℕ) : Option ℕ :=
  if n ≤ 0 then none else some (draw % n.toInt.toNat)

/-- The loop of `nextBackoff`, from its current `d`. -/
def grow (max : ℕ) : ℕ → ℕ → ℕ
  | 0, d => d
  | n + 1, d =>
      if max ≤ Binary64.round (2 * d) then max else grow max n (Binary64.round (2 * d))

def ReconnectConfig.nextBackoff (conv : Conversion) (c : ReconnectConfig) (attempt draw : ℕ) :
    Option ℕ :=
  let d := grow (float64 c.max) attempt (float64 c.initial)
  let d := if float64 c.max < d then float64 c.max else d
  int63n (toInt64 conv d + 1) draw

/-- What the sleep after a failed attempt is capped at. -/
def ReconnectConfig.cap (c : ReconnectConfig) (attempt : ℕ) : ℕ :=
  min (float64 c.initial * 2 ^ attempt) (float64 c.max)

theorem toNat_lt (d : Int64) : d.toInt.toNat < 2 ^ 63 := by
  have h := d.toInt_lt
  omega

theorem exact_float64 (d : Int64) : Binary64.Exact (float64 d) := Binary64.exact_round _

theorem min_grow {d : ℕ} (hd : Binary64.Exact d) (max n : ℕ) :
    min (grow max n d) max = min (d * 2 ^ n) max := by
  induction n generalizing d with
  | zero => rw [grow, pow_zero, Nat.mul_one]
  | succ n ih =>
      have hd' : Binary64.Exact (2 * d) := Binary64.exact_two_mul hd
      have hpow : d * 2 ^ (n + 1) = 2 * d * 2 ^ n := by ring
      rw [grow, Binary64.round_of_exact hd', hpow]
      split_ifs with hmax
      · have hle : 2 * d ≤ 2 * d * 2 ^ n := Nat.le_mul_of_pos_right _ (Nat.two_pow_pos n)
        omega
      · exact ih hd'

theorem exact_cap (c : ReconnectConfig) (n : ℕ) : Binary64.Exact (c.cap n) := by
  rw [ReconnectConfig.cap]
  rcases min_choice (float64 c.initial * 2 ^ n) (float64 c.max) with h | h
  · rw [h]
    exact Binary64.exact_mul_pow (exact_float64 _) n
  · rw [h]
    exact exact_float64 _

/-- A double is drawn from, bounds included, unless it is no `int64`: the largest double below
`2^63` leaves room for the one that is added. -/
theorem int63n_toInt64 (conv : Conversion) {d : ℕ} (hd : Binary64.Exact d) (draw : ℕ) :
    int63n (toInt64 conv d + 1) draw = if d < 2 ^ 63 then some (draw % (d + 1)) else none := by
  rw [toInt64]
  split_ifs with hlt
  · have hne : d ≠ 2 ^ 63 - 1 := by
      rintro rfl
      exact absurd hd (by decide)
    have hval : (Int64.ofNat d + 1).toInt = d + 1 := by
      rw [Int64.toInt_add, Int64.toInt_ofNat_of_lt hlt, Int64.toInt_one,
        Int.bmod_eq_of_le (by omega) (by omega)]
    have hpos : ¬Int64.ofNat d + 1 ≤ 0 := by
      rw [Int64.le_iff_toInt_le, hval, Int64.toInt_zero]
      omega
    rw [int63n, if_neg hpos, hval, ← Nat.cast_succ, Int.toNat_natCast]
  · cases conv
    · rfl
    · rfl

/-- **One sleep**: uniform up to the cap, or a panic where that is no `int64`. -/
theorem nextBackoff_eq (conv : Conversion) (c : ReconnectConfig) (n draw : ℕ) :
    c.nextBackoff conv n draw =
      if c.cap n < 2 ^ 63 then some (draw % (c.cap n + 1)) else none := by
  have hcap : (if float64 c.max < grow (float64 c.max) n (float64 c.initial) then float64 c.max
      else grow (float64 c.max) n (float64 c.initial)) = c.cap n := by
    rw [ReconnectConfig.cap, ← min_grow (exact_float64 _)]
    split_ifs
    · omega
    · omega
  rw [ReconnectConfig.nextBackoff, hcap]
  exact int63n_toInt64 conv (exact_cap c n) draw

/-! ## The cap -/

theorem two_pow_le_float64_iff (d : Int64) :
    2 ^ 63 ≤ float64 d ↔ 2 ^ 63 - 512 ≤ d.toInt.toNat :=
  Binary64.two_pow_le_round_iff (k := 9) (toNat_lt d)

/-- **What panics**: only a `max` of the largest durations, and not before the doubling has got
that far. -/
theorem cap_lt_iff (c : ReconnectConfig) (n : ℕ) :
    c.cap n < 2 ^ 63 ↔ c.max.toInt.toNat < 2 ^ 63 - 512 ∨ float64 c.initial * 2 ^ n < 2 ^ 63 := by
  have hmax := two_pow_le_float64_iff c.max
  rw [ReconnectConfig.cap, min_lt_iff]
  omega

/-- The cap of the option's comment, for a `max` of at most `2^53` ns. -/
theorem cap_of_lt {c : ReconnectConfig} (hmax : c.max.toInt.toNat < 2 ^ 53) (n : ℕ) :
    c.cap n = min (c.initial.toInt.toNat * 2 ^ n) c.max.toInt.toNat := by
  rw [ReconnectConfig.cap, float64, float64,
    Binary64.round_of_exact (Binary64.exact_of_lt hmax)]
  by_cases hinit : c.initial.toInt.toNat < 2 ^ 53
  · rw [Binary64.round_of_exact (Binary64.exact_of_lt hinit)]
  · -- both are above `max` from the start
    have hle := Binary64.two_pow_le_round (not_lt.1 hinit)
    have hgrow : ∀ d, 2 ^ 53 ≤ d → min (d * 2 ^ n) c.max.toInt.toNat = c.max.toInt.toNat := by
      intro d hd
      have := Nat.le_mul_of_pos_right d (Nat.two_pow_pos n)
      omega
    rw [hgrow _ hle, hgrow _ (not_lt.1 hinit)]

/-! ## A run of `redial` -/

/-- Where `redial` is. -/
inductive Pc where
  | top
  | dialing
  /-- In the select on the timer and `closeCh`. -/
  | sleeping
  | returned (mux : Bool)
  | panicked
  deriving DecidableEq

structure Redial where
  pc : Pc := .top
  attempt : ℕ := 0
  closeCh : Bool := false
  /-- Ghost: the durations of the timers, in order. -/
  sleeps : List ℕ := []
  /-- Ghost: the attempt that was under way when the connection was closed. -/
  last : Option ℕ := none
  deriving DecidableEq

inductive Event where
  /-- Somebody closes the connection. -/
  | close
  /-- `redial` sees `closeCh`. -/
  | seeClose
  | dial
  | dialOk
  /-- The dial fails, and the generator holds this draw. -/
  | dialErr (draw : ℕ)
  | timer
  deriving DecidableEq

namespace Redial

def step (conv : Conversion) (c : ReconnectConfig) (x : Redial) : Event → Option Redial
  | .close => some { x with closeCh := true, last := x.last <|> some x.attempt }
  | .seeClose =>
      match x.pc, x.closeCh with
      | .top, true | .sleeping, true => some { x with pc := .returned false }
      | _, _ => none
  | .dial =>
      match x.pc, x.closeCh with
      | .top, false => some { x with pc := .dialing }
      | _, _ => none
  | .dialOk =>
      match x.pc with
      | .dialing => some { x with pc := .returned true }
      | _ => none
  | .dialErr draw =>
      match x.pc with
      | .dialing =>
          some ((c.nextBackoff conv x.attempt draw).elim { x with pc := .panicked }
            fun d => { x with pc := .sleeping, sleeps := x.sleeps ++ [d] })
      | _ => none
  | .timer =>
      match x.pc with
      | .sleeping => some { x with pc := .top, attempt := x.attempt + 1 }
      | _ => none

end Redial

/-- The timers made so far, by where `redial` is. -/
def Tally (x : Redial) : Pc → Prop
  | .sleeping => x.sleeps.length = x.attempt + 1
  | .returned false => x.sleeps.length ≤ x.attempt + 1
  | _ => x.sleeps.length = x.attempt

/-- What every step of `redial` keeps. -/
structure Inv (c : ReconnectConfig) (x : Redial) : Prop where
  tally : Tally x x.pc
  sleeps_le : ∀ i d, x.sleeps[i]? = some d → d ≤ c.cap i
  panicked : x.pc = .panicked → 2 ^ 63 ≤ c.cap x.attempt
  last_none : x.last = none ↔ x.closeCh = false
  /-- The attempt under way when the connection was closed is the last. -/
  last_some : ∀ k, x.last = some k → x.sleeps.length ≤ k + 1 ∧
    (x.attempt = k ∨ x.attempt = k + 1 ∧ (x.pc = .top ∨ x.pc = .returned false))

theorem inv_start (c : ReconnectConfig) : Inv c {} where
  tally := rfl
  sleeps_le := by simp
  panicked := by simp
  last_none := by simp
  last_some := by simp

/-- The cap bounds the duration of a timer that is appended. -/
theorem sleeps_le_append {cap : ℕ → ℕ} {l : List ℕ} {e : ℕ}
    (hl : ∀ i d, l[i]? = some d → d ≤ cap i) (he : e ≤ cap l.length) (i d : ℕ)
    (hd : (l ++ [e])[i]? = some d) : d ≤ cap i := by
  rw [List.getElem?_append] at hd
  split_ifs at hd with hi
  · exact hl i d hd
  · obtain ⟨hlt, rfl⟩ := List.getElem?_eq_some_iff.1 hd
    have hi' : i = l.length := by
      simp only [List.length_singleton] at hlt
      omega
    simpa [hi'] using he

namespace Inv

variable {conv : Conversion} {c : ReconnectConfig} {x y : Redial}

theorem close (h : Inv c x) :
    Inv c { x with closeCh := true, last := x.last <|> some x.attempt } := by
  refine ⟨h.tally, h.sleeps_le, h.panicked, by simp, ?_⟩
  intro k hk
  cases hlast : x.last with
  | some j =>
      obtain rfl : j = k := by simpa [hlast] using hk
      exact h.last_some j hlast
  | none =>
      obtain rfl : x.attempt = k := by simpa [hlast] using hk
      refine ⟨?_, .inl rfl⟩
      have htally := h.tally
      revert htally
      rcases x.pc with _ | _ | _ | (_ | _) | _ <;> simp only [Tally] <;> omega

theorem dialErr (h : Inv c x) (hpc : x.pc = .dialing) (draw : ℕ) :
    Inv c ((c.nextBackoff conv x.attempt draw).elim { x with pc := .panicked }
      fun d => { x with pc := .sleeping, sleeps := x.sleeps ++ [d] }) := by
  have htally : x.sleeps.length = x.attempt := by simpa only [hpc, Tally] using h.tally
  have hattempt : ∀ k, x.last = some k → x.attempt = k := by
    intro k hk
    rcases (h.last_some k hk).2 with heq | ⟨-, htop | hret⟩
    · exact heq
    · rw [hpc] at htop
      cases htop
    · rw [hpc] at hret
      cases hret
  rw [nextBackoff_eq]
  split_ifs with hcap
  · refine ⟨by simp [Tally, htally], ?_, by simp, h.last_none, ?_⟩
    · apply sleeps_le_append h.sleeps_le
      rw [htally]
      exact Nat.le_of_lt_succ (Nat.mod_lt _ (Nat.succ_pos _))
    · intro k hk
      have hk' := hattempt k hk
      refine ⟨?_, .inl hk'⟩
      show (x.sleeps ++ [draw % (c.cap x.attempt + 1)]).length ≤ k + 1
      rw [List.length_append, List.length_singleton, htally, hk']
  · refine ⟨htally, h.sleeps_le, fun _ => not_lt.1 hcap, h.last_none, ?_⟩
    intro k hk
    exact ⟨(h.last_some k hk).1, .inl (hattempt k hk)⟩

theorem timer (h : Inv c x) (hpc : x.pc = .sleeping) :
    Inv c { x with pc := .top, attempt := x.attempt + 1 } := by
  have htally : x.sleeps.length = x.attempt + 1 := by simpa only [hpc, Tally] using h.tally
  refine ⟨htally, h.sleeps_le, by simp, h.last_none, ?_⟩
  intro k hk
  obtain ⟨hlen, heq | ⟨-, htop | hret⟩⟩ := h.last_some k hk
  · exact ⟨hlen, .inr ⟨congrArg (· + 1) heq, .inl rfl⟩⟩
  · rw [hpc] at htop
    cases htop
  · rw [hpc] at hret
    cases hret

/-- `redial` sees the connection closed, at the top of its loop or while it sleeps. -/
theorem seeClose (h : Inv c x) (hpc : x.pc = .top ∨ x.pc = .sleeping) :
    Inv c { x with pc := .returned false } := by
  refine ⟨?_, h.sleeps_le, by simp, h.last_none, ?_⟩
  · have htally := h.tally
    rcases hpc with hpc | hpc
    · simp only [hpc, Tally] at htally
      exact (htally.trans_lt (Nat.lt_succ_self _)).le
    · simp only [hpc, Tally] at htally
      exact htally.le
  · intro k hk
    obtain ⟨hlen, hcase⟩ := h.last_some k hk
    exact ⟨hlen, hcase.imp_right fun hnext => ⟨hnext.1, .inr rfl⟩⟩

/-- A dial is started, or returns a mux. -/
theorem goto {pc : Pc} (h : Inv c x) (hpc : x.pc = .top ∧ x.closeCh = false ∧ pc = .dialing ∨
    x.pc = .dialing ∧ pc = .returned true) : Inv c { x with pc := pc } := by
  have hold : Tally x .dialing := by
    rcases hpc with ⟨hpc, -⟩ | ⟨hpc, -⟩
    · exact (by simpa only [hpc] using h.tally : Tally x .top)
    · exact (by simpa only [hpc] using h.tally : Tally x .dialing)
  have hnot : pc ≠ .panicked := by
    rcases hpc with ⟨-, -, rfl⟩ | ⟨-, rfl⟩ <;> decide
  refine ⟨?_, h.sleeps_le, fun hp => absurd hp hnot, h.last_none, ?_⟩
  · rcases hpc with ⟨-, -, rfl⟩ | ⟨-, rfl⟩
    · exact hold
    · exact hold
  · intro k hk
    obtain ⟨hlen, heq | ⟨-, hother⟩⟩ := h.last_some k hk
    · exact ⟨hlen, .inl heq⟩
    · rcases hpc with ⟨-, hopen, -⟩ | ⟨hpc, -⟩
      · rw [h.last_none.2 hopen] at hk
        cases hk
      · rw [hpc] at hother
        rcases hother with hother | hother <;> cases hother

theorem step (h : Inv c x) {e : Event} (hs : Redial.step conv c x e = some y) : Inv c y := by
  cases e with
  | close =>
      cases hs
      exact h.close
  | seeClose =>
      simp only [Redial.step] at hs
      split at hs
      · next hpc _ =>
          cases hs
          exact h.seeClose (.inl hpc)
      · next hpc _ =>
          cases hs
          exact h.seeClose (.inr hpc)
      · cases hs
  | dial =>
      simp only [Redial.step] at hs
      split at hs
      · next hpc hopen =>
          cases hs
          exact h.goto (.inl ⟨hpc, hopen, rfl⟩)
      · cases hs
  | dialOk =>
      simp only [Redial.step] at hs
      split at hs
      · next hpc =>
          cases hs
          exact h.goto (.inr ⟨hpc, rfl⟩)
      · cases hs
  | dialErr draw =>
      simp only [Redial.step] at hs
      split at hs
      · next hpc =>
          cases hs
          exact h.dialErr hpc draw
      · cases hs
  | timer =>
      simp only [Redial.step] at hs
      split at hs
      · next hpc =>
          cases hs
          exact h.timer hpc
      · cases hs

end Inv

theorem inv_of_reach {conv : Conversion} {c : ReconnectConfig} {x : Redial}
    (h : Reach (Redial.step conv c) Always {} x) : Inv c x :=
  h.invariant (inv_start c) fun _ _ _ hx _ hs => hx.step hs

/-- What the sleeps of a run of `redial` are. -/
structure Paced (conv : Conversion) (c : ReconnectConfig) (x : Redial) : Prop where
  /-- The n-th sleep is within the n-th cap. -/
  sleeps_le : ∀ i d, x.sleeps[i]? = some d → d ≤ c.cap i
  /-- The cap is the documented one, up to 104 days. -/
  cap_eq : c.max.toInt.toNat < 2 ^ 53 →
    ∀ n, c.cap n = min (c.initial.toInt.toNat * 2 ^ n) c.max.toInt.toNat
  /-- A failed dial sleeps for any duration up to the cap, and for no other. -/
  sleeps_any : x.pc = .dialing → c.cap x.attempt < 2 ^ 63 → ∀ d,
    (∃ draw, Redial.step conv c x (.dialErr draw) =
      some { x with pc := .sleeping, sleeps := x.sleeps ++ [d] }) ↔ d ≤ c.cap x.attempt
  /-- It panics, whatever is drawn, when the cap is no `int64`. -/
  panics : x.pc = .dialing → 2 ^ 63 ≤ c.cap x.attempt → ∀ draw,
    Redial.step conv c x (.dialErr draw) = some { x with pc := .panicked }
  /-- Only a `max` within 512 ns of the largest duration gets there. -/
  panicked : x.pc = .panicked →
    2 ^ 63 - 512 ≤ c.max.toInt.toNat ∧ 2 ^ 63 ≤ float64 c.initial * 2 ^ x.attempt
  /-- Nothing is dialed after the attempt under way when the connection is closed. -/
  closed : ∀ k, x.last = some k → x.sleeps.length ≤ k + 1 ∧ (x.pc = .dialing → x.attempt = k)

/-- **The backoff of a whole run**, for any options. -/
theorem redial_paced (conv : Conversion) (opts : List (Int64 × Int64)) {x : Redial}
    (h : Reach (Redial.step conv (withReconnect opts)) Always {} x) :
    Paced conv (withReconnect opts) x := by
  have hinv := inv_of_reach h
  generalize withReconnect opts = c at h hinv ⊢
  refine ⟨hinv.sleeps_le, cap_of_lt, ?_, ?_, ?_, ?_⟩
  · intro hpc hcap d
    simp only [Redial.step, hpc, nextBackoff_eq, if_pos hcap, Option.elim_some]
    constructor
    · rintro ⟨draw, hd⟩
      have hd' : draw % (c.cap x.attempt + 1) = d := by
        simpa using hd
      exact hd' ▸ Nat.le_of_lt_succ (Nat.mod_lt _ (Nat.succ_pos _))
    · intro hd
      exact ⟨d, by rw [Nat.mod_eq_of_lt (Nat.lt_succ_of_le hd)]⟩
  · intro hpc hcap draw
    simp only [Redial.step, hpc, nextBackoff_eq, if_neg (not_lt.2 hcap), Option.elim_none]
  · intro hpc
    have hno := mt (cap_lt_iff c x.attempt).2 (not_lt.2 (hinv.panicked hpc))
    rw [not_or, not_lt, not_lt] at hno
    exact hno
  · intro k hk
    obtain ⟨hlen, heq | ⟨-, hother⟩⟩ := hinv.last_some k hk
    · exact ⟨hlen, fun _ => heq⟩
    · refine ⟨hlen, fun hpc => ?_⟩
      rw [hpc] at hother
      rcases hother with hother | hother <;> cases hother

/-- Three failed dials of a client with the largest `max` there is. -/
theorem redial_paced_largest :
    ∃ x, x.pc = .panicked ∧ x.sleeps = [5, 1] ∧
      Paced .saturating (withReconnect [(2 ^ 61, 0), (0, Int64.maxValue)]) x := by
  obtain ⟨x, hx, hp⟩ := exists_reach_of_exec
    (Redial.step .saturating (withReconnect [(2 ^ 61, 0), (0, Int64.maxValue)])) Always {}
    (fun x : Redial => decide (x.pc = .panicked ∧ x.sleeps = [5, 1]))
    [.dial, .dialErr 5, .timer, .dial, .dialErr 1, .timer, .dial, .dialErr 7]
    (by decide +kernel)
  simp only [decide_eq_true_eq] at hp
  exact ⟨x, hp.1, hp.2, redial_paced .saturating _ hx⟩

end WsProto.Go.Backoff
