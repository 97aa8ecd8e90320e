import WsProto.Lib.Meter
import WsProto.Agree.Flow

/-!
# The credit a Go receiver returns, in 64 bits

`returnCredit` holds consumed bytes back in an `int`, and returns them in a `uint32` once
they reach half the window, which may be any positive `int`.  Here its numbers are those of
the machine: the sum may overflow, and the conversion keeps the low 32 bits.

* `Account` — what `returnCredit` reads and writes of a stream; what it holds back is never
  due, as a field;
* `returnCredit_cases` — what one call does, in exact arithmetic; `lost` is what goes
  missing in it, and `ledger` the books of a run;
* `intact_iff` — the credit of every payload is returned or held back, exactly if no amount
  that falls due reaches `2 ^ 32`;
* `Shows.goCredits_eq_frames` — the unbounded integers of the stream model are right for
  every payload of less than `2 ^ 62` bytes.
-/

namespace WsProto.Go.Credit

open Agree.Flow (dues Fits goCredits)

/-! ## The window -/

/-- `defaultInitialWindow`, 256 KiB. -/
def defaultInitialWindow : Int64 := 256 * 1024

/-- `serverConfig`: the window. -/
structure ServerConfig where
  initialWindow : Int64

/-- `dialConfig`: the window. -/
structure DialConfig where
  initialWindow : Int64

def defaultServerConfig : ServerConfig := { initialWindow := defaultInitialWindow }

def defaultDialConfig : DialConfig := { initialWindow := defaultInitialWindow }

/-- What either option makes of the configured window: `n <= 0` keeps it. -/
def setWindow (n window : Int64) : Int64 := if 0 < n then n else window

/-- `WithInitialWindow`. -/
def withInitialWindow (n : Int64) (c : ServerConfig) : ServerConfig :=
  { c with initialWindow := setWindow n c.initialWindow }

/-- `WithDialInitialWindow`. -/
def withDialInitialWindow (n : Int64) (c : DialConfig) : DialConfig :=
  { c with initialWindow := setWindow n c.initialWindow }

/-- The check `newMuxConfig` and `newStream` make again. -/
def windowOr (n : Int64) : Int64 := if n ≤ 0 then defaultInitialWindow else n

/-- The amount of consumed bytes that triggers a WINDOW_UPDATE. -/
def creditThreshold (initialWindow : Int64) : Int64 :=
  if initialWindow / 2 < 1 then 1 else initialWindow / 2

/-- Go's division rounds to zero, which makes no difference here. -/
theorem toInt_creditThreshold (W : Int64) :
    (creditThreshold W).toInt = Agree.Flow.threshold W.toInt := by
  have hdiv : (W / 2).toInt = W.toInt.tdiv 2 := Int64.toInt_div_of_ne_right W 2 (by decide)
  have hhalf : max 1 (W.toInt.tdiv 2) = max 1 (W.toInt / 2) := by
    rcases le_total 0 W.toInt with h | h
    · rw [Int.tdiv_eq_ediv_of_nonneg h]
    · have hneg : 0 ≤ (-W.toInt).tdiv 2 := Int.tdiv_nonneg (by omega) (by decide)
      rw [Int.neg_tdiv] at hneg
      omega
  have hone : (1 : Int64).toInt = 1 := rfl
  rw [Agree.Flow.threshold, ← hhalf, ← hdiv, creditThreshold]
  split
  · rename_i h
    have h' := Int64.lt_iff_toInt_lt.1 h
    omega
  · rename_i h
    have h' := mt Int64.lt_iff_toInt_lt.2 h
    omega

/-- Half a window is far from the largest `int`. -/
theorem creditThreshold_bounds (W : Int64) :
    0 < (creditThreshold W).toInt ∧ (creditThreshold W).toInt ≤ 2 ^ 62 := by
  have hlt := W.toInt_lt
  rw [toInt_creditThreshold, Agree.Flow.threshold]
  omega

theorem creditThreshold_pos (W : Int64) : 0 < creditThreshold W :=
  Int64.lt_iff_toInt_lt.2 (creditThreshold_bounds W).1

/-! ## Returning credit -/

/-- The fields of `Stream` that `returnCredit` reads and writes. -/
structure Account where
  id : UInt32
  initialWindow : Int64
  pendingCredit : Int64
  /-- What is held back is not due. -/
  pending_lt : pendingCredit < creditThreshold initialWindow
  deriving DecidableEq

/-- `newStream`. -/
def newStream (id : UInt32) (initialWindow : Int64) : Account where
  id := id
  initialWindow := windowOr initialWindow
  pendingCredit := 0
  pending_lt := creditThreshold_pos _

/-- `newMuxConfig`: the window its streams are made with. -/
def newMuxConfig (initialWindow : Int64) : Int64 := windowOr initialWindow

/-- Who makes a stream. -/
inductive Role where
  | server
  | client
  deriving DecidableEq

/-- A stream of a server with `WithInitialWindow(n)`, or of a client dialed with
`WithDialInitialWindow(n)`. -/
def stream (n : Int64) (id : UInt32) : Role → Account
  | .server => newStream id (newMuxConfig (withInitialWindow n defaultServerConfig).initialWindow)
  | .client => newStream id (newMuxConfig (withDialInitialWindow n defaultDialConfig).initialWindow)

/-- The length of a payload: `len` is an `int`, and not negative. -/
abbrev Len := Fin (2 ^ 63)

/-- `len(f.Payload)`. -/
def Len.int (n : Len) : Int64 := Int64.ofNat n

namespace Account

/-- `returnCredit` under the mutex: the new state and `delta`. -/
def returnCredit (s : Account) (n : Int64) : Account × UInt32 :=
  if n ≤ 0 then (s, 0)
  else if h : creditThreshold s.initialWindow ≤ s.pendingCredit + n then
    ({ s with pendingCredit := 0, pending_lt := creditThreshold_pos _ },
      (s.pendingCredit + n).toUInt64.toUInt32)
  else ({ s with pendingCredit := s.pendingCredit + n, pending_lt := Int64.not_le.1 h }, 0)

/-- `returnCredit` outside of it: the WINDOW_UPDATE, if there is a `delta`. -/
def update (s : Account) (delta : UInt32) : List Frame :=
  if delta = 0 then []
  else [{ streamId := s.id, kind := .kindWindowUpdate, window := delta }]

/-- `deliverPayload`, for a payload of this length. -/
def deliverPayload (s : Account) (n : Len) : Account × List Frame :=
  ((s.returnCredit n.int).1, s.update (s.returnCredit n.int).2)

/-- The stream after payloads of these lengths have been consumed. -/
def after (s : Account) (lens : List Len) : Account :=
  lens.foldl (fun s n => (s.deliverPayload n).1) s

/-- The frames written for them. -/
def frames (s : Account) : List Len → List Frame
  | [] => []
  | n :: lens => (s.deliverPayload n).2 ++ frames (s.deliverPayload n).1 lens

/-! ## One call, in exact arithmetic -/

/-- What is held back, together with what is consumed now. -/
def accrued (s : Account) (n : Len) : ℤ := s.pendingCredit.toInt + n

/-- What is due at the least. -/
def limit (s : Account) : ℤ := (creditThreshold s.initialWindow).toInt

/-- A WINDOW_UPDATE is due. -/
def Due (s : Account) (n : Len) : Prop := s.limit ≤ s.accrued n

instance (s : Account) (n : Len) : Decidable (s.Due n) :=
  inferInstanceAs (Decidable (s.limit ≤ s.accrued n))

/-- What goes missing: the high bits of an amount that is due, or the amount by which the
sum overflows. -/
def lost (s : Account) (n : Len) : ℤ :=
  if s.accrued n < s.limit then 0
  else if s.accrued n < 2 ^ 63 then s.accrued n / 2 ^ 32 * 2 ^ 32
  else 2 ^ 64

end Account

theorem Len.toInt_int (n : Len) : n.int.toInt = n := Int64.toInt_ofNat_of_lt n.isLt

/-- The sum under the mutex overflows, or is exact. -/
theorem toInt_add_len (p : Int64) (n : Len) :
    (p + n.int).toInt = if p.toInt + n < 2 ^ 63 then p.toInt + n else p.toInt + n - 2 ^ 64 := by
  have hp := p.toInt_lt
  have hp' := p.le_toInt
  have hn : (n : ℤ) < 2 ^ 63 := by exact_mod_cast n.isLt
  rw [Int64.toInt_add, n.toInt_int]
  split
  · exact Int.bmod_eq_of_le (by omega) (by omega)
  · rw [← Int.sub_bmod_right]
    exact Int.bmod_eq_of_le (by omega) (by omega)

/-- The conversion keeps the low 32 bits. -/
theorem toNat_toUInt32 (p : Int64) : (p.toUInt64.toUInt32.toNat : ℤ) = p.toInt % 2 ^ 32 := by
  have hbits : p.toInt = (p.toUInt64.toNat : ℤ).bmod (2 ^ 64) :=
    BitVec.toInt_eq_toNat_bmod p.toBitVec
  rw [UInt64.toNat_toUInt32, hbits, Int.natCast_emod, Int.bmod_def]
  push_cast
  split <;> omega

namespace Account

variable {s : Account} {n : Len} {lens : List Len}

theorem limit_pos (s : Account) : 0 < s.limit := (creditThreshold_bounds s.initialWindow).1

theorem pending_lt_limit (s : Account) : s.pendingCredit.toInt < s.limit :=
  Int64.lt_iff_toInt_lt.1 s.pending_lt

/-- **One call.**  The amount is held back, or it is due and its low 32 bits are returned,
or the sum overflows. -/
theorem returnCredit_cases (s : Account) (n : Len) :
    (s.returnCredit n.int).1.id = s.id ∧
      (s.returnCredit n.int).1.initialWindow = s.initialWindow ∧
      ((s.accrued n < s.limit ∧ (s.returnCredit n.int).1.pendingCredit.toInt = s.accrued n ∧
          (s.returnCredit n.int).2 = 0) ∨
        (s.limit ≤ s.accrued n ∧ s.accrued n < 2 ^ 63 ∧
          (s.returnCredit n.int).1.pendingCredit.toInt = 0 ∧
          ((s.returnCredit n.int).2.toNat : ℤ) = s.accrued n % 2 ^ 32) ∨
        (2 ^ 63 ≤ s.accrued n ∧
          (s.returnCredit n.int).1.pendingCredit.toInt = s.accrued n - 2 ^ 64 ∧
          (s.returnCredit n.int).2 = 0)) := by
  have hn := n.toInt_int
  have hlen : (n : ℤ) < 2 ^ 63 := by exact_mod_cast n.isLt
  have hpend := s.pendingCredit.toInt_lt
  have hlim := creditThreshold_bounds s.initialWindow
  have hsum : (s.pendingCredit + n.int).toInt =
      if s.accrued n < 2 ^ 63 then s.accrued n else s.accrued n - 2 ^ 64 := toInt_add_len _ n
  have hacc : s.accrued n = s.pendingCredit.toInt + n := rfl
  unfold returnCredit
  split
  · -- nothing was consumed
    rename_i h
    have h0 : n.int.toInt ≤ 0 := Int64.le_iff_toInt_le.1 h
    have hlt := s.pending_lt_limit
    have hsame : s.pendingCredit.toInt = s.accrued n := by omega
    exact ⟨rfl, rfl, .inl ⟨hsame ▸ hlt, hsame, rfl⟩⟩
  · split
    · rename_i h
      have hdue : s.limit ≤ (s.pendingCredit + n.int).toInt := Int64.le_iff_toInt_le.1 h
      rw [hsum] at hdue
      unfold limit at *
      split at hdue
      · rename_i hfit
        refine ⟨rfl, rfl, .inr (.inl ⟨hdue, hfit, rfl, ?_⟩)⟩
        rw [toNat_toUInt32, hsum, if_pos hfit]
      · omega
    · rename_i h
      have hheld : ¬ s.limit ≤ (s.pendingCredit + n.int).toInt := mt Int64.le_iff_toInt_le.2 h
      rw [hsum] at hheld
      by_cases hfit : s.accrued n < 2 ^ 63
      · rw [if_pos hfit] at hheld hsum
        exact ⟨rfl, rfl, .inl ⟨not_le.1 hheld, hsum, rfl⟩⟩
      · rw [if_neg hfit] at hsum
        exact ⟨rfl, rfl, .inr (.inr ⟨not_lt.1 hfit, hsum, rfl⟩)⟩

/-! ## Whole runs -/

theorem limit_deliverPayload (s : Account) (n : Len) : (s.deliverPayload n).1.limit = s.limit := by
  have hwin : (s.deliverPayload n).1.initialWindow = s.initialWindow :=
    (s.returnCredit_cases n).2.1
  rw [limit, limit, hwin]

theorem lost_nonneg (s : Account) (n : Len) : 0 ≤ s.lost n := by
  have hpos := s.limit_pos
  unfold lost
  split
  · exact le_refl _
  · split
    · omega
    · decide

/-- Nothing goes missing exactly if what is due fits a `uint32`. -/
theorem lost_eq_zero_iff : s.lost n = 0 ↔ (s.Due n → s.accrued n < 2 ^ 32) := by
  have hpos := s.limit_pos
  unfold lost Due
  split
  · rename_i h
    exact iff_of_true rfl fun hdue => absurd hdue (not_le.2 h)
  · rename_i h
    split
    · constructor
      · intro hlost _
        omega
      · intro hfit
        have hsmall := hfit (not_lt.1 h)
        omega
    · constructor
      · intro hlost
        norm_num at hlost
      · intro hfit
        have hsmall := hfit (not_lt.1 h)
        omega

/-- A call that loses nothing returns what is due. -/
theorem delta_eq_of_lost (hlost : s.lost n = 0) (hdue : s.Due n) :
    ((s.returnCredit n.int).2.toNat : ℤ) = s.accrued n := by
  have hpos := s.limit_pos
  have hsmall := lost_eq_zero_iff.1 hlost hdue
  unfold Due at hdue
  obtain ⟨-, -, ⟨hlt, -⟩ | ⟨-, -, -, hdelta⟩ | ⟨hover, -⟩⟩ := s.returnCredit_cases n
  · omega
  · rw [hdelta]
    omega
  · omega

/-- One that writes no frame had nothing to return. -/
theorem not_due_of_delta (hlost : s.lost n = 0) (hdelta : (s.returnCredit n.int).2 = 0) :
    ¬ s.Due n := by
  intro hdue
  have heq := delta_eq_of_lost hlost hdue
  have hpos := s.limit_pos
  rw [hdelta, UInt32.toNat_zero, Nat.cast_zero] at heq
  unfold Due at hdue
  omega

/-- The books of `returnCredit`: what is not held back is returned, or lost. -/
theorem returnCredit_balance (s : Account) (n : Len) :
    (s.returnCredit n.int).2.toNat + (s.returnCredit n.int).1.pendingCredit.toInt + s.lost n =
      s.accrued n := by
  have hpos := s.limit_pos
  have hlim : s.limit ≤ 2 ^ 62 := (creditThreshold_bounds s.initialWindow).2
  unfold lost
  obtain ⟨-, -, ⟨hlt, hpend, hdelta⟩ | ⟨hle, hfit, hpend, hdelta⟩ | ⟨hover, hpend, hdelta⟩⟩ :=
    s.returnCredit_cases n
  · rw [if_pos hlt, hpend, hdelta]
    simp
  · rw [if_neg (not_lt.2 hle), if_pos hfit, hpend, hdelta]
    omega
  · rw [if_neg (by omega), if_neg (by omega), hpend, hdelta]
    simp

def ledger : Accumulator Account Len ℤ where
  step s n := (s.deliverPayload n).1
  taken n := n
  held s := s.pendingCredit.toInt
  passed s n := (s.returnCredit n.int).2.toNat
  lost := lost
  balance := returnCredit_balance

theorem sum_update (s : Account) (delta : UInt32) :
    ((s.update delta).map fun f => (f.window.toNat : ℤ)).sum = delta.toNat := by
  unfold update
  split
  · rename_i h
    rw [h]
    rfl
  · simp

theorem sum_frames (s : Account) (lens : List Len) :
    ((s.frames lens).map fun f => (f.window.toNat : ℤ)).sum =
      ledger.along ledger.passed s lens := by
  induction lens generalizing s with
  | nil => rfl
  | cons n lens ih =>
      rw [frames, List.map_append, List.sum_append, ih]
      exact congrArg (· + _) (s.sum_update _)

/-- Nothing goes missing exactly if every amount that falls due fits a `uint32`. -/
theorem tight_iff (s : Account) (lens : List Len) :
    ledger.Tight s lens ↔
      ∀ d ∈ (dues s.limit s.pendingCredit.toInt (lens.map Fin.val)).1, d < 2 ^ 32 := by
  induction lens generalizing s with
  | nil => exact iff_of_true trivial fun d hd => absurd hd List.not_mem_nil
  | cons n lens ih =>
      have hacc : s.pendingCredit.toInt + (n.val : ℤ) = s.accrued n := rfl
      have hlost : ledger.lost s n = s.lost n := rfl
      have hlim : (ledger.step s n).limit = s.limit := s.limit_deliverPayload n
      rw [Accumulator.Tight, ih, hlost, lost_eq_zero_iff, hlim, List.map_cons, dues, hacc]
      obtain ⟨-, -, ⟨hlt, hpend, -⟩ | ⟨hle, -, hpend, -⟩ | ⟨hover, -, -⟩⟩ :=
        s.returnCredit_cases n
      · -- held back: the next amount starts from here
        have hheld : (ledger.step s n).pendingCredit.toInt = s.accrued n := hpend
        rw [if_pos hlt, hheld]
        exact and_iff_right fun hdue => absurd hdue (not_le.2 hlt)
      · have hheld : (ledger.step s n).pendingCredit.toInt = 0 := hpend
        rw [if_neg (not_lt.2 hle), hheld, List.forall_mem_cons]
        exact and_congr_left' ⟨fun h => h hle, fun h _ => h⟩
      · -- an amount that overflows was due before
        have hbound : s.limit ≤ 2 ^ 62 := (creditThreshold_bounds s.initialWindow).2
        have hdue : s.Due n := by unfold Due; omega
        have hlarge : ¬ s.accrued n < 2 ^ 32 := by omega
        rw [if_neg (not_lt.2 hdue), List.forall_mem_cons]
        exact iff_of_false (fun h => hlarge (h.1 hdue)) (fun h => hlarge h.1)

end Account

/-! ## The options -/

theorem toInt_windowOr (n : Int64) : (windowOr n).toInt = Go.windowOr n.toInt := by
  have hzero : (0 : Int64).toInt = 0 := rfl
  unfold windowOr Go.windowOr
  by_cases h : n ≤ 0
  · have h' := Int64.le_iff_toInt_le.1 h
    rw [if_pos h, if_pos (by omega)]
    rfl
  · have h' := mt Int64.le_iff_toInt_le.2 h
    rw [if_neg h, if_neg (by omega)]

/-- An option that is not positive keeps the default, and the later checks change nothing. -/
theorem windowOr_setWindow (n : Int64) :
    windowOr (newMuxConfig (setWindow n defaultInitialWindow)) = windowOr n := by
  have hdefault : windowOr (windowOr defaultInitialWindow) = defaultInitialWindow := by decide
  unfold newMuxConfig setWindow
  by_cases h : 0 < n
  · have hn : windowOr n = n := if_neg (Int64.not_le.2 h)
    rw [if_pos h, hn, hn]
  · have hn : windowOr n = defaultInitialWindow := if_pos (Int64.not_lt.1 h)
    rw [if_neg h, hdefault, hn]

/-- Either option sets the window of the stream. -/
theorem stream_eq (n : Int64) (id : UInt32) (role : Role) : stream n id role = newStream id n := by
  have hwin := windowOr_setWindow n
  cases role with
  | server =>
      simp only [stream, withInitialWindow, defaultServerConfig, newStream, hwin]
  | client =>
      simp only [stream, withDialInitialWindow, defaultDialConfig, newStream, hwin]

theorem limit_newStream (n : Int64) (id : UInt32) :
    (newStream id n).limit = Agree.Flow.threshold (Go.windowOr n.toInt) := by
  rw [← toInt_windowOr]
  exact toInt_creditThreshold _

/-! ## Credit is never truncated -/

/-- The credit of the consumed payloads is neither lost nor truncated. -/
structure Intact (s : Account) (lens : List Len) : Prop where
  /-- What was returned and what is held back make up what was consumed. -/
  conserved : ((s.frames lens).map fun f => (f.window.toNat : ℤ)).sum +
    (s.after lens).pendingCredit.toInt = (lens.map fun n => (n.val : ℤ)).sum
  /-- What is due is returned in full. -/
  converted : ∀ l n, l ++ [n] <+: lens → (s.after l).Due n →
    (((s.after l).returnCredit n.int).2.toNat : ℤ) = (s.after l).accrued n
  /-- No frame is written only where nothing is due. -/
  silent : ∀ l n, l ++ [n] <+: lens → ((s.after l).returnCredit n.int).2 = 0 →
    ¬ (s.after l).Due n

/-- The first part says that no call loses anything, and the others follow from that. -/
theorem intact_iff_tight {s : Account} (hs : s.pendingCredit = 0) {lens : List Len} :
    Intact s lens ↔ Account.ledger.Tight s lens := by
  have hzero : Account.ledger.held s = 0 := congrArg Int64.toInt hs
  have hconserved := Account.ledger.conserves_iff Account.lost_nonneg (s := s) (l := lens)
  rw [← Account.sum_frames, hzero, zero_add] at hconserved
  constructor
  · intro h
    exact hconserved.1 h.conserved
  · intro h
    have hlost : ∀ l n, l ++ [n] <+: lens → (s.after l).lost n = 0 :=
      Account.ledger.tight_iff_forall.1 h
    exact {
      conserved := hconserved.2 h
      converted := fun l n hl => Account.delta_eq_of_lost (hlost l n hl)
      silent := fun l n hl => Account.not_due_of_delta (hlost l n hl) }

theorem tight_newStream (n : Int64) (id : UInt32) (lens : List Len) :
    Account.ledger.Tight (newStream id n) lens ↔
      Fits (Go.windowOr n.toInt) (lens.map Fin.val) := by
  rw [Account.tight_iff, limit_newStream]
  rfl

/-- **Credit is returned in full exactly as long as every amount that falls due fits a
`uint32`.**  For every window either option accepts, and every list of consumed lengths. -/
theorem intact_iff (n : Int64) (id : UInt32) (role : Role) (lens : List Len) :
    Intact (stream n id role) lens ↔ Fits (Go.windowOr n.toInt) (lens.map Fin.val) := by
  rw [stream_eq, intact_iff_tight rfl, tight_newStream]

/-- **Four gibibytes of credit vanish.**  With a window of 8 GiB the credit falls due after
four payloads of a GiB each; its low 32 bits are zero, so no frame is written, and nothing
is held back. -/
theorem credit_vanishes :
    (stream 8589934592 1 .server).frames (List.replicate 4 1073741824) = [] ∧
      ((stream 8589934592 1 .server).after (List.replicate 4 1073741824)).pendingCredit = 0 ∧
      ¬ Intact (stream 8589934592 1 .server) (List.replicate 4 1073741824) := by
  have hframes : (stream 8589934592 1 .server).frames (List.replicate 4 1073741824) = [] := by
    decide
  have hpending :
      ((stream 8589934592 1 .server).after (List.replicate 4 1073741824)).pendingCredit = 0 := by
    decide
  refine ⟨hframes, hpending, fun h => ?_⟩
  have hsum := h.conserved
  rw [hframes, hpending] at hsum
  exact absurd hsum (by decide)

/-! ## The unbounded model -/

/-- The account of a stream of the model, whose integers do not overflow. -/
structure Shows (s : Account) (x : Stream) : Prop where
  id : x.id = s.id
  window : x.initialWindow = s.initialWindow.toInt
  pending : x.pendingCredit = s.pendingCredit.toInt

namespace Shows

variable {s : Account} {x : Stream} {n : Len} {lens : List Len}

theorem newStream (ctxErr : Option CtxErr) (id : UInt32) (method : Text) (n : Int64) :
    Shows (Credit.newStream id n) (Go.newStream ctxErr id method n.toInt) where
  id := rfl
  window := (toInt_windowOr n).symm
  pending := rfl

theorem threshold (h : Shows s x) : x.creditThreshold = s.limit := by
  rw [Account.limit, toInt_creditThreshold, ← h.window, Stream.creditThreshold,
    Agree.Flow.threshold]
  split <;> omega

/-- **One call agrees** unless its sum overflows. -/
theorem returnCredit (h : Shows s x) (hfit : s.accrued n < 2 ^ 63) :
    Shows (s.returnCredit n.int).1 (x.returnCredit n.val).1 ∧
      (x.returnCredit n.val).2 = (s.returnCredit n.int).2 := by
  have hlt := s.pending_lt_limit
  have hacc : x.pendingCredit + (n.val : ℤ) = s.accrued n := by rw [h.pending]; rfl
  obtain ⟨hid, hwin, hcases⟩ := s.returnCredit_cases n
  have hshows : ∀ p, (s.returnCredit n.int).1.pendingCredit.toInt = p →
      Shows (s.returnCredit n.int).1 { x with pendingCredit := p } := by
    intro p hp
    exact ⟨h.id.trans hid.symm, h.window.trans (congrArg Int64.toInt hwin.symm), hp.symm⟩
  unfold Stream.returnCredit
  rw [h.threshold, hacc]
  rcases hcases with ⟨hheld, hpend, hdelta⟩ | ⟨hdue, -, hpend, hdelta⟩ | ⟨hover, -⟩
  · rw [hdelta]
    by_cases hn : (n.val : ℤ) ≤ 0
    · have hsame : x.pendingCredit = s.accrued n := by omega
      rw [if_pos hn]
      refine ⟨?_, rfl⟩
      have hx : { x with pendingCredit := s.accrued n } = x := by rw [← hsame]
      exact hx ▸ hshows _ hpend
    · rw [if_neg hn, if_pos hheld]
      exact ⟨hshows _ hpend, rfl⟩
  · have hn : ¬ (n.val : ℤ) ≤ 0 := by
      have := h.pending
      omega
    rw [if_neg hn, if_neg (not_lt.2 hdue)]
    refine ⟨hshows 0 hpend, UInt32.toNat_inj.1 ?_⟩
    have hconv := Stream.toNat_toUint32 (s.accrued n)
    dsimp only
    omega
  · omega

/-- **The integers of the stream model are right** for every list of payloads of less than
`2 ^ 62` bytes: the same deltas are written, and the same is held back. -/
theorem goCredits_eq_frames (h : Shows s x) (hlens : ∀ n ∈ lens, (n.val : ℤ) < 2 ^ 62) :
    goCredits x (lens.map Fin.val) =
      ((s.frames lens).map fun f => (f.window.toNat : ℤ),
        (s.after lens).pendingCredit.toInt) := by
  induction lens generalizing s x with
  | nil => exact Prod.ext rfl h.pending
  | cons n lens ih =>
      have hlim : s.limit ≤ 2 ^ 62 := (creditThreshold_bounds s.initialWindow).2
      have hlt := s.pending_lt_limit
      have hn := hlens n List.mem_cons_self
      have hfit : s.accrued n < 2 ^ 63 := by unfold Account.accrued; omega
      obtain ⟨hnext, hdelta⟩ := h.returnCredit hfit
      have hrest := ih hnext fun k hk => hlens k (List.mem_cons_of_mem n hk)
      rw [List.map_cons, goCredits, hrest, hdelta, Account.frames, List.map_append]
      refine Prod.ext (congrArg (· ++ _) ?_) rfl
      simp only [Account.deliverPayload, Account.update]
      split <;> rfl

end Shows

end WsProto.Go.Credit
