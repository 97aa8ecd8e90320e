import WsProto.Ts.Transport.Model

/-!
# The timers of a transport

Each of the three timers belongs to a phase, and a field holds its id.  `Free` says that no
timer of a kind is armed, `Owned` that an armed one is known to its field; `clearTimer` makes
the first from the second.

A socket may fire `open` twice, and then the timer of the first `open` is lost.  This
concerns the stable timer only, so what is said of it is under a proposition `strict`,
which stands for "no socket does that".
-/

namespace WsProto.Ts

/-- The field that holds the id of a timer. -/
def Callback.field : Callback → Transport.TimerField
  | .retry => .retryTimer
  | .dial _ => .dialTimer
  | .stable => .stableTimer

namespace Transport

variable {strict : Prop} {x y : Transport} {k j : TimerField}

def timerOf (x : Transport) : TimerField → Option ℕ
  | .retryTimer => x.retryTimer
  | .dialTimer => x.dialTimer
  | .stableTimer => x.stableTimer

/-- The phase a timer belongs to. -/
def home : TimerField → Phase
  | .retryTimer => .waiting
  | .dialTimer => .connecting
  | .stableTimer => .connected

/-- No timer of the kind is armed. -/
def Free (x : Transport) (k : TimerField) : Prop := ∀ t ∈ x.timers, t.callback.field ≠ k

/-- An armed timer of the kind is the one in the field. -/
def Owned (x : Transport) (k : TimerField) : Prop :=
  ∀ t ∈ x.timers, t.callback.field = k → x.timerOf k = some t.id

/-- The kinds of timers of which something is said. -/
def Kept (strict : Prop) (k : TimerField) : Prop := k = .stableTimer → strict

theorem kept_retry : Kept strict .retryTimer := fun h => by cases h

theorem kept_dial : Kept strict .dialTimer := fun h => by cases h

theorem home_injective : Function.Injective home := by
  intro k j h
  cases k <;> cases j <;> first | rfl | cases h

/-- The timer a callback is looked up under. -/
theorem timer_of_find? {id : ℕ} {t : Timer} (h : (x.timers.find? fun t => t.id = id) = some t) :
    t ∈ x.timers ∧ t.id = id := by
  have hid := List.find?_some h
  exact ⟨List.mem_of_find?_eq_some h, of_decide_eq_true hid⟩

theorem Free.owned (h : Free x k) : Owned x k := fun t ht hk => absurd hk (h t ht)

theorem Free.mono (h : Free x k) (hsub : y.timers ⊆ x.timers) : Free y k :=
  fun t ht => h t (hsub ht)

theorem Owned.mono (h : Owned x k) (hsub : y.timers ⊆ x.timers) (hf : y.timerOf k = x.timerOf k) :
    Owned y k :=
  fun t ht hk => hf.trans (h t (hsub ht) hk)

theorem mem_clearTimeout {ts : List Timer} {timer : Option ℕ} {t : Timer} :
    t ∈ clearTimeout ts timer ↔ t ∈ ts ∧ timer ≠ some t.id := by
  simp [clearTimeout]

theorem clearTimer_timers (x : Transport) (k : TimerField) :
    (x.clearTimer k).timers = clearTimeout x.timers (x.timerOf k) := by
  cases k <;> rfl

theorem clearTimer_sublist (x : Transport) (k : TimerField) :
    (x.clearTimer k).timers.Sublist x.timers := by
  rw [clearTimer_timers]
  exact List.filter_sublist

theorem clearTimer_subset (x : Transport) (k : TimerField) :
    (x.clearTimer k).timers ⊆ x.timers := (clearTimer_sublist x k).subset

theorem timerOf_clearTimer (x : Transport) (hkj : k ≠ j) :
    (x.clearTimer k).timerOf j = x.timerOf j := by
  cases k <;> cases j <;> first | rfl | exact absurd rfl hkj

/-- `clearTimer` leaves no timer of its kind, if the field knew them all. -/
theorem Owned.free_clearTimer (h : Owned x k) : Free (x.clearTimer k) k := by
  intro t ht hk
  rw [clearTimer_timers] at ht
  obtain ⟨hmem, hne⟩ := mem_clearTimeout.1 ht
  exact hne (h t hmem hk)

theorem Free.clearTimer (h : Free x k) (j : TimerField) : Free (x.clearTimer j) k :=
  h.mono (clearTimer_subset x j)

theorem Owned.clearTimer (h : Owned x k) (j : TimerField) : Owned (x.clearTimer j) k := by
  by_cases hjk : j = k
  · subst hjk
    exact h.free_clearTimer.owned
  · exact h.mono (clearTimer_subset x j) (timerOf_clearTimer x hjk)

/-- Every timer is of some kind. -/
theorem timers_eq_nil (hs : strict) (hfree : ∀ k, Kept strict k → Free x k) : x.timers = [] :=
  List.eq_nil_iff_forall_not_mem.2 fun t ht => hfree t.callback.field (fun _ => hs) t ht rfl

/-- Timers with one id are one timer. -/
theorem length_timers_le (hn : (x.timers.map Timer.id).Nodup)
    (h : ∀ t ∈ x.timers, ∀ u ∈ x.timers, t.id = u.id) : x.timers.length ≤ 1 := by
  rcases hx : x.timers with _ | ⟨t, _ | ⟨u, rest⟩⟩
  · exact Nat.zero_le 1
  · exact Nat.le_refl 1
  · rw [hx] at hn h
    exact absurd (h t (by simp) u (by simp)) (List.rel_of_pairwise_cons hn (by simp))

/-- A dial timer is one of the kind. -/
theorem Free.not_dial (h : Free x .dialTimer) {t : Timer} (ht : t ∈ x.timers) {i : ℕ}
    (hi : t.callback = .dial i) : False := by
  apply h t ht
  rw [hi]
  rfl

/-- The timer of a kind has fired. -/
theorem Owned.free_fired {t : Timer} (h : Owned x k) (ht : t ∈ x.timers)
    (hk : t.callback.field = k) (hsub : y.timers ⊆ x.timers.filter fun u => u.id ≠ t.id) :
    Free y k := by
  intro u hu hfield
  obtain ⟨hmem, hne⟩ := List.mem_filter.1 (hsub hu)
  have hid := (h u hmem hfield).symm.trans (h t ht hk)
  exact of_decide_eq_true hne (Option.some.inj hid)

end Transport

end WsProto.Ts
