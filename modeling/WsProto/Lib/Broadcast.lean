import Mathlib

/-!
# Telling listeners, who may answer back

A hub holds a state and a set of listeners.  Setting the state walks a snapshot of the
listeners and calls each with it; a listener may set the state again from inside its
callback, subscribe and unsubscribe.

The hub is a stack machine: a frame is a walk with the listeners it has still to call, the
callback of a listener, or what the setter does afterwards.  States are known by the order
in which they were set, and `told` records who was called with which.

* `Quiet` — every walk has called its last listener;
* `Current` — every listener has been called with the latest state, or a walk is going to;
* `Current.set` — setting a state keeps that if the hub is quiet; the other operations keep
  it always;
* `Current.getLast?_heardBy`, `Current.heardBy_pairwise` — what the listeners then know at rest,
  and in which order they have learnt it.
-/

namespace Broadcast

/-- Where the hub stands; `κ` is what setters have left to do. -/
inductive Frame (κ : Type) where
  /-- A walk that calls the `rest` with state number `k`. -/
  | loop (k : ℕ) (rest : List ℕ)
  /-- In the callback of a listener. -/
  | inside (listener : ℕ)
  | after (c : κ)
  deriving DecidableEq

/-- The listeners a frame has still to call. -/
def Frame.left {κ : Type} : Frame κ → List ℕ
  | .loop _ rest => rest
  | _ => []

structure Hub (σ κ : Type) where
  /-- The states that were set, oldest first. -/
  history : List σ
  /-- The listeners, in the order of their subscription. -/
  listeners : List ℕ := []
  stack : List (Frame κ) := []
  /-- Who was called with which state. -/
  told : List (ℕ × ℕ) := []
  deriving DecidableEq

namespace Hub

variable {σ κ : Type} {h : Hub σ κ}

/-! ## Operations -/

/-- The number of the latest state. -/
def latest (h : Hub σ κ) : ℕ := h.history.length - 1

/-- Set the state, and start to walk the listeners of now. -/
def set (h : Hub σ κ) (s : σ) : Hub σ κ :=
  { h with
    history := h.history ++ [s]
    stack := .loop h.history.length h.listeners :: h.stack }

/-- Call a listener. -/
def call (h : Hub σ κ) (listener k : ℕ) (stack : List (Frame κ)) : Hub σ κ :=
  { h with stack := .inside listener :: stack, told := h.told ++ [(listener, k)] }

/-- Subscribe, and be called with the current state. -/
def subscribe (h : Hub σ κ) (listener : ℕ) : Hub σ κ :=
  { h with
    listeners := if listener ∈ h.listeners then h.listeners else h.listeners ++ [listener]
  }.call listener h.latest h.stack

def unsubscribe (h : Hub σ κ) (listener : ℕ) : Hub σ κ :=
  { h with listeners := h.listeners.filter (· ≠ listener) }

/-- Leave something to do until the walk that comes next is over. -/
def push (h : Hub σ κ) (c : κ) : Hub σ κ := { h with stack := .after c :: h.stack }

/-- The next step of the walk `k rest`, on top of `stack`. -/
def walk (h : Hub σ κ) (k : ℕ) (rest : List ℕ) (stack : List (Frame κ)) : Hub σ κ :=
  match rest with
  | [] => { h with stack }
  | listener :: rest => h.call listener k (.loop k rest :: stack)

/-! ## What the listeners know -/

/-- The states a listener was called with, by number. -/
def heardBy (h : Hub σ κ) (listener : ℕ) : List ℕ :=
  (h.told.filter fun e => e.1 = listener).map Prod.snd

/-- The state a listener was last called with. -/
def lastHeard (h : Hub σ κ) (listener : ℕ) : Option σ :=
  (h.heardBy listener).getLast?.bind (h.history[·]?)

/-- No walk has a listener left to call. -/
def Quiet (h : Hub σ κ) : Prop := ∀ fr ∈ h.stack, fr.left = []

instance (h : Hub σ κ) : Decidable h.Quiet := inferInstanceAs (Decidable (∀ _ ∈ _, _))

/-- The listener will be called by a walk. -/
def Awaits (h : Hub σ κ) (listener : ℕ) : Prop :=
  ∃ k rest, Frame.loop k rest ∈ h.stack ∧ listener ∈ rest

structure Current (h : Hub σ κ) : Prop where
  set : h.history ≠ []
  /-- A walk that goes on is one with the latest state. -/
  walks : ∀ k rest, Frame.loop k rest ∈ h.stack → rest ≠ [] → k = h.latest
  heard : ∀ n ∈ h.listeners, (h.heardBy n).getLast? = some h.latest ∨ h.Awaits n
  bound : ∀ e ∈ h.told, e.2 ≤ h.latest
  /-- Nobody is told an earlier state after a later one. -/
  ordered : (h.told.map Prod.snd).Pairwise (· ≤ ·)

theorem current_start (s : σ) : Current ({ history := [s] } : Hub σ κ) := by
  constructor <;> simp

/-! ## The operations keep it -/

theorem heardBy_call (h : Hub σ κ) (n m k : ℕ) (stack : List (Frame κ)) :
    (h.call n k stack).heardBy m = h.heardBy m ++ if n = m then [k] else [] := by
  unfold heardBy call
  by_cases hnm : n = m <;> simp [hnm]

/-- A call with the latest state, with walks that may have one listener less. -/
theorem Current.call (hc : Current h) {n : ℕ} {stack : List (Frame κ)}
    (hwalks : ∀ k rest, Frame.loop k rest ∈ stack → rest ≠ [] → k = h.latest)
    (hheard : ∀ m ∈ h.listeners, m ≠ n → (h.heardBy m).getLast? = some h.latest ∨
      ∃ k rest, Frame.loop k rest ∈ stack ∧ m ∈ rest) :
    Current (h.call n h.latest stack) where
  set := hc.set
  walks k rest hmem hne := by
    rcases List.mem_cons.1 hmem with heq | hold
    · cases heq
    · exact hwalks k rest hold hne
  heard m hm := by
    rw [heardBy_call]
    by_cases hnm : n = m
    · left
      rw [if_pos hnm, List.getLast?_concat]
      rfl
    · rw [if_neg hnm, List.append_nil]
      rcases hheard m hm (Ne.symm hnm) with hlast | ⟨k, rest, hmem, hin⟩
      · exact .inl hlast
      · exact .inr ⟨k, rest, List.mem_cons_of_mem _ hmem, hin⟩
  bound e he := by
    rcases List.mem_append.1 he with hold | hnew
    · exact hc.bound e hold
    · rw [List.mem_singleton.1 hnew]
      exact Nat.le_refl _
  ordered := by
    have hmap : (h.call n h.latest stack).told.map Prod.snd =
        h.told.map Prod.snd ++ [h.latest] := by
      simp [Hub.call]
    rw [hmap, List.pairwise_append]
    refine ⟨hc.ordered, List.pairwise_singleton _ _, fun k hk m hm => ?_⟩
    obtain ⟨e, he, rfl⟩ := List.mem_map.1 hk
    rw [List.mem_singleton.1 hm]
    exact hc.bound e he

theorem Current.subscribe (hc : Current h) (n : ℕ) : Current (h.subscribe n) := by
  unfold Hub.subscribe
  split_ifs with hmem
  · exact hc.call hc.walks fun m hm _ => hc.heard m hm
  · -- the new listener is told at once
    have hother : ∀ m ∈ h.listeners ++ [n], m ≠ n → m ∈ h.listeners := by
      intro m hm hne
      rcases List.mem_append.1 hm with hold | hnew
      · exact hold
      · exact absurd (List.mem_singleton.1 hnew) hne
    have hcall := hc.call (n := n) hc.walks fun m hm _ => hc.heard m hm
    refine ⟨hc.set, hcall.walks, fun m hm => ?_, hcall.bound, hcall.ordered⟩
    by_cases hne : m = n
    · left
      subst hne
      rw [heardBy_call, if_pos rfl, List.getLast?_concat]
      rfl
    · exact hcall.heard m (hother m hm hne)

theorem Current.unsubscribe (hc : Current h) (n : ℕ) : Current (h.unsubscribe n) where
  set := hc.set
  walks := hc.walks
  heard m hm := hc.heard m (List.mem_filter.1 hm).1
  bound := hc.bound
  ordered := hc.ordered

/-- **Setting a state** while no walk has a listener left to call. -/
theorem Current.set_of_quiet (hc : Current h) (hq : h.Quiet) (s : σ) : Current (h.set s) := by
  have hlatest : (h.set s).latest = h.history.length := by simp [latest, Hub.set]
  have hle : h.latest ≤ h.history.length := Nat.sub_le _ _
  refine ⟨by simp [Hub.set], fun k rest hmem hne => ?_, fun n hn => ?_, fun e he => ?_, hc.ordered⟩
  · rcases List.mem_cons.1 hmem with heq | hold
    · cases heq
      exact hlatest.symm
    · exact absurd (hq _ hold) hne
  · exact .inr ⟨h.history.length, h.listeners, List.mem_cons_self, hn⟩
  · rw [hlatest]
    exact Nat.le_trans (hc.bound e he) hle

/-- A frame that is no walk comes on top or goes. -/
theorem Current.of_stack (hc : Current h) {stack : List (Frame κ)}
    (hs : ∀ k rest, rest ≠ [] → (Frame.loop k rest ∈ stack ↔ Frame.loop k rest ∈ h.stack)) :
    Current { h with stack } where
  set := hc.set
  walks k rest hmem hne := hc.walks k rest ((hs k rest hne).1 hmem) hne
  heard n hn := by
    rcases hc.heard n hn with hlast | ⟨k, rest, hmem, hin⟩
    · exact .inl hlast
    · exact .inr ⟨k, rest, (hs k rest (List.ne_nil_of_mem hin)).2 hmem, hin⟩
  bound := hc.bound
  ordered := hc.ordered

theorem Current.push (hc : Current h) (c : κ) : Current (h.push c) :=
  hc.of_stack fun k rest _ => by simp

theorem Quiet.push (hq : h.Quiet) (c : κ) : (h.push c).Quiet := by
  intro fr hmem
  rcases List.mem_cons.1 hmem with rfl | hold
  · rfl
  · exact hq fr hold

/-- A callback returns, or what was left to do is done. -/
theorem Current.pop (hc : Current h) {fr : Frame κ} {stack : List (Frame κ)}
    (hs : h.stack = fr :: stack) (hfr : ∀ k rest, fr = .loop k rest → rest = []) :
    Current { h with stack } := by
  refine hc.of_stack fun k rest hne => ?_
  rw [hs, List.mem_cons]
  refine ⟨.inr, fun hmem => hmem.resolve_left fun heq => hne (hfr k rest heq.symm)⟩

theorem Current.walk (hc : Current h) {k : ℕ} {rest : List ℕ} {stack : List (Frame κ)}
    (hs : h.stack = .loop k rest :: stack) : Current (h.walk k rest stack) := by
  cases rest with
  | nil =>
      refine hc.pop hs fun k' rest' heq => ?_
      cases heq
      rfl
  | cons n rest =>
      have hmem : Frame.loop k (n :: rest) ∈ h.stack := by rw [hs]; exact List.mem_cons_self
      obtain rfl := hc.walks k (n :: rest) hmem (List.cons_ne_nil _ _)
      refine hc.call (fun k' rest' hmem' hne => ?_) fun m hm hne => ?_
      · rcases List.mem_cons.1 hmem' with heq | hold
        · cases heq
          rfl
        · exact hc.walks k' rest' (by rw [hs]; exact List.mem_cons_of_mem _ hold) hne
      · rcases hc.heard m hm with hlast | ⟨k', rest', hmem', hin⟩
        · exact .inl hlast
        · rw [hs] at hmem'
          rcases List.mem_cons.1 hmem' with heq | hold
          · cases heq
            exact .inr ⟨_, rest, List.mem_cons_self, (List.mem_cons.1 hin).resolve_left hne⟩
          · exact .inr ⟨k', rest', List.mem_cons_of_mem _ hold, hin⟩

/-! ## At rest -/

/-- **At rest every listener has last been called with the latest state.** -/
theorem Current.getLast?_heardBy (hc : Current h) (hrest : h.stack = []) {n : ℕ}
    (hn : n ∈ h.listeners) : (h.heardBy n).getLast? = some h.latest := by
  refine (hc.heard n hn).resolve_right ?_
  rintro ⟨k, rest, hmem, -⟩
  rw [hrest] at hmem
  cases hmem

theorem lastHeard_of_latest {n : ℕ} (hlast : (h.heardBy n).getLast? = some h.latest) :
    h.lastHeard n = h.history.getLast? := by
  rw [Hub.lastHeard, hlast, Option.bind_some, List.getLast?_eq_getElem?]
  rfl

/-- **Nobody learns of the states in another order than they were set in.** -/
theorem Current.heardBy_pairwise (hc : Current h) (n : ℕ) :
    (h.heardBy n).Pairwise (· ≤ ·) :=
  hc.ordered.sublist (List.filter_sublist.map Prod.snd)

end Hub

end Broadcast
