import Mathlib

/-!
# Mailboxes

A one-way channel as its receiving end should appear: items go in, one outcome ends
it, and pulls take out what went in.  Its state is its history — the items it has
accepted, the outcome if there is one, the number of pulls — and all that can be seen
of it is a function of the history:

* the `k`-th pull is for the `k`-th item, and a pull beyond the last item is for the
  outcome (`results`);
* items without a pull are `buffered`, pulls without an item wait (`parked`) until the
  outcome comes.

An implementation keeps a queue of items or a queue of waiting pulls.  What an
operation does to those, and which results it adds, is said once here, case by case
(`push_unparked`, `push_parked`, `finish_of_none`, `pull_buffered`, `pull_finished`,
`pull_parked`).
-/

/-- The history of a mailbox. -/
structure Mailbox (α β : Type) where
  accepted : List α := []
  outcome : Option β := none
  pulls : ℕ := 0

namespace Mailbox

variable {α β : Type} (h : Mailbox α β)

/-- Items that no pull has taken. -/
def buffered : List α := h.accepted.drop h.pulls

/-- Pulls that have neither an item nor the outcome. -/
def parked : ℕ := if h.outcome.isSome then 0 else h.pulls - h.accepted.length

/-- Pulls beyond the last item. -/
def beyond : ℕ := h.pulls - h.accepted.length

/-- What the pulls get, in their order. -/
def results : List (Except β α) :=
  (h.accepted.take h.pulls).map .ok ++
    (h.outcome.map fun b => List.replicate h.beyond (.error b)).getD []

/-- An item arrives.  After the outcome it is ignored. -/
def push (a : α) : Mailbox α β :=
  if h.outcome.isSome then h else { h with accepted := h.accepted ++ [a] }

/-- The outcome arrives; the first one counts. -/
def finish (b : β) : Mailbox α β := { h with outcome := h.outcome.or (some b) }

def pull : Mailbox α β := { h with pulls := h.pulls + 1 }

variable {h}

/-! ## Buffered items and parked pulls -/

theorem parked_of_none (ho : h.outcome = none) : h.parked = h.pulls - h.accepted.length := by
  rw [parked, ho]
  rfl

theorem parked_of_some {b : β} (ho : h.outcome = some b) : h.parked = 0 := by
  rw [parked, ho]
  rfl

theorem buffered_eq_nil_iff : h.buffered = [] ↔ h.accepted.length ≤ h.pulls :=
  List.drop_eq_nil_iff

/-- A pull only waits where nothing is buffered. -/
theorem parked_eq_zero (hb : h.buffered ≠ []) : h.parked = 0 := by
  rw [ne_eq, buffered_eq_nil_iff, not_le] at hb
  rw [parked]
  split
  · rfl
  · omega

/-! ## An item arrives -/

section Push

variable (a : α)

theorem push_of_some (ho : h.outcome.isSome) : h.push a = h := if_pos ho

theorem push_of_none (ho : h.outcome = none) :
    h.push a = { h with accepted := h.accepted ++ [a] } := by
  rw [push, ho]
  rfl

/-- It is buffered if no pull waits. -/
theorem push_unparked (ho : h.outcome = none) (hp : h.parked = 0) :
    (h.push a).buffered = h.buffered ++ [a] ∧ (h.push a).results = h.results ∧
      (h.push a).parked = 0 := by
  rw [parked_of_none ho] at hp
  have hle : h.pulls ≤ h.accepted.length := by omega
  rw [push_of_none a ho]
  refine ⟨?_, ?_, ?_⟩
  · exact List.drop_append_of_le_length hle
  · simp only [results, ho, List.take_append_of_le_length hle, Option.map_none]
  · rw [parked_of_none (by exact ho)]
    show h.pulls - (h.accepted ++ [a]).length = 0
    rw [List.length_append]
    omega

/-- It goes to the oldest waiting pull otherwise. -/
theorem push_parked (ho : h.outcome = none) (hp : 0 < h.parked) :
    (h.push a).buffered = [] ∧ (h.push a).results = h.results ++ [.ok a] ∧
      (h.push a).parked = h.parked - 1 := by
  rw [parked_of_none ho] at hp ⊢
  rw [push_of_none a ho]
  have hlen : (h.accepted ++ [a]).length ≤ h.pulls := by
    rw [List.length_append, List.length_singleton]
    omega
  refine ⟨?_, ?_, ?_⟩
  · exact List.drop_eq_nil_iff.2 hlen
  · have hle : h.accepted.length ≤ h.pulls := by omega
    simp only [results, ho, List.take_of_length_le hlen, List.take_of_length_le hle,
      Option.map_none, Option.getD_none, List.append_nil, List.map_append, List.map_cons,
      List.map_nil]
  · rw [parked_of_none (by exact ho)]
    show h.pulls - (h.accepted ++ [a]).length = _
    rw [List.length_append, List.length_singleton]
    omega

@[simp] theorem push_outcome : (h.push a).outcome = h.outcome := by
  rw [push]
  split <;> rfl

end Push

/-! ## The outcome arrives -/

section Finish

variable (b : β)

theorem finish_of_some (ho : h.outcome.isSome) : h.finish b = h := by
  obtain ⟨b', hb'⟩ := Option.isSome_iff_exists.1 ho
  cases h
  simp_all [finish]

@[simp] theorem finish_buffered : (h.finish b).buffered = h.buffered := rfl

/-- Every waiting pull gets the outcome. -/
theorem finish_of_none (ho : h.outcome = none) :
    (h.finish b).outcome = some b ∧
      (h.finish b).results = h.results ++ List.replicate h.parked (.error b) ∧
      (h.finish b).parked = 0 := by
  have hout : (h.finish b).outcome = some b := by rw [finish, ho]; rfl
  refine ⟨hout, ?_, parked_of_some hout⟩
  rw [results, hout, results, ho, parked_of_none ho]
  simp only [Option.map_none, Option.getD_none, List.append_nil]
  rfl

end Finish

/-! ## A pull -/

/-- As long as there is an item for every pull, the outcome is not seen. -/
theorem results_of_beyond (hz : h.beyond = 0) :
    h.results = (h.accepted.take h.pulls).map .ok := by
  rw [results, hz]
  cases h.outcome <;> simp

@[simp] theorem pull_outcome : h.pull.outcome = h.outcome := rfl

/-- A pull takes the oldest buffered item. -/
theorem pull_buffered {a : α} {rest : List α} (hb : h.buffered = a :: rest) :
    h.pull.buffered = rest ∧ h.pull.results = h.results ++ [.ok a] ∧ h.pull.parked = 0 := by
  have hlt : h.pulls < h.accepted.length := by
    by_contra hge
    rw [buffered_eq_nil_iff.2 (not_lt.1 hge)] at hb
    cases hb
  have hdrop : h.accepted.drop (h.pulls + 1) = rest := by
    rw [← List.drop_drop, show h.accepted.drop h.pulls = a :: rest from hb]
    rfl
  have hget : h.accepted[h.pulls]? = some a := by
    rw [← List.head?_drop, show h.accepted.drop h.pulls = a :: rest from hb]
    rfl
  have hbeyond : h.beyond = 0 := by rw [beyond]; omega
  have hbeyond' : h.pull.beyond = 0 := by
    show h.pulls + 1 - h.accepted.length = 0
    omega
  refine ⟨hdrop, ?_, ?_⟩
  · rw [results_of_beyond hbeyond', results_of_beyond hbeyond]
    show (h.accepted.take (h.pulls + 1)).map _ = _
    rw [List.take_add_one, hget, List.map_append]
    rfl
  · rw [parked]
    show (if h.outcome.isSome then 0 else h.pulls + 1 - h.accepted.length) = 0
    split
    · rfl
    · omega

/-- Such a pull does not see the outcome. -/
theorem pull_beyond (hb : h.buffered ≠ []) : h.pull.beyond = 0 := by
  rw [ne_eq, buffered_eq_nil_iff] at hb
  show h.pulls + 1 - h.accepted.length = 0
  omega

/-- A pull that finds nothing gets the outcome, if it is there. -/
theorem pull_finished {b : β} (hb : h.buffered = []) (ho : h.outcome = some b) :
    h.pull.buffered = [] ∧ h.pull.results = h.results ++ [.error b] ∧ h.pull.parked = 0 := by
  rw [buffered_eq_nil_iff] at hb
  have hle : h.accepted.length ≤ h.pulls + 1 := by omega
  refine ⟨List.drop_eq_nil_iff.2 hle, ?_, parked_of_some ho⟩
  have hbeyond : h.pull.beyond = h.beyond + 1 := by
    show h.pulls + 1 - h.accepted.length = h.pulls - h.accepted.length + 1
    omega
  rw [results, hbeyond]
  show (h.accepted.take (h.pulls + 1)).map _ ++ _ = _
  rw [results, pull_outcome, ho, List.take_of_length_le hb, List.take_of_length_le hle,
    Option.map_some, Option.map_some, Option.getD_some, Option.getD_some, List.replicate_succ',
    List.append_assoc]

/-- It waits if there is neither. -/
theorem pull_parked (hb : h.buffered = []) (ho : h.outcome = none) :
    h.pull.buffered = [] ∧ h.pull.results = h.results ∧ h.pull.parked = h.parked + 1 := by
  rw [buffered_eq_nil_iff] at hb
  have hle : h.accepted.length ≤ h.pulls + 1 := by omega
  refine ⟨List.drop_eq_nil_iff.2 hle, ?_, ?_⟩
  · rw [results, results, pull_outcome, ho]
    show (h.accepted.take (h.pulls + 1)).map _ ++ _ = _
    rw [List.take_of_length_le hb, List.take_of_length_le hle]
    rfl
  · rw [parked_of_none ho, parked_of_none (by exact ho)]
    show h.pulls + 1 - h.accepted.length = _
    omega

/-- A pull that does not get an item gets the outcome. -/
theorem outcome_of_mem_results {b : β} (hr : .error b ∈ h.results) : h.outcome = some b := by
  rw [results, List.mem_append] at hr
  rcases hr with hr | hr
  · obtain ⟨a, -, ha⟩ := List.mem_map.1 hr
    cases ha
  · cases ho : h.outcome with
    | none => simp [ho] at hr
    | some b' =>
        rw [ho, Option.map_some, Option.getD_some] at hr
        cases List.eq_of_mem_replicate hr
        rfl

/-- Then it is beyond the last item. -/
theorem beyond_of_mem_results {b : β} (hr : .error b ∈ h.results) : 0 < h.beyond := by
  rw [Nat.pos_iff_ne_zero]
  intro hz
  rw [results_of_beyond hz] at hr
  obtain ⟨a, -, ha⟩ := List.mem_map.1 hr
  cases ha

/-- **The pull number `n`** gets the item number `n`, or the outcome if there is no such
item. -/
theorem getElem?_results {n : ℕ} (hn : n < h.pulls) :
    h.results[n]? = ((h.accepted[n]?).map .ok).or (h.outcome.map .error) := by
  rw [results]
  by_cases hlt : n < h.accepted.length
  · rw [List.getElem?_append_left (by simp [hn, hlt]), List.getElem?_map, List.getElem?_take,
      if_pos hn, List.getElem?_eq_getElem hlt]
    rfl
  · have hle : h.accepted.length ≤ n := not_lt.1 hlt
    rw [List.take_of_length_le (by omega), List.getElem?_append_right (by simpa using hle),
      List.getElem?_eq_none hle, List.length_map]
    cases h.outcome with
    | none => rfl
    | some b =>
        rw [Option.map_some, Option.getD_some, List.getElem?_replicate, beyond,
          if_pos (by omega)]
        rfl

/-! ## Results stay -/

/-- No operation takes a result back. -/
theorem results_prefix_push (a : α) : h.results <+: (h.push a).results := by
  cases ho : h.outcome with
  | some b => rw [h.push_of_some a (by rw [ho]; rfl)]
  | none =>
      by_cases hp : 0 < h.parked
      · rw [(h.push_parked a ho hp).2.1]
        exact List.prefix_append _ _
      · rw [(h.push_unparked a ho (Nat.eq_zero_of_not_pos hp)).2.1]

theorem results_prefix_finish (b : β) : h.results <+: (h.finish b).results := by
  cases ho : h.outcome with
  | some b' => rw [h.finish_of_some b (by rw [ho]; rfl)]
  | none =>
      rw [(h.finish_of_none b ho).2.1]
      exact List.prefix_append _ _

theorem results_prefix_pull : h.results <+: h.pull.results := by
  cases hb : h.buffered with
  | cons a rest =>
      rw [(pull_buffered hb).2.1]
      exact List.prefix_append _ _
  | nil =>
      cases ho : h.outcome with
      | some b =>
          rw [(pull_finished hb ho).2.1]
          exact List.prefix_append _ _
      | none => rw [(pull_parked hb ho).2.1]

end Mailbox
