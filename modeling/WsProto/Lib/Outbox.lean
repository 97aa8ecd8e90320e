import Mathlib

/-!
# A bounded outbox

A producer that must never wait hands its items to a writer through a queue of bounded
capacity, and drops an item if the queue is full.  The writer takes the items one at a
time and writes them out.  The record keeps, next to the queue, what was offered and
what was written.

* `Settled` — every item offered has been written, is being written or is queued, in the
  order of the offers;
* `settled_offer_iff` — an offer keeps this exactly if the queue has room: a dropped item
  is never made up for;
* `Settled.written_eq` — at rest, what was written is what was offered.
-/

/-- A bounded queue between a producer and a writer, with the history of both. -/
structure Outbox (α : Type) where
  queue : List α := []
  /-- The item the writer is writing. -/
  holding : Option α := none
  written : List α := []
  offered : List α := []

namespace Outbox

variable {α : Type} {o o' : Outbox α} {a : α}

/-- The producer hands over an item; a full queue drops it. -/
def offer (capacity : ℕ) (o : Outbox α) (a : α) : Outbox α :=
  { o with
    queue := if o.queue.length < capacity then o.queue ++ [a] else o.queue
    offered := o.offered ++ [a] }

/-- The writer takes the next item. -/
def take (o : Outbox α) : Option (Outbox α) :=
  match o.holding, o.queue with
  | none, a :: q => some { o with queue := q, holding := some a }
  | _, _ => none

/-- The item has been written. -/
def finish (o : Outbox α) : Option (Outbox α) :=
  o.holding.map fun a => { o with holding := none, written := o.written ++ [a] }

/-- Nothing that was offered is missing. -/
def Settled (o : Outbox α) : Prop := o.offered = o.written ++ o.holding.toList ++ o.queue

theorem settled_empty : Settled ({} : Outbox α) := rfl

theorem Settled.take (h : Settled o) (ht : o.take = some o') : Settled o' := by
  rw [Outbox.take] at ht
  split at ht
  · rename_i a q hh hq
    cases ht
    simpa [Settled, hh, hq] using h
  · cases ht

theorem Settled.finish (h : Settled o) (hf : o.finish = some o') : Settled o' := by
  obtain ⟨a, ha, rfl⟩ := Option.map_eq_some_iff.1 hf
  simpa [Settled, ha] using h

/-- **An offer is answered exactly if there is room for it.** -/
theorem settled_offer_iff {capacity : ℕ} (h : Settled o) :
    Settled (o.offer capacity a) ↔ o.queue.length < capacity := by
  constructor
  · intro h'
    by_contra hfull
    rw [Settled] at h
    simp only [Settled, offer, if_neg hfull, ← h] at h'
    simp at h'
  · intro hroom
    rw [Settled] at h
    simp [Settled, offer, hroom, h]

/-- An outbox at rest has written everything. -/
theorem Settled.written_eq (h : Settled o) (hq : o.queue = []) (hh : o.holding = none) :
    o.written = o.offered := by
  rw [Settled] at h
  simp [h, hq, hh]

end Outbox
