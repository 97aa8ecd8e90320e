import Mathlib

/-!
# Loops that modify what they visit

A loop over a list of keys that applies one function to the element of an array each key
names.  What is left of it, for each element, is how often the loop came by.

* `getElem?_foldl_modify` — an element after the loop is an iterate of what it was;
* `exists_foldl_modify` — so it has whatever the function keeps, and if it was visited,
  whatever the function brings about;
* `foldl_modify_of_fixed`, `foldl_modify_of_idem` — a loop that finds nothing to do, and one
  that has nothing to do a second time;
* `forall_mem_foldl_modify` — a property of all elements.
-/

namespace Visit

variable {α κ : Type*} (idx : κ → ℕ) (g : α → α) {r : ℕ} {a : α}

theorem length_foldl_modify (l : List κ) (o : List α) :
    (l.foldl (fun o e => o.modify (idx e) g) o).length = o.length := by
  induction l generalizing o with
  | nil => rfl
  | cons e l ih => rw [List.foldl_cons, ih, List.length_modify]

/-- **An element after the loop.** -/
theorem getElem?_foldl_modify (l : List κ) (o : List α) (r : ℕ) :
    (l.foldl (fun o e => o.modify (idx e) g) o)[r]? =
      o[r]?.map g^[(l.map idx).count r] := by
  induction l generalizing o with
  | nil => simp
  | cons e l ih =>
      rw [List.foldl_cons, ih, List.map_cons]
      by_cases he : idx e = r
      · rw [he, List.count_cons_self, List.getElem?_modify_eq, Option.map_eq_map, Option.map_map,
          Function.iterate_succ]
      · rw [List.count_cons_of_ne he, List.getElem?_modify_ne _ _ he]

variable {idx g}

/-- What the function keeps, an element keeps; what it brings about, one that was visited
has. -/
theorem exists_foldl_modify {P Q : α → Prop} (hP : ∀ b, P b → P (g b)) (hQ : ∀ b, Q (g b))
    (l : List κ) {o : List α} (hr : o[r]? = some a) (ha : P a) :
    ∃ b, (l.foldl (fun o e => o.modify (idx e) g) o)[r]? = some b ∧ P b ∧
      (r ∈ l.map idx → Q b) := by
  refine ⟨g^[(l.map idx).count r] a, ?_, Function.Iterate.rec P ha hP _, fun hmem => ?_⟩
  · rw [getElem?_foldl_modify, hr, Option.map_some]
  · obtain ⟨k, hk⟩ := Nat.exists_eq_succ_of_ne_zero (List.count_pos_iff.2 hmem).ne'
    rw [hk, Function.iterate_succ_apply']
    exact hQ _

/-- The loop passes over an element that the function does not change. -/
theorem foldl_modify_of_fixed (ha : g a = a) (l : List κ) {o : List α} (hr : o[r]? = some a) :
    (l.foldl (fun o e => o.modify (idx e) g) o)[r]? = some a := by
  rw [getElem?_foldl_modify, hr, Option.map_some, Function.iterate_fixed ha]

/-- Where a second visit changes nothing, an element is as after one, or as it was. -/
theorem foldl_modify_of_idem (ha : g (g a) = g a) (l : List κ) {o : List α}
    (hr : o[r]? = some a) :
    (l.foldl (fun o e => o.modify (idx e) g) o)[r]? =
      some (if r ∈ l.map idx then g a else a) := by
  rw [getElem?_foldl_modify, hr, Option.map_some]
  split_ifs with hmem
  · obtain ⟨k, hk⟩ := Nat.exists_eq_succ_of_ne_zero (List.count_pos_iff.2 hmem).ne'
    rw [hk, Function.iterate_succ_apply, Function.iterate_fixed ha]
  · rw [List.count_eq_zero.2 hmem, Function.iterate_zero_apply]

theorem forall_mem_foldl_modify {P : α → Prop} (hP : ∀ b, P b → P (g b)) (l : List κ)
    {o : List α} (ho : ∀ a ∈ o, P a) :
    ∀ b ∈ l.foldl (fun o e => o.modify (idx e) g) o, P b := by
  intro b hb
  obtain ⟨r, hr⟩ := List.mem_iff_getElem?.1 hb
  rw [getElem?_foldl_modify] at hr
  obtain ⟨a, ha, rfl⟩ := Option.map_eq_some_iff.1 hr
  exact Function.Iterate.rec P (ho a (List.mem_of_getElem? ha)) hP _

end Visit
