import Mathlib

/-!
# Programs that emit source text

A program that writes a file of some target language: it prints lines, and it asks for
names of other packages, which puts these packages into the imports of the file whether
or not the name is ever printed.  A target language that rejects unused imports makes
that a debt: a package a program has imported and not referred to in what it has
printed has to be referred to elsewhere in the file.

* `Owes refs e ps` — all that `e` imports without referring to it is in `ps`;
* `Owes.bind`, `Owes.each` — a sequence and a loop owe what their parts owe;
* `Owes.settle` — what is referred to anywhere in a program need not be owed by it.
-/

namespace Emitter

/-- A program that emits: its result, the packages it imports, the lines it prints. -/
structure Emit (Pkg Line α : Type) where
  val : α
  imports : List Pkg := []
  lines : List Line := []

variable {Pkg Line α β : Type}

namespace Emit

instance : Monad (Emit Pkg Line) where
  pure a := { val := a }
  bind x f :=
    { val := (f x.val).val
      imports := x.imports ++ (f x.val).imports
      lines := x.lines ++ (f x.val).lines }

/-- Print a line. -/
def print (l : Line) : Emit Pkg Line Unit := { val := (), lines := [l] }

@[simp] theorem val_bind (x : Emit Pkg Line α) (f : α → Emit Pkg Line β) :
    (x >>= f).val = (f x.val).val := rfl

@[simp] theorem imports_bind (x : Emit Pkg Line α) (f : α → Emit Pkg Line β) :
    (x >>= f).imports = x.imports ++ (f x.val).imports := rfl

@[simp] theorem lines_bind (x : Emit Pkg Line α) (f : α → Emit Pkg Line β) :
    (x >>= f).lines = x.lines ++ (f x.val).lines := rfl

@[simp] theorem imports_pure (a : α) : (pure a : Emit Pkg Line α).imports = [] := rfl

@[simp] theorem lines_pure (a : α) : (pure a : Emit Pkg Line α).lines = [] := rfl

@[simp] theorem imports_print (l : Line) : (print l : Emit Pkg Line Unit).imports = [] := rfl

@[simp] theorem lines_print (l : Line) : (print l : Emit Pkg Line Unit).lines = [l] := rfl

/-- Emit something for every element of a list. -/
def each (l : List α) (f : α → Emit Pkg Line Unit) : Emit Pkg Line Unit :=
  match l with
  | [] => pure ()
  | a :: l => do
      f a
      each l f

end Emit

open Emit

variable (refs : Line → List Pkg)

/-- The packages the lines of a program refer to. -/
def refers (e : Emit Pkg Line α) : List Pkg := e.lines.flatMap refs

/-- Whatever the program imports is referred to in its lines, or is in `ps`. -/
def Owes (e : Emit Pkg Line α) (ps : List Pkg) : Prop := e.imports ⊆ refers refs e ++ ps

variable {refs} {x : Emit Pkg Line α} {f : α → Emit Pkg Line β} {ps ps' : List Pkg}

theorem refers_bind : refers refs (x >>= f) = refers refs x ++ refers refs (f x.val) := by
  rw [refers, lines_bind, List.flatMap_append]
  rfl

theorem subset_refers_bind_left (h : ps ⊆ refers refs x) : ps ⊆ refers refs (x >>= f) := by
  rw [refers_bind]
  exact List.subset_append_of_subset_left _ h

theorem subset_refers_bind_right (h : ps ⊆ refers refs (f x.val)) :
    ps ⊆ refers refs (x >>= f) := by
  rw [refers_bind]
  exact List.subset_append_of_subset_right _ h

/-- At worst a program owes all it imports. -/
theorem Owes.of_imports (h : x.imports ⊆ ps) : Owes refs x ps :=
  List.subset_append_of_subset_right _ h

/-- A debt is settled by a line of the program itself. -/
theorem Owes.settle (hx : Owes refs x ps) (h : ps ⊆ refers refs x ++ ps') : Owes refs x ps' := by
  intro p hp
  rcases List.mem_append.1 (hx hp) with hp | hp
  · exact List.mem_append_left _ hp
  · exact h hp

/-- Debts of a sequence add up. -/
theorem Owes.bind (hx : Owes refs x ps) (hf : Owes refs (f x.val) ps) :
    Owes refs (x >>= f) ps := by
  rw [Owes, imports_bind, refers_bind, List.append_subset]
  constructor
  · intro p hp
    rcases List.mem_append.1 (hx hp) with hp | hp
    · exact List.mem_append_left _ (List.mem_append_left _ hp)
    · exact List.mem_append_right _ hp
  · intro p hp
    rcases List.mem_append.1 (hf hp) with hp | hp
    · exact List.mem_append_left _ (List.mem_append_right _ hp)
    · exact List.mem_append_right _ hp

/-- A line owes nothing. -/
theorem Owes.print (l : Line) : Owes refs (print l : Emit Pkg Line Unit) ps :=
  .of_imports (List.nil_subset _)

/-- What the program prints for one element is there in the whole. -/
theorem refers_subset_each {l : List α} {g : α → Emit Pkg Line Unit} {a : α} (ha : a ∈ l) :
    refers refs (g a) ⊆ refers refs (Emit.each l g) := by
  induction l with
  | nil => cases ha
  | cons b l ih =>
      rw [Emit.each, refers_bind]
      rcases List.mem_cons.1 ha with rfl | ha
      · exact List.subset_append_left _ _
      · exact List.subset_append_of_subset_right _ (ih ha)

/-- A loop owes what its turns owe. -/
theorem Owes.each {l : List α} {g : α → Emit Pkg Line Unit}
    (h : ∀ a ∈ l, Owes refs (g a) ps) : Owes refs (Emit.each l g) ps := by
  induction l with
  | nil => exact .of_imports (List.nil_subset _)
  | cons a l ih =>
      rw [Emit.each]
      exact (h a List.mem_cons_self).bind (ih fun b hb => h b (List.mem_cons_of_mem _ hb))

/-- A program that owes nothing refers to all it imports. -/
theorem Owes.covered (hx : Owes refs x []) : x.imports ⊆ refers refs x := by
  have h : x.imports ⊆ refers refs x ++ [] := hx
  rwa [List.append_nil] at h

end Emitter
