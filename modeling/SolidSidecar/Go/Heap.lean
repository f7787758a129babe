import Mathlib

/-!
# Structs behind pointers

The structs of one type that a program has made, by the pointers to them. Making one extends the
heap; writing through a pointer changes what every holder of that pointer reads.
-/

namespace Go

abbrev Ref := Nat

structure Heap (α : Type) where
  cells : List α := []

namespace Heap

variable {α : Type} {h h' h'' : Heap α} {r r' : Ref} {v : α}

def read (h : Heap α) (r : Ref) : Option α := h.cells[r]?

def alloc (h : Heap α) (v : α) : Heap α × Ref := (⟨h.cells ++ [v]⟩, h.cells.length)

def write (h : Heap α) (r : Ref) (v : α) : Heap α := ⟨h.cells.set r v⟩

/-- What can be read before can be read after, with the same result. -/
def Extends (h h' : Heap α) : Prop := ∀ r v, h.read r = some v → h'.read r = some v

theorem Extends.refl (h : Heap α) : Extends h h := fun _ _ found => found

theorem Extends.trans (first : Extends h h') (second : Extends h' h'') : Extends h h'' :=
  fun r v found => second r v (first r v found)

theorem extends_alloc (h : Heap α) (v : α) : Extends h (h.alloc v).1 := by
  intro r w found
  have inside : r < h.cells.length := (getElem?_eq_some_iff.mp found).1
  simpa [read, alloc, List.getElem?_append_left inside] using found

@[simp] theorem read_alloc (h : Heap α) (v : α) : (h.alloc v).1.read (h.alloc v).2 = some v := by
  simp [read, alloc]

theorem read_write_ne (apart : r' ≠ r) : (h.write r v).read r' = h.read r' := by
  simp [read, write, List.getElem?_set_ne (.symm apart)]

end Heap

end Go
