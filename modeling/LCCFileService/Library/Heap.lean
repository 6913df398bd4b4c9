import Mathlib.Data.List.AList

/-!
# Objects and dictionaries

A `Heap α` holds the objects of type `α` allocated so far, each at the reference it was
allocated at; references are given out in increasing order.  A `Dictionary κ α` is a
finite map with decidable lookup.
-/

namespace LCCFileService

/-- The objects of type `α` allocated so far. -/
structure Heap (α : Type) where
  /-- The reference the next object gets. -/
  next : Nat
  /-- The object at a reference. -/
  cell : Nat → α

namespace Heap

variable {α : Type}

/-- No objects. -/
def empty [Inhabited α] : Heap α where
  next := 0
  cell := fun _ => default

/-- Allocate an object, at the reference `h.next`. -/
def alloc (a : α) (h : Heap α) : Heap α where
  next := h.next + 1
  cell := Function.update h.cell h.next a

/-- Change the object at the reference `r`. -/
def modify (r : Nat) (f : α → α) (h : Heap α) : Heap α where
  next := h.next
  cell := Function.update h.cell r (f (h.cell r))

@[simp]
theorem next_alloc (a : α) (h : Heap α) :
  (h.alloc a).next = h.next + 1
  := rfl

@[simp]
theorem next_modify (r : Nat) (f : α → α) (h : Heap α) :
  (h.modify r f).next = h.next
  := rfl

theorem cell_alloc (a : α) (h : Heap α) (r : Nat) :
  (h.alloc a).cell r = if r = h.next then a else h.cell r
  := Function.update_apply h.cell h.next a r

/-- The object at the new reference is the allocated object. -/
@[simp]
theorem cell_alloc_next (a : α) (h : Heap α) :
  (h.alloc a).cell h.next = a
  := by
  rw [cell_alloc, if_pos rfl]

/-- Allocation keeps the objects allocated before. -/
theorem cell_alloc_of_lt (a : α) {h : Heap α} {r : Nat} (hr : r < h.next) :
  (h.alloc a).cell r = h.cell r
  := by
  rw [cell_alloc, if_neg (Nat.ne_of_lt hr)]

theorem cell_modify (r : Nat) (f : α → α) (h : Heap α) (r' : Nat) :
  (h.modify r f).cell r' = if r' = r then f (h.cell r) else h.cell r'
  := Function.update_apply h.cell r (f (h.cell r)) r'

@[simp]
theorem cell_modify_self (r : Nat) (f : α → α) (h : Heap α) :
  (h.modify r f).cell r = f (h.cell r)
  := by
  rw [cell_modify, if_pos rfl]

/-- A modification that keeps its object changes nothing. -/
theorem modify_eq_self {r : Nat} {f : α → α} {h : Heap α} (hf : f (h.cell r) = h.cell r) :
  h.modify r f = h
  := by
  rw [modify, hf, Function.update_eq_self]

/-- Two modifications of one object are one. -/
theorem modify_modify (r : Nat) (f g : α → α) (h : Heap α) :
  (h.modify r f).modify r g = h.modify r (fun a => g (f a))
  := by
  rw [modify, cell_modify_self, modify, modify, Function.update_idem]

/-- What the modification keeps, it keeps at every reference. -/
theorem map_cell_modify {β : Type} (g : α → β) {r : Nat} {f : α → α} {h : Heap α}
    (hf : g (f (h.cell r)) = g (h.cell r)) (r' : Nat) :
  g ((h.modify r f).cell r') = g (h.cell r')
  := by
  rw [cell_modify]
  split
  · next hr =>
      subst hr
      apply hf
  · rfl

/-! ### Counting -/

/-- The number of objects satisfying `p`. -/
def count (p : α → Bool) (h : Heap α) : Nat := (List.range h.next).countP (fun r => p (h.cell r))

/-- Objects with the same values of `p` are counted alike. -/
theorem count_congr {p : α → Bool} {h h' : Heap α} (hnext : h'.next = h.next)
    (hp : ∀ r < h.next, p (h'.cell r) = p (h.cell r)) :
  h'.count p = h.count p
  := by
  rw [count, count, hnext]
  apply List.countP_congr
  intro r hr
  rw [hp r (List.mem_range.mp hr)]

theorem count_alloc (p : α → Bool) (a : α) (h : Heap α) :
  (h.alloc a).count p = h.count p + if p a then 1 else 0
  := by
  have hold : (List.range h.next).countP (fun r => p ((h.alloc a).cell r)) = h.count p := by
    apply List.countP_congr
    intro r hr
    rw [cell_alloc_of_lt a (List.mem_range.mp hr)]
  rw [count, next_alloc, List.range_succ, List.countP_append, hold, List.countP_singleton,
    cell_alloc_next]

/-- Only the modified object is counted anew. -/
theorem count_modify (p : α → Bool) (f : α → α) {h : Heap α} {r : Nat} (hr : r < h.next) :
  (h.modify r f).count p + (if p (h.cell r) then 1 else 0)
    = h.count p + if p (f (h.cell r)) then 1 else 0
  := by
  have hsplit : ∀ g : Nat → Bool, (List.range h.next).countP g
      = (List.range r).countP g + (if g r then 1 else 0)
        + (List.range (h.next - (r + 1))).countP (fun i => g (r + 1 + i)) := by
    intro g
    have hnext : h.next = r + 1 + (h.next - (r + 1)) := by omega
    rw [hnext, List.range_add, List.countP_append, List.range_succ, List.countP_append,
      List.countP_singleton, List.countP_map]
    congr 3
    omega
  have hbefore : (List.range r).countP (fun i => p ((h.modify r f).cell i))
      = (List.range r).countP (fun i => p (h.cell i)) := by
    apply List.countP_congr
    intro i hi
    rw [cell_modify, if_neg (Nat.ne_of_lt (List.mem_range.mp hi))]
  have hafter : (List.range (h.next - (r + 1))).countP
        (fun i => p ((h.modify r f).cell (r + 1 + i)))
      = (List.range (h.next - (r + 1))).countP (fun i => p (h.cell (r + 1 + i))) := by
    apply List.countP_congr
    intro i _
    have hne : r + 1 + i ≠ r := by omega
    rw [cell_modify, if_neg hne]
  rw [count, count, next_modify, hsplit, hsplit, hbefore, hafter, cell_modify_self]
  omega

theorem count_pos_iff {p : α → Bool} {h : Heap α} :
  0 < h.count p ↔ ∃ r < h.next, p (h.cell r)
  := by
  rw [count, List.countP_pos_iff]
  simp only [List.mem_range]

end Heap

/-- A finite map. -/
abbrev Dictionary (κ α : Type) : Type := AList (fun _ : κ => α)

namespace Dictionary

variable {κ α : Type} [DecidableEq κ]

theorem lookup_insert (k : κ) (a : α) (d : Dictionary κ α) (k' : κ) :
  (AList.insert k a d).lookup k' = if k' = k then some a else d.lookup k'
  := by
  split
  · next h =>
      subst h
      apply AList.lookup_insert
  · next h => apply AList.lookup_insert_ne h

theorem lookup_erase (k : κ) (d : Dictionary κ α) (k' : κ) :
  (AList.erase k d).lookup k' = if k' = k then none else d.lookup k'
  := by
  split
  · next h =>
      subst h
      apply AList.lookup_erase
  · next h => apply AList.lookup_erase_ne h

end Dictionary

end LCCFileService
