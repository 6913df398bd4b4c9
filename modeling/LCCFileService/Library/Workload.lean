import Mathlib.Algebra.BigOperators.Group.Finset.Basic
import Mathlib.Algebra.Order.BigOperators.Group.Finset
import LCCFileService.Library.Heap
import LCCFileService.Library.Run

/-!
# Workloads

A weight of the objects of a heap has a total, and what an allocation or a modification does to it
is what it does to the object.  Where the steps of a run add to a natural number at most what they
are charged with, less what they gain, the gains are bounded by the charges and the number at the
start.
-/

namespace LCCFileService

namespace Heap

variable {α : Type}

/-- The total of a weight of references and objects over the objects allocated so far. -/
def total (f : Nat → α → Nat) (h : Heap α) : Nat :=
  ∑ r ∈ Finset.range h.next, f r (h.cell r)

theorem total_alloc (f : Nat → α → Nat) (a : α) (h : Heap α) :
  (h.alloc a).total f = h.total f + f h.next a
  := by
  rw [total, next_alloc, Finset.sum_range_succ, cell_alloc_next]
  congr 1
  apply Finset.sum_congr rfl
  intro r hr
  rw [cell_alloc_of_lt a (Finset.mem_range.mp hr)]

/-- Totals of two weights, of heaps of the same size, differ by what is weighed differently. -/
theorem total_add_of_ne {f g : Nat → α → Nat} {h h' : Heap α} {r : Nat} (hr : r < h.next)
    (hnext : h'.next = h.next) (hne : ∀ r' ≠ r, g r' (h'.cell r') = f r' (h.cell r')) :
  h'.total g + f r (h.cell r) = h.total f + g r (h'.cell r)
  := by
  have hmem : r ∈ Finset.range h.next := Finset.mem_range.mpr hr
  have hothers : ∑ r' ∈ (Finset.range h.next).erase r, g r' (h'.cell r')
      = ∑ r' ∈ (Finset.range h.next).erase r, f r' (h.cell r') := by
    apply Finset.sum_congr rfl
    intro r' hr'
    apply hne r' (Finset.ne_of_mem_erase hr')
  rw [total, hnext, ← Finset.add_sum_erase _ _ hmem, hothers, total,
    ← Finset.add_sum_erase _ _ hmem]
  omega

/-- Only the modified object is weighed anew. -/
theorem total_modify (f : Nat → α → Nat) (g : α → α) {h : Heap α} {r : Nat} (hr : r < h.next) :
  (h.modify r g).total f + f r (h.cell r) = h.total f + f r (g (h.cell r))
  := by
  have htotal := @total_add_of_ne α f f h (h.modify r g) r hr (next_modify r g h) (by
    intro r' hne
    rw [cell_modify, if_neg hne])
  rw [htotal, cell_modify_self]

/-- What a modification adds to the weight of the object it adds at most to the total. -/
theorem total_modify_le {f : Nat → α → Nat} {g : α → α} {h : Heap α} {r n : Nat}
    (hle : f r (g (h.cell r)) ≤ f r (h.cell r) + n) :
  (h.modify r g).total f ≤ h.total f + n
  := by
  by_cases hr : r < h.next
  · have htotal := total_modify f g hr
    omega
  · have hsame : (h.modify r g).total f = h.total f := by
      apply Finset.sum_congr rfl
      intro r' hr'
      rw [cell_modify, if_neg]
      rintro rfl
      apply hr (Finset.mem_range.mp hr')
    rw [hsame]
    apply Nat.le_add_right

/-- A weight that is lower everywhere has a lower total. -/
theorem total_le_total {f g : Nat → α → Nat} {h h' : Heap α} (hnext : h'.next = h.next)
    (hle : ∀ r < h.next, f r (h'.cell r) ≤ g r (h.cell r)) :
  h'.total f ≤ h.total g
  := by
  rw [total, total, hnext]
  apply Finset.sum_le_sum
  intro r hr
  apply hle r (Finset.mem_range.mp hr)

/-- Where no object weighs more than `n`, the total is at most `n` for each. -/
theorem total_le_mul {f : Nat → α → Nat} {h : Heap α} {n : Nat}
    (hle : ∀ r < h.next, f r (h.cell r) ≤ n) :
  h.total f ≤ h.next * n
  := by
  have hsum := Finset.sum_le_card_nsmul (Finset.range h.next) (fun r => f r (h.cell r)) n
    (fun r hr => hle r (Finset.mem_range.mp hr))
  rw [Finset.card_range, Nat.nsmul_eq_mul] at hsum
  apply hsum

end Heap

namespace Run

variable {σ ε : Type} {step : σ → ε → σ}

/-- The total of a weight of the steps of a run. -/
def total (step : σ → ε → σ) (w : σ → ε → Nat) : σ → List ε → Nat
  | _, [] => 0
  | s, e :: es => w s e + total step w (step s e) es

/-- If every step adds to a measure at most its price less its gain, then the gains of a run are
bounded by the measure at the start and the prices. -/
theorem total_add_le {I : σ → Prop} {gain price : σ → ε → Nat} {μ : σ → Nat}
    (hstep : ∀ s e, I s → I (step s e) ∧ μ (step s e) + gain s e ≤ μ s + price s e) {s : σ}
    (hs : I s) (es : List ε) :
  total step gain s es + μ (final step s es) ≤ μ s + total step price s es
  := by
  induction es generalizing s with
  | nil =>
      rw [total, total, final_nil]
      omega
  | cons e es ih =>
      obtain ⟨hs', hle⟩ := hstep s e hs
      have hrest := ih hs'
      rw [total, total, final_cons]
      omega

end Run

end LCCFileService
