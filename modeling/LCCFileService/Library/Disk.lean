import Mathlib.Logic.Function.Basic

/-!
# Disks

A disk gives for every path the content of the file there, if there is one.  A file can
be written, removed, copied to a free path and moved to a free path.
-/

namespace LCCFileService

/-- The content of the file at each path, if there is a file. -/
abbrev Disk (π β : Type) : Type := π → Option β

namespace Disk

variable {π β : Type}

/-- There is a file at the path `p`. -/
def has (d : Disk π β) (p : π) : Bool := (d p).isSome

theorem has_iff {d : Disk π β} {p : π} :
  d.has p ↔ ∃ c, d p = some c
  := Option.isSome_iff_exists

variable [DecidableEq π]

/-- Put a file with content `c` at the path `p`. -/
def write (p : π) (c : β) (d : Disk π β) : Disk π β := Function.update d p (some c)

/-- Remove the file at the path `p`. -/
def remove (p : π) (d : Disk π β) : Disk π β := Function.update d p none

/-- Put a file with the content of the file at `p`, if there is one, at the path `q`. -/
def copy (p q : π) (d : Disk π β) : Disk π β := Function.update d q (d p)

/-- Copy the file at `p` to `q` and remove it at `p`. -/
def move (p q : π) (d : Disk π β) : Disk π β := (d.copy p q).remove p

theorem remove_apply (p : π) (d : Disk π β) (q : π) :
  d.remove p q = if q = p then none else d q
  := Function.update_apply d p none q

theorem copy_apply (p q : π) (d : Disk π β) (q' : π) :
  d.copy p q q' = if q' = q then d p else d q'
  := Function.update_apply d q (d p) q'

end Disk

end LCCFileService
