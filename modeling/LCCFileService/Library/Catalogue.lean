import Mathlib.Logic.Function.Basic
import LCCFileService.Library.Table

/-!
# Catalogues

A `Catalogue κ α` has at most one entry of type `α` for every key.  The catalogue of a table has
for a key what is of interest in the row with this key; inserting a row enters it under its key,
whatever was there, and deleting rows strikes entries.  Whatever is a query of the rows of the
table is then a query of the entries of the catalogue.
-/

namespace LCCFileService

/-- At most one entry for every key. -/
abbrev Catalogue (κ α : Type) : Type := κ → Option α

namespace Catalogue

variable {κ α : Type} [DecidableEq κ]

/-- Enter an entry under a key, in place of the one that is there. -/
def enter (k : κ) (a : α) (m : Catalogue κ α) : Catalogue κ α := Function.update m k (some a)

/-- Strike the entries that satisfy `p` with their keys. -/
def strike (p : κ → α → Bool) (m : Catalogue κ α) : Catalogue κ α :=
  fun k => (m k).filter (fun a => !p k a)

end Catalogue

namespace Table

variable {ρ κ α : Type} {key : ρ → Option κ} [DecidableEq κ]

/-- What is of interest in the rows of the table, by their keys. -/
def catalogue (entry : ρ → α) (t : Table key) : Catalogue κ α := fun k => (t.get k).map entry

variable {entry : ρ → α} {t : Table key}

/-- The entries are those of the rows. -/
theorem catalogue_eq_some {k : κ} {a : α} :
  t.catalogue entry k = some a ↔ ∃ r ∈ t.rows, key r = some k ∧ entry r = a
  := by
  rw [catalogue, Option.map_eq_some_iff]
  simp only [get_eq_some, and_assoc]

theorem catalogue_insertOrReplace {r : ρ} {k : κ} (hr : key r = some k) :
  (t.insertOrReplace r).catalogue entry = (t.catalogue entry).enter k (entry r)
  := by
  funext k'
  rw [catalogue, get_insertOrReplace hr, Catalogue.enter, Function.update_apply]
  by_cases hk : k = k'
  · rw [if_pos hk, if_pos hk.symm]
    rfl
  · rw [if_neg hk, if_neg (Ne.symm hk)]
    rfl

/-- The row of a key after the rows satisfying `p` have been deleted. -/
theorem get_deleteWhere (p : ρ → Bool) (k : κ) :
  (t.deleteWhere p).get k = (t.get k).filter (fun r => !p r)
  := by
  apply Option.ext
  intro r
  rw [get_eq_some, mem_deleteWhere, Option.filter_eq_some_iff, get_eq_some]
  simp [and_right_comm]

/-- Deleting by a condition that the keys and entries of the rows decide. -/
theorem catalogue_deleteWhere {p : ρ → Bool} {q : κ → α → Bool}
    (hpq : ∀ r ∈ t.rows, ∀ k, key r = some k → p r = q k (entry r)) :
  (t.deleteWhere p).catalogue entry = (t.catalogue entry).strike q
  := by
  funext k
  rw [catalogue, get_deleteWhere, Catalogue.strike, catalogue]
  cases hr : t.get k with
  | none => rfl
  | some r =>
      obtain ⟨hmem, hk⟩ := get_eq_some.mp hr
      have hpr := hpq r hmem k hk
      cases hq : q k (entry r) with
      | true => simp [Option.filter, hpr, hq]
      | false => simp [Option.filter, hpr, hq]

end Table

end LCCFileService
