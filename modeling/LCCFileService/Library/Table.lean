import Mathlib.Data.List.Pairwise

/-!
# Keyed tables

A `Table key` is a list of rows in which no two rows have the same `key`; the key is
nullable, and rows with the key `none` do not exclude each other.  The rows stand in the
order in which a scan visits them.  Inserting a row replaces the row with its key and puts
the new row last; the rows satisfying a condition can be deleted, and the row with a key
updated by a function that does not change keys.
-/

namespace LCCFileService

/-- The rows `r` and `r'` do not share a key. -/
def KeysDiffer {ρ κ : Type} (key : ρ → Option κ) (r r' : ρ) : Prop :=
  ∀ k, key r = some k → key r' ≠ some k

/-- Sharing no key is symmetric. -/
instance {ρ κ : Type} (key : ρ → Option κ) : Std.Symm (KeysDiffer key) where
  symm := by
    intro r r' h k hr' hr
    apply h k hr hr'

/-- A table of rows in which no two rows share a key. -/
structure Table {ρ κ : Type} (key : ρ → Option κ) where
  rows : List ρ
  differ : rows.Pairwise (KeysDiffer key)

namespace Table

variable {ρ κ : Type} {key : ρ → Option κ}

/-- Two tables with the same rows are equal. -/
@[ext]
theorem ext {t t' : Table key} (h : t.rows = t'.rows) :
  t = t'
  := by
  cases t
  cases t'
  simpa using h

/-- The table without rows. -/
def empty (key : ρ → Option κ) : Table key where
  rows := []
  differ := List.Pairwise.nil

instance : EmptyCollection (Table key) := ⟨empty key⟩

/-- Two rows of a table with the same key are the same row. -/
theorem eq_of_key (t : Table key) {r r' : ρ} (hr : r ∈ t.rows) (hr' : r' ∈ t.rows) {k : κ}
    (hk : key r = some k) (hk' : key r' = some k) :
  r = r'
  := by
  by_contra hne
  apply t.differ.forall hr hr' hne k hk hk'

/-! ### Deleting -/

/-- Delete the rows satisfying `p`. -/
def deleteWhere (p : ρ → Bool) (t : Table key) : Table key where
  rows := t.rows.filter (fun r => !p r)
  differ := t.differ.sublist List.filter_sublist

@[simp]
theorem rows_deleteWhere (p : ρ → Bool) (t : Table key) :
  (t.deleteWhere p).rows = t.rows.filter (fun r => !p r)
  := rfl

/-- A row is left by `deleteWhere p` exactly when it was there and does not satisfy `p`. -/
theorem mem_deleteWhere {p : ρ → Bool} {t : Table key} {r : ρ} :
  r ∈ (t.deleteWhere p).rows ↔ r ∈ t.rows ∧ p r = false
  := by
  simp

/-- Deleting leaves the table as it is exactly when no row satisfies the condition. -/
theorem deleteWhere_eq_self {p : ρ → Bool} {t : Table key} :
  t.deleteWhere p = t ↔ ∀ r ∈ t.rows, p r = false
  := by
  constructor
  · intro h r hr
    rw [← h] at hr
    apply (mem_deleteWhere.mp hr).2
  · intro h
    apply ext
    rw [rows_deleteWhere, List.filter_eq_self]
    intro r hr
    simp [h r hr]

/-! ### Inserting -/

variable [DecidableEq κ]

/-- The rows `r` and `r'` share a key. -/
def sameKey (key : ρ → Option κ) (r r' : ρ) : Bool :=
  (key r).isSome && decide (key r = key r')

theorem sameKey_eq_false {r r' : ρ} :
  sameKey key r r' = false ↔ KeysDiffer key r r'
  := by
  cases h : key r with
  | none => simp [sameKey, KeysDiffer, h]
  | some k => simp [sameKey, KeysDiffer, h, eq_comm]

/-- Insert a row in place of the row with its key, as the last row. -/
def insertOrReplace (r : ρ) (t : Table key) : Table key where
  rows := t.rows.filter (fun r' => !sameKey key r' r) ++ [r]
  differ := by
    rw [List.pairwise_append]
    and_intros
    · apply t.differ.sublist List.filter_sublist
    · apply List.pairwise_singleton
    · intro r' hr' r'' hr''
      obtain rfl := List.mem_singleton.mp hr''
      apply sameKey_eq_false.mp
      simpa using (List.mem_filter.mp hr').2

/-- The rows after an insertion are the inserted row and the old rows with another key. -/
theorem mem_insertOrReplace {r r' : ρ} {t : Table key} :
  r' ∈ (t.insertOrReplace r).rows ↔ r' = r ∨ r' ∈ t.rows ∧ KeysDiffer key r' r
  := by
  simp [insertOrReplace, ← sameKey_eq_false, or_comm]

/-! ### Looking up a key -/

/-- The row with key `k`. -/
def get (t : Table key) (k : κ) : Option ρ :=
  t.rows.find? (fun r => key r = some k)

/-- The row with key `k` is the row of the table that has this key. -/
theorem get_eq_some {t : Table key} {k : κ} {r : ρ} :
  t.get k = some r ↔ r ∈ t.rows ∧ key r = some k
  := by
  constructor
  · intro h
    exact ⟨List.mem_of_find?_eq_some h, by simpa using List.find?_some h⟩
  · rintro ⟨hr, hk⟩
    cases h : t.get k with
    | none =>
        have := List.find?_eq_none.mp h r hr
        simp [hk] at this
    | some r' =>
        have hk' : key r' = some k := by simpa using List.find?_some h
        rw [t.eq_of_key (List.mem_of_find?_eq_some h) hr hk' hk]

/-- There is no row with key `k` exactly when every row has another key. -/
theorem get_eq_none {t : Table key} {k : κ} :
  t.get k = none ↔ ∀ r ∈ t.rows, key r ≠ some k
  := by
  simp [get]

/-- The row found at a key has this key. -/
theorem key_of_get {t : Table key} {k : κ} {r : ρ} (h : t.get k = some r) :
  key r = some k
  := (get_eq_some.mp h).2

/-- Tables with the same rows at a key, up to order, give the same row at the key. -/
theorem get_congr {t t' : Table key} {k : κ}
    (h : ∀ r, key r = some k → (r ∈ t.rows ↔ r ∈ t'.rows)) :
  t.get k = t'.get k
  := by
  cases ht : t'.get k with
  | none =>
      apply get_eq_none.mpr
      intro r hr hk
      apply get_eq_none.mp ht r ((h r hk).mp hr) hk
  | some r =>
      obtain ⟨hr, hk⟩ := get_eq_some.mp ht
      apply get_eq_some.mpr ⟨(h r hk).mpr hr, hk⟩

/-- After the insertion of a row with key `k`, the row at `k` is this row, and the row at
another key is what it was. -/
theorem get_insertOrReplace {r : ρ} {k : κ} (hr : key r = some k) (t : Table key) (k' : κ) :
  (t.insertOrReplace r).get k' = if k = k' then some r else t.get k'
  := by
  split
  · next h =>
      subst h
      apply get_eq_some.mpr ⟨mem_insertOrReplace.mpr (Or.inl rfl), hr⟩
  · next h =>
      apply get_congr
      intro r' hr'
      rw [mem_insertOrReplace]
      constructor
      · rintro (rfl | ⟨hmem, -⟩)
        · rw [hr] at hr'
          apply absurd (Option.some.inj hr') h
        · apply hmem
      · intro hmem
        right
        use hmem
        intro k'' hk'' hk
        rw [hr'] at hk''
        rw [hr] at hk
        apply h
        rw [Option.some.inj hk, Option.some.inj hk'']

/-- Delete the row with key `k`. -/
def deleteKey (k : κ) (t : Table key) : Table key :=
  t.deleteWhere (fun r => key r = some k)

theorem get_deleteKey (k k' : κ) (t : Table key) :
  (t.deleteKey k).get k' = if k = k' then none else t.get k'
  := by
  split
  · next h =>
      subst h
      apply get_eq_none.mpr
      intro r hr
      simpa using (mem_deleteWhere.mp hr).2
  · next h =>
      apply get_congr
      intro r hr
      rw [deleteKey, mem_deleteWhere]
      simp [hr, Ne.symm h]

/-! ### Updating -/

/-- Update the row with key `k` by `f`, which keeps the key. -/
def updateKey (k : κ) (f : ρ → ρ) (hf : ∀ r, key (f r) = key r) (t : Table key) :
    Table key where
  rows := t.rows.map (fun r => if key r = some k then f r else r)
  differ := by
    rw [List.pairwise_map]
    apply t.differ.imp
    intro r r' h k' hr hr'
    apply h k'
    · split at hr
      · rwa [hf] at hr
      · exact hr
    · split at hr'
      · rwa [hf] at hr'
      · exact hr'

theorem get_updateKey (k k' : κ) (f : ρ → ρ) (hf : ∀ r, key (f r) = key r) (t : Table key) :
  (t.updateKey k f hf).get k' = if k = k' then (t.get k').map f else t.get k'
  := by
  have hkey : ∀ r, key (if key r = some k then f r else r) = key r := by
    intro r
    split
    · apply hf
    · rfl
  have hfind : (t.updateKey k f hf).get k'
      = (t.get k').map (fun r => if key r = some k then f r else r) := by
    simp only [get, updateKey, List.find?_map, Function.comp_def, hkey]
  rw [hfind]
  cases h : t.get k' with
  | none => simp
  | some r =>
      have hr := key_of_get h
      by_cases hk : k = k'
      · simp [hr, hk]
      · simp [hr, hk, Ne.symm hk]

end Table

end LCCFileService
