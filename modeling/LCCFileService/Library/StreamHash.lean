import Mathlib.Logic.Function.Basic
import Mathlib.Data.List.Basic

/-!
# Stream hashes

A `StreamHash α δ` computes digests in `δ` of lists over `α` that it is given in parts.  It
does not matter in which parts.  For every list there is a stream hash that tells it from all
others.
-/

namespace LCCFileService

/-- A hash function whose input may be given in parts. -/
structure StreamHash (α δ : Type) where
  /-- What is kept between the parts. -/
  Context : Type
  init : Context
  update : Context → List α → Context
  final : Context → δ
  update_nil : ∀ c, update c [] = c
  update_append : ∀ c a b, update (update c a) b = update c (a ++ b)

namespace StreamHash

variable {α δ : Type}

/-- The digest of a list. -/
def digest (H : StreamHash α δ) (a : List α) : δ := H.final (H.update H.init a)

/-- The stream hash that keeps all its input, and computes the digest from it. -/
def ofDigest (f : List α → δ) : StreamHash α δ where
  Context := List α
  init := []
  update := (· ++ ·)
  final := f
  update_nil := List.append_nil
  update_append := List.append_assoc

@[simp]
theorem digest_ofDigest (f : List α → δ) (a : List α) :
  (ofDigest f).digest a = f a
  := rfl

end StreamHash

end LCCFileService
