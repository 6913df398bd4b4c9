import Mathlib.Logic.Basic

/-!
# Loops

`Loop.run cond body n s` is the state in which the loop `while cond, do body` started in `s`
ends, if it ends within `n` rounds.  A loop whose rounds keep an invariant and decrease a
measure ends in a state with the invariant, after no more rounds than the measure says.
-/

namespace LCCFileService

namespace Loop

variable {σ : Type} {cond : σ → Bool} {body : σ → σ}

/-- The state in which a loop ends, if it ends within the given number of rounds. -/
def run (cond : σ → Bool) (body : σ → σ) : Nat → σ → Option σ
  | 0, s => if cond s then none else some s
  | n + 1, s => if cond s then run cond body n (body s) else some s

/-- A loop whose test fails ends at once. -/
theorem run_of_exit (n : Nat) {s : σ} (h : cond s = false) :
  run cond body n s = some s
  := by
  cases n with
  | zero => rw [run, h, if_neg Bool.false_ne_true]
  | succ n => rw [run, h, if_neg Bool.false_ne_true]

/-- A loop whose test succeeds goes on after its body. -/
theorem run_succ_of_round (n : Nat) {s : σ} (h : cond s = true) :
  run cond body (n + 1) s = run cond body n (body s)
  := by
  rw [run, if_pos h]

/-- Total correctness: a loop ends in a state with the invariant, in which its test fails, if every
round keeps the invariant and decreases the measure. -/
theorem exists_run {I : σ → Prop} {μ : σ → Nat}
    (hround : ∀ s, cond s = true → I s → I (body s) ∧ μ (body s) < μ s) {s : σ} (h : I s) :
  ∃ s', I s' ∧ cond s' = false ∧ ∀ n, μ s ≤ n → run cond body n s = some s'
  := by
  induction hμ : μ s using Nat.strongRecOn generalizing s with
  | ind m ih =>
      cases hcond : cond s with
      | false => exact ⟨s, h, hcond, fun n _ => run_of_exit n hcond⟩
      | true =>
          obtain ⟨hbody, hlt⟩ := hround s hcond h
          obtain ⟨s', hs', hexit, hruns⟩ := ih (μ (body s)) (hμ ▸ hlt) hbody rfl
          refine ⟨s', hs', hexit, ?_⟩
          intro n hn
          cases n with
          | zero => omega
          | succ n =>
              rw [run_succ_of_round n hcond]
              apply hruns
              omega

end Loop

end LCCFileService
