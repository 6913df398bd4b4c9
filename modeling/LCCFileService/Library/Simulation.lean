import LCCFileService.Library.Run

/-!
# Simulations

`Run.Reaches step P s s'` says that a run from `s` whose steps all have the property `P` ends in
`s'`.  A machine simulates another along a map of states if each of its steps reaches, in the
other machine, the image of the state after it; then so does each of its runs.  Where every step
does to the image what the other machine does upon the same event, so does every run.
-/

namespace LCCFileService

namespace Run

variable {σ τ ε δ : Type} {step : σ → ε → σ} {P Q : σ → ε → Prop} {s s' s'' : σ}

/-- A run from `s` whose steps have the property `P` ends in `s'`. -/
def Reaches (step : σ → ε → σ) (P : σ → ε → Prop) (s s' : σ) : Prop :=
  ∃ es, final step s es = s' ∧ Along step P s es

namespace Reaches

theorem refl (s : σ) :
  Reaches step P s s
  := ⟨[], rfl, trivial⟩

theorem trans (h : Reaches step P s s') (h' : Reaches step P s' s'') :
  Reaches step P s s''
  := by
  obtain ⟨es, rfl, hes⟩ := h
  obtain ⟨es', rfl, hes'⟩ := h'
  exact ⟨es ++ es', final_append s es es', (along_append s es es').mpr ⟨hes, hes'⟩⟩

theorem single {e : ε} (he : P s e) :
  Reaches step P s (step s e)
  := ⟨[e], rfl, he, trivial⟩

theorem mono (hPQ : ∀ s e, P s e → Q s e) (h : Reaches step P s s') :
  Reaches step Q s s'
  := by
  obtain ⟨es, rfl, hes⟩ := h
  refine ⟨es, rfl, ?_⟩
  apply along_iff_forall.mpr
  intro pre e post heq
  apply hPQ _ _ (along_iff_forall.mp hes pre e post heq)

/-- What every step with the property `P` keeps holds in the states reached. -/
theorem invariant {I : σ → Prop} (hstep : ∀ s e, I s → P s e → I (step s e)) (hs : I s)
    (h : Reaches step P s s') :
  I s'
  := by
  obtain ⟨es, rfl, hes⟩ := h
  apply (throughout_of_step hstep hs hes).final

end Reaches

/-- If a step from a state with the invariant keeps it and reaches the image of its result by steps
with the property `Q e` of its event `e`, then a run reaches the image of its last state by steps
with this property of one of its events. -/
theorem reaches_of_step {step' : τ → δ → τ} {f : σ → τ} {I : σ → Prop} {Q : ε → τ → δ → Prop}
    (hstep : ∀ s e, I s → I (step s e) ∧ Reaches step' (Q e) (f s) (f (step s e))) {s : σ}
    (hs : I s) (es : List ε) :
  Reaches step' (fun t d => ∃ e ∈ es, Q e t d) (f s) (f (final step s es))
  := by
  induction es generalizing s with
  | nil => apply Reaches.refl
  | cons e es ih =>
      obtain ⟨hs', hreaches⟩ := hstep s e hs
      apply (hreaches.mono _).trans ((ih hs').mono _)
      · intro t d hd
        exact ⟨e, List.mem_cons_self, hd⟩
      · rintro t d ⟨e', he', hd⟩
        exact ⟨e', List.mem_cons_of_mem e he', hd⟩

/-- If a step from a state with the invariant keeps it and does to its image what the other machine
does, then so does a run. -/
theorem final_image {step' : τ → ε → τ} {f : σ → τ} {I : σ → Prop}
    (hstep : ∀ s e, I s → I (step s e) ∧ f (step s e) = step' (f s) e) {s : σ} (hs : I s)
    (es : List ε) :
  f (final step s es) = final step' (f s) es
  := by
  induction es generalizing s with
  | nil => rfl
  | cons e es ih =>
      obtain ⟨hs', heq⟩ := hstep s e hs
      rw [final_cons, final_cons, ih hs', heq]

end Run

end LCCFileService
