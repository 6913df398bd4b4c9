import Mathlib.Logic.Basic

/-!
# Runs

A machine is a function `step` giving the state after an event.  `Run.final step s es` is
the state a run over the events `es` ends in.  `Run.Along step P s es` says that `P` holds
at every step of the run, of the state before the step and its event, and
`Run.Throughout step I s es` that `I` holds in every state of the run, the first and the
last included.  `Run.Until step I Q s es` and `Run.AlongUntil step P Q s es` say the same up to
the first step with `Q`, and `Run.AlongRest step W s es` that `W` holds at every step, of the
state before it, its event and the events after it.
-/

namespace LCCFileService

namespace Run

variable {σ ε : Type} {step : σ → ε → σ}

/-- The state after the events `es`. -/
def final (step : σ → ε → σ) : σ → List ε → σ
  | s, [] => s
  | s, e :: es => final step (step s e) es

/-- `P` holds at every step of the run, of the state before it and its event. -/
def Along (step : σ → ε → σ) (P : σ → ε → Prop) : σ → List ε → Prop
  | _, [] => True
  | s, e :: es => P s e ∧ Along step P (step s e) es

instance instDecidableAlong {P : σ → ε → Prop} [∀ s e, Decidable (P s e)] :
    (s : σ) → (es : List ε) → Decidable (Along step P s es)
  | _, [] => isTrue trivial
  | s, e :: es =>
      have : Decidable (Along step P (step s e) es) := instDecidableAlong (step s e) es
      inferInstanceAs (Decidable (P s e ∧ Along step P (step s e) es))

/-- `I` holds in every state of the run. -/
def Throughout (step : σ → ε → σ) (I : σ → Prop) : σ → List ε → Prop
  | s, [] => I s
  | s, e :: es => I s ∧ Throughout step I (step s e) es

/-- `I` holds in every state of the run up to the first step with `Q`. -/
def Until (step : σ → ε → σ) (I : σ → Prop) (Q : σ → ε → Prop) : σ → List ε → Prop
  | s, [] => I s
  | s, e :: es => I s ∧ (¬ Q s e → Until step I Q (step s e) es)

/-- `P` holds at every step of the run before the first with `Q`. -/
def AlongUntil (step : σ → ε → σ) (P Q : σ → ε → Prop) : σ → List ε → Prop
  | _, [] => True
  | s, e :: es => ¬ Q s e → P s e ∧ AlongUntil step P Q (step s e) es

/-- `W` holds at every step of the run, of the state before it, its event and the events after
it. -/
def AlongRest (step : σ → ε → σ) (W : σ → ε → List ε → Prop) : σ → List ε → Prop
  | _, [] => True
  | s, e :: es => W s e es ∧ AlongRest step W (step s e) es

/-- The machine with a record beside its state, to which every step adds what `note` says. -/
def recording {ρ : Type} (step : σ → ε → σ) (note : σ → ε → ρ → ρ) (p : σ × ρ) (e : ε) : σ × ρ :=
  (step p.1 e, note p.1 e p.2)

@[simp]
theorem final_nil (s : σ) :
  final step s [] = s
  := rfl

@[simp]
theorem final_cons (s : σ) (e : ε) (es : List ε) :
  final step s (e :: es) = final step (step s e) es
  := rfl

/-- A run over `es ++ es'` is a run over `es` followed by a run over `es'`. -/
theorem final_append (s : σ) (es es' : List ε) :
  final step s (es ++ es') = final step (final step s es) es'
  := by
  induction es generalizing s with
  | nil => rfl
  | cons e es ih => apply ih

/-- A property of the steps of a run over `es ++ es'` is a property of the steps of both
parts. -/
theorem along_append {P : σ → ε → Prop} (s : σ) (es es' : List ε) :
  Along step P s (es ++ es') ↔ Along step P s es ∧ Along step P (final step s es) es'
  := by
  induction es generalizing s with
  | nil => simp [Along]
  | cons e es ih =>
      simp only [List.cons_append, Along, final_cons, and_assoc]
      rw [ih]

/-- A property of the steps of a run is a property of every event of the run in the state it
happens in. -/
theorem along_iff_forall {P : σ → ε → Prop} {s : σ} {es : List ε} :
  Along step P s es ↔ ∀ pre e post, es = pre ++ e :: post → P (final step s pre) e
  := by
  constructor
  · rintro h pre e post rfl
    apply ((along_append s pre (e :: post)).mp h).2.1
  · intro h
    induction es generalizing s with
    | nil => trivial
    | cons e es ih =>
        constructor
        · apply h [] e es rfl
        · apply ih
          intro pre e' post hes
          apply h (e :: pre) e' post
          rw [hes]
          rfl

/-- A property that holds of every step holds along every run. -/
theorem along_of_forall {P : σ → ε → Prop} (h : ∀ s e, P s e) (s : σ) (es : List ε) :
  Along step P s es
  := by
  induction es generalizing s with
  | nil => trivial
  | cons e es ih => exact ⟨h s e, ih _⟩

/-- A property that the events of a run have in every state holds along it. -/
theorem along_of_mem {P : σ → ε → Prop} {es : List ε} (h : ∀ e ∈ es, ∀ s, P s e) (s : σ) :
  Along step P s es
  := by
  induction es generalizing s with
  | nil => trivial
  | cons e es ih =>
      obtain ⟨he, hes⟩ := List.forall_mem_cons.mp h
      exact ⟨he s, ih hes _⟩

/-- Properties that hold of the same steps hold along the same runs. -/
theorem along_congr {P Q : σ → ε → Prop} (h : ∀ s e, P s e ↔ Q s e) (s : σ) (es : List ε) :
  Along step P s es ↔ Along step Q s es
  := by
  induction es generalizing s with
  | nil => rfl
  | cons e es ih =>
      simp only [Along]
      rw [h, ih]

/-- Two properties hold along a run exactly if each of them does. -/
theorem along_and {P Q : σ → ε → Prop} {s : σ} {es : List ε} :
  Along step (fun s e => P s e ∧ Q s e) s es ↔ Along step P s es ∧ Along step Q s es
  := by
  induction es generalizing s with
  | nil => simp [Along]
  | cons e es ih =>
      simp only [Along]
      rw [ih, and_and_and_comm]

/-- A property of the steps of the machine without its record. -/
theorem along_recording_iff {ρ : Type} {note : σ → ε → ρ → ρ} {P : σ → ε → Prop} {s : σ} (x : ρ)
    {es : List ε} :
  Along (recording step note) (fun p => P p.1) (s, x) es ↔ Along step P s es
  := by
  induction es generalizing s x with
  | nil => rfl
  | cons e es ih => apply and_congr_right (fun _ => ih _)

/-- What holds in every state of a run holds in its first state. -/
theorem Throughout.start {I : σ → Prop} {s : σ} {es : List ε} (h : Throughout step I s es) :
  I s
  := by
  cases es with
  | nil => apply h
  | cons e es => apply h.1

/-- What holds in every state of a run holds in its last state. -/
theorem Throughout.final {I : σ → Prop} {s : σ} {es : List ε} (h : Throughout step I s es) :
  I (final step s es)
  := by
  induction es generalizing s with
  | nil => apply h
  | cons e es ih => apply ih h.2

/-- Throughout a run hold the consequences of what holds throughout it. -/
theorem Throughout.imp {I J : σ → Prop} (hIJ : ∀ s, I s → J s) {s : σ} {es : List ε}
    (h : Throughout step I s es) :
  Throughout step J s es
  := by
  induction es generalizing s with
  | nil => apply hIJ s h
  | cons e es ih => exact ⟨hIJ s h.1, ih h.2⟩

/-- Where one property holds throughout, both do exactly if the other does. -/
theorem throughout_and_iff {I J : σ → Prop} {s : σ} {es : List ε} (hI : Throughout step I s es) :
  Throughout step (fun s => I s ∧ J s) s es ↔ Throughout step J s es
  := by
  constructor
  · intro h
    apply h.imp
    intro s h
    apply h.2
  · intro hJ
    induction es generalizing s with
    | nil => exact ⟨hI, hJ⟩
    | cons e es ih => exact ⟨⟨hI.1, hJ.1⟩, ih hI.2 hJ.2⟩

/-- Where an invariant holds throughout, properties that are equivalent under it hold throughout the
same runs. -/
theorem throughout_congr {I J K : σ → Prop} (h : ∀ s, I s → (J s ↔ K s)) {s : σ} {es : List ε}
    (hI : Throughout step I s es) :
  Throughout step J s es ↔ Throughout step K s es
  := by
  induction es generalizing s with
  | nil => apply h s hI
  | cons e es ih => rw [Throughout, Throughout, h s hI.1, ih hI.2]

/-- The invariant rule: what holds at the start and is preserved by every step with the
property `P` holds in every state of a run whose steps all have the property. -/
theorem throughout_of_step {I : σ → Prop} {P : σ → ε → Prop}
    (hstep : ∀ s e, I s → P s e → I (step s e)) {s : σ} {es : List ε} (hs : I s)
    (hes : Along step P s es) :
  Throughout step I s es
  := by
  induction es generalizing s with
  | nil => apply hs
  | cons e es ih => exact ⟨hs, ih (hstep s e hs hes.1) hes.2⟩

/-- The invariant rule for a property preserved by every step. -/
theorem throughout_of_invariant {I : σ → Prop} (hstep : ∀ s e, I s → I (step s e)) {s : σ}
    (hs : I s) (es : List ε) :
  Throughout step I s es
  := throughout_of_step (P := fun _ _ => True) (fun s e h _ => hstep s e h) hs
      (along_of_forall (fun _ _ => trivial) s es)

/-- The last state of a run has every property that holds at the start and is preserved by
every step. -/
theorem final_of_invariant {I : σ → Prop} (hstep : ∀ s e, I s → I (step s e)) {s : σ}
    (hs : I s) (es : List ε) :
  I (Run.final step s es)
  := (throughout_of_invariant hstep hs es).final

/-- A property of steps holds along a run if every step from a state with the invariant, with the
property `P`, has it and keeps the invariant. -/
theorem along_of_step {I : σ → Prop} {P Q : σ → ε → Prop}
    (hstep : ∀ s e, I s → P s e → I (step s e) ∧ Q s e) {s : σ} {es : List ε} (hs : I s)
    (hes : Along step P s es) :
  Along step Q s es
  := by
  induction es generalizing s with
  | nil => trivial
  | cons e es ih =>
      obtain ⟨hs', hQ⟩ := hstep s e hs hes.1
      exact ⟨hQ, ih hs' hes.2⟩

/-- If a state has `I` exactly when the step into it from a state with `I` has `P`, then `I`
holds in every state of a run exactly when `P` holds along it. -/
theorem throughout_iff_along {I : σ → Prop} {P : σ → ε → Prop}
    (h : ∀ s e, I s → (I (step s e) ↔ P s e)) {s : σ} (hs : I s) (es : List ε) :
  Throughout step I s es ↔ Along step P s es
  := by
  constructor
  · intro hI
    induction es generalizing s with
    | nil => trivial
    | cons e es ih =>
        have he := hI.2.start
        exact ⟨(h s e hs).mp he, ih he hI.2⟩
  · intro hP
    apply throughout_of_step (fun s e hs he => (h s e hs).mpr he) hs hP

/-- Let the steps with the property `R` keep `A`.  If from states with `A` and `I` a step leads to
one with `I`, and has `Q`, exactly when it has `P`, then along a run `I` and `Q` hold exactly when
`P` does. -/
theorem throughout_and_along_iff {A I : σ → Prop} {R P Q : σ → ε → Prop}
    (hA : ∀ s e, A s → R s e → A (step s e))
    (h : ∀ s e, A s → I s → R s e → (I (step s e) ∧ Q s e ↔ P s e)) {s : σ} {es : List ε}
    (hsA : A s) (hsI : I s) (hes : Along step R s es) :
  Throughout step I s es ∧ Along step Q s es ↔ Along step P s es
  := by
  induction es generalizing s with
  | nil => apply iff_of_true ⟨hsI, trivial⟩ trivial
  | cons e es ih =>
      obtain ⟨he, hes⟩ := hes
      have hstep := h s e hsA hsI he
      constructor
      · rintro ⟨hI, hQ⟩
        have hI' := hI.2.start
        exact ⟨hstep.mp ⟨hI', hQ.1⟩, (ih (hA s e hsA he) hI' hes).mp ⟨hI.2, hQ.2⟩⟩
      · rintro ⟨hP, hPs⟩
        obtain ⟨hI', hQ⟩ := hstep.mpr hP
        obtain ⟨hIs, hQs⟩ := (ih (hA s e hsA he) hI' hes).mpr hPs
        exact ⟨⟨hsI, hIs⟩, hQ, hQs⟩

/-- Let the steps keep `A`.  If from a state with `A` and `I` a step without `Q` leads to one with
`I` exactly when it has `P`, then `I` holds up to the first step with `Q` exactly when it holds at
the start and `P` holds up to that step. -/
theorem until_iff_alongUntil {A I : σ → Prop} {P Q : σ → ε → Prop}
    (hA : ∀ s e, A s → A (step s e))
    (h : ∀ s e, A s → I s → ¬ Q s e → (I (step s e) ↔ P s e)) {s : σ} (hs : A s) (es : List ε) :
  Until step I Q s es ↔ I s ∧ AlongUntil step P Q s es
  := by
  induction es generalizing s with
  | nil => apply (and_iff_left trivial).symm
  | cons e es ih =>
      rw [Until, AlongUntil]
      apply and_congr_right
      intro hI
      apply forall_congr'
      intro hQ
      rw [ih (hA s e hs), h s e hs hI hQ]

/-- Where an invariant holds, properties of the steps and of what comes after them that are
equivalent under it hold along the same runs. -/
theorem alongRest_congr {I : σ → Prop} {W W' : σ → ε → List ε → Prop}
    (h : ∀ s e es, I s → (W s e es ↔ W' s e es)) {s : σ} {es : List ε}
    (hI : Throughout step I s es) :
  AlongRest step W s es ↔ AlongRest step W' s es
  := by
  induction es generalizing s with
  | nil => rfl
  | cons e es ih =>
      rw [AlongRest, AlongRest, h s e es hI.1, ih hI.2]

end Run

end LCCFileService
