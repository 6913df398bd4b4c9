import Mathlib.Data.List.Nodup

/-!
# Queues of jobs

A `JobQueue ι` is a queue that begins its jobs in the order they were added, at most `width` of
them running at a time.  It lists the jobs added and the jobs begun.  Which jobs are finished is
not up to the queue: a job may also finish before it is begun, upon which the queue skips it.
`InOrder` is the invariant of a queue that begins a job only when it may.
-/

namespace LCCFileService

/-- The jobs added to a queue, and those it has begun. -/
structure JobQueue (ι : Type) where
  added : List ι := []
  begun : List ι := []

namespace JobQueue

variable {ι : Type} {finished finished' : ι → Bool} {width : Nat}

/-- Add jobs at the end of the queue. -/
def add (jobs : List ι) (q : JobQueue ι) : JobQueue ι := { q with added := q.added ++ jobs }

/-- Begin a job. -/
def start (j : ι) (q : JobQueue ι) : JobQueue ι := { q with begun := q.begun ++ [j] }

/-- The jobs begun and not finished. -/
def running (finished : ι → Bool) (q : JobQueue ι) : List ι := q.begun.filter (fun j => !finished j)

/-- The queue may begin a job that waits, if no job before it waits and there is room for it. -/
structure MayStart (finished : ι → Bool) (width : Nat) (q : JobQueue ι) (j : ι) : Prop where
  fresh : j ∉ q.begun
  unfinished : finished j = false
  turn : ∃ before after, q.added = before ++ j :: after ∧ ∀ i ∈ before, i ∈ q.begun ∨ finished i
  room : (q.running finished).length < width

/-- No job is added twice, there is room for the jobs that run, and jobs are begun in order: an
initial part of the queue was begun or skipped. -/
structure InOrder (finished : ι → Bool) (width : Nat) (q : JobQueue ι) : Prop where
  nodup : q.added.Nodup
  bounded : (q.running finished).length ≤ width
  served : ∃ before after, q.added = before ++ after ∧ q.begun.Sublist before ∧
    ∀ j ∈ before, j ∈ q.begun ∨ finished j

theorem mem_running {q : JobQueue ι} {j : ι} :
  j ∈ q.running finished ↔ j ∈ q.begun ∧ finished j = false
  := by
  simp [running]

/-- A job that may be begun was added. -/
theorem MayStart.mem_added {q : JobQueue ι} {j : ι} (h : q.MayStart finished width j) :
  j ∈ q.added
  := by
  obtain ⟨before, after, hadded, -⟩ := h.turn
  simp [hadded]

/-- A queue with room may begin the first job that waits. -/
theorem exists_mayStart {q : JobQueue ι} (hroom : (q.running finished).length < width) {j : ι}
    (hj : j ∈ q.added) (hfresh : j ∉ q.begun) (hunfinished : finished j = false) :
  ∃ i, q.MayStart finished width i
  := by
  classical
  obtain ⟨i, hfind⟩ : ∃ i, q.added.find? (fun i => i ∉ q.begun ∧ finished i = false) = some i := by
    rw [← Option.isSome_iff_exists, List.find?_isSome]
    exact ⟨j, hj, by simp [hfresh, hunfinished]⟩
  obtain ⟨hi, before, after, hadded, hbefore⟩ := List.find?_eq_some_iff_append.mp hfind
  have hi' : i ∉ q.begun ∧ finished i = false := by simpa using hi
  refine ⟨i, hi'.1, hi'.2, ⟨before, after, hadded, ?_⟩, hroom⟩
  intro i' hi'
  have hserved := hbefore i' hi'
  by_cases hstarted : i' ∈ q.begun
  · apply Or.inl hstarted
  · right
    simpa [hstarted] using hserved

/-- A queue with room for a job never hangs: all its jobs are finished, it may begin one, or one
that it has begun is not finished. -/
theorem finished_or_mayStart_or_running (hwidth : 0 < width) (q : JobQueue ι) :
  (∀ j ∈ q.added, finished j) ∨ (∃ j, q.MayStart finished width j) ∨
    ∃ j ∈ q.begun, finished j = false
  := by
  by_cases hrunning : ∃ j ∈ q.begun, finished j = false
  · apply Or.inr (Or.inr hrunning)
  · have hempty : q.running finished = [] := by
      rw [List.eq_nil_iff_forall_not_mem]
      intro j hj
      apply hrunning ⟨j, mem_running.mp hj⟩
    by_cases hall : ∀ j ∈ q.added, finished j
    · apply Or.inl hall
    · push Not at hall
      obtain ⟨j, hj, hunfinished⟩ := hall
      have hunfinished' : finished j = false := by simpa using hunfinished
      right; left
      apply exists_mayStart (by simpa [hempty] using hwidth) hj _ hunfinished'
      intro hstarted
      apply hrunning ⟨j, hstarted, hunfinished'⟩

namespace InOrder

variable {q : JobQueue ι}

theorem empty (finished : ι → Bool) (width : Nat) :
  InOrder finished width (({} : JobQueue ι))
  := ⟨List.nodup_nil, Nat.zero_le _, [], [], rfl, List.Sublist.refl _, fun _ hj => nomatch hj⟩

/-- Jobs are begun in the order they were added in. -/
theorem sublist (h : q.InOrder finished width) :
  q.begun.Sublist q.added
  := by
  obtain ⟨before, after, hadded, hbegun, -⟩ := h.served
  rw [hadded]
  apply hbegun.trans (List.sublist_append_left before after)

/-- New jobs may be added. -/
theorem add (h : q.InOrder finished width) {jobs : List ι} (hjobs : jobs.Nodup)
    (hnew : ∀ j ∈ jobs, j ∉ q.added) :
  (q.add jobs).InOrder finished width
  := by
  obtain ⟨before, after, hadded, hbegun, hserved⟩ := h.served
  constructor
  · apply h.nodup.append hjobs
    intro j hj hj'
    apply hnew j hj' hj
  · apply h.bounded
  · refine ⟨before, after ++ jobs, ?_, hbegun, hserved⟩
    rw [JobQueue.add, hadded, List.append_assoc]

/-- A job may be begun if the queue may begin it. -/
theorem start (h : q.InOrder finished width) {j : ι} (hj : q.MayStart finished width j) :
  (q.start j).InOrder finished width
  := by
  obtain ⟨before, after, hadded, hbegun, hserved⟩ := h.served
  obtain ⟨before', after', hadded', hturn⟩ := hj.turn
  constructor
  · apply h.nodup
  · have hrunning : (q.start j).running finished = q.running finished ++ [j] := by
      simp [running, JobQueue.start, List.filter_append, hj.unfinished]
    rw [hrunning, List.length_append]
    apply hj.room
  · -- The jobs begun so far come before `j`, which was neither begun nor skipped.
    have hsublist : before.Sublist before' := by
      have hsplit := hadded.symm.trans hadded'
      obtain ⟨rest, hbefore', -⟩ | ⟨rest, hbefore, hrest⟩ := List.append_eq_append_iff.mp hsplit
      · rw [hbefore']
        apply List.sublist_append_left
      · cases rest with
        | nil => rw [hbefore, List.append_nil]
        | cons i rest =>
            obtain rfl : j = i := (List.cons.inj hrest).1
            obtain hstarted | hfinished := hserved j (by simp [hbefore])
            · apply absurd hstarted hj.fresh
            · rw [hj.unfinished] at hfinished
              cases hfinished
    refine ⟨before' ++ [j], after', ?_, ?_, ?_⟩
    · rw [JobQueue.start, hadded', List.append_assoc]
      rfl
    · apply (hbegun.trans hsublist).append (List.Sublist.refl [j])
    · intro i hi
      rw [JobQueue.start, List.mem_append]
      obtain hi | hi := List.mem_append.mp hi
      · apply (hturn i hi).imp_left Or.inl
      · apply Or.inl (Or.inr hi)

/-- Jobs may finish. -/
theorem finish (h : q.InOrder finished width) (hle : ∀ j ∈ q.added, finished j → finished' j) :
  q.InOrder finished' width
  := by
  obtain ⟨before, after, hadded, hbegun, hserved⟩ := h.served
  constructor
  · apply h.nodup
  · apply Nat.le_trans _ h.bounded
    rw [running, running, ← List.countP_eq_length_filter, ← List.countP_eq_length_filter]
    apply List.countP_mono_left
    intro j hj hunfinished
    have hfinished := hle j (h.sublist.subset hj)
    cases hcase : finished j with
    | false => rfl
    | true => simp [hfinished hcase] at hunfinished
  · refine ⟨before, after, hadded, hbegun, ?_⟩
    intro j hj
    apply (hserved j hj).imp_right
    apply hle
    rw [hadded]
    apply List.mem_append_left _ hj

/-- In a queue that runs one job at a time, the running job is the only one. -/
theorem eq_of_running (h : q.InOrder finished 1) {i j : ι} (hi : i ∈ q.running finished)
    (hj : j ∈ q.running finished) :
  i = j
  := by
  obtain ⟨k, hk⟩ : ∃ k, q.running finished = [k] := by
    apply List.length_eq_one_iff.mp
    have hpos := List.length_pos_of_mem hi
    have hle := h.bounded
    omega
  rw [hk, List.mem_singleton] at hi hj
  rw [hi, hj]

end InOrder

/-- While a job runs in a queue that runs one at a time, the queue begins none. -/
theorem not_mayStart_of_running {q : JobQueue ι} {i j : ι} (hi : i ∈ q.running finished) :
  ¬ q.MayStart finished 1 j
  := by
  intro h
  have hpos := List.length_pos_of_mem hi
  have hroom := h.room
  omega

end JobQueue

end LCCFileService
