import LCCFileService.FileNet.InFlight

/-!
# Queues that hang

A queue that runs one operation at a time never hangs exactly if each of its operations that begins
has a task of known type, and a handler unless the task is not one to resume.  An operation that
begins without either blocks the queue until it is cancelled or paused.
-/

namespace LCCFileService

open LCFileNetService LCFileNetOperation

/-! ### Going on -/

/-- The queue does not hang: all its operations have finished, or it may begin one, or one that it
has begun waits for the handler. -/
def GoesOn (count : Nat → Nat) (ref : QueueRef) (p : State × Queues) : Prop :=
  (∀ o ∈ (p.2 ref).added, p.1.isFinished o) ∨
    (∃ o, (p.2 ref).MayStart p.1.isFinished (maxConcurrentOperationCount count ref) o) ∨
      ∃ o ∈ (p.2 ref).begun, p.1.isFinished o = false ∧ Outstanding o p.1.toCore

/-- An operation of the queue that begins runs. -/
def BeginsWell (ref : QueueRef) (p : State × Queues) (q : QueuedEvent) : Prop :=
  match q.event with
  | .opStart o => Begun p.1 o → o ∈ (p.2 ref).added → Runs o p.1.toCore
  | _ => True

namespace Queued

variable {count : Nat → Nat} {md5 : Bytes → String} {p : State × Queues} {ref : QueueRef}

/-- A queue that runs one operation at a time hangs exactly if that operation waits for nobody. -/
theorem goesOn_iff (h : Queued count p) (hone : maxConcurrentOperationCount count ref = 1) :
  GoesOn count ref p ↔ ∀ o ∈ (p.2 ref).added, Waits o p.1.toCore
  := by
  have hinOrder := h.inOrder ref
  rw [hone] at hinOrder
  constructor
  · intro hgoes o ho hstarted hfinished
    have hbegun : o ∈ (p.2 ref).begun := by
      apply (h.started ref o ho hstarted).resolve_right
      rw [hfinished]
      simp
    have hrunning : o ∈ (p.2 ref).running p.1.isFinished :=
      JobQueue.mem_running.mpr ⟨hbegun, hfinished⟩
    obtain hall | ⟨o', hmay⟩ | ⟨o', hbegun', hfinished', houtstanding⟩ := hgoes
    · have hfinished' : (p.1.ops.cell o).finished := hall o ho
      rw [hfinished] at hfinished'
      cases hfinished'
    · rw [hone] at hmay
      apply absurd hmay (JobQueue.not_mayStart_of_running hrunning)
    · obtain rfl := hinOrder.eq_of_running hrunning
        (JobQueue.mem_running.mpr ⟨hbegun', hfinished'⟩)
      apply houtstanding
  · intro hwaits
    have hpos : 0 < maxConcurrentOperationCount count ref := by omega
    obtain hall | hmay | ⟨o, hbegun, hfinished⟩ :=
      @JobQueue.finished_or_mayStart_or_running _ p.1.isFinished _ hpos (p.2 ref)
    · apply Or.inl hall
    · apply Or.inr (Or.inl hmay)
    · right; right
      have hadded := hinOrder.sublist.subset hbegun
      exact ⟨o, hbegun, hfinished, hwaits o hadded (h.begun ref o hbegun) hfinished⟩

/-- Queues keep the operations added to them as long as the process lives. -/
theorem added_subset {q : QueuedEvent} (he : q.event ≠ .restart) :
  (p.2 ref).added ⊆ ((runQueues md5 p q).2 ref).added
  := by
  rw [snd_runQueues]
  cases hq : q.event with
  | restart => apply absurd hq he
  | opStart o =>
      rw [enqueue, hq]
      dsimp only
      split
      · exact List.Subset.refl _
      · exact List.Subset.refl _
  | _ =>
      rw [enqueue_of_enlists (by rw [hq]; rfl)]
      apply List.subset_append_left

/-- An operation stays in its queue. -/
theorem mem_added_of_lt (h : Queued count p) {q : QueuedEvent} (hturn : InTurn count p q)
    (he : q.event ≠ .restart) {o : OpRef} (ho : o < p.1.ops.next)
    (hadded : o ∈ ((runQueues md5 p q).2 ref).added) :
  o ∈ (p.2 ref).added
  := by
  obtain ⟨ref', hold⟩ := h.complete o ho
  obtain rfl := (h.step hturn).unique ref ref' o hadded (added_subset he hold)
  apply hold

/-- After a step an operation of the queue still waits for the handler, unless it begins. -/
theorem waits_of_not_begins (h : Queued count p)
    (hwaits : ∀ o ∈ (p.2 ref).added, Waits o p.1.toCore) {q : QueuedEvent}
    (hturn : InTurn count p q) (he : q.event ≠ .restart) {o : OpRef}
    (hadded : o ∈ ((runQueues md5 p q).2 ref).added)
    (hbegins : q.event = .opStart o → ¬ Begun p.1 o) :
  Waits o (LCCFileService.step (quiet md5) p.1 q.event).toCore
  := by
  by_cases hlt : o < p.1.ops.next
  · have hold := h.mem_added_of_lt hturn he hlt hadded
    by_cases hinvolves : Involves p.1 q.event o
    · cases hq : q.event with
      | opStart o' =>
          rw [hq] at hinvolves
          obtain rfl := hinvolves.2
          intro hstarted hfinished
          have hnot := hbegins hq
          have hfinished' : (p.1.ops.cell o).finished = false := by
            by_contra hfinish
            have hfinish' : ((LCCFileService.step (quiet md5) p.1 q.event).ops.cell o).finished :=
              h.finished_step he ref o hold (eq_true_of_ne_false hfinish)
            rw [hq, hfinished] at hfinish'
            cases hfinish'
          have hstarted' : ¬ (o < p.1.ops.next ∧ (p.1.ops.cell o).started = false) :=
            fun hguard => hnot ⟨hguard.1, hguard.2, hfinished'⟩
          rw [LCCFileService.step, if_neg hstarted'] at hstarted ⊢
          apply hwaits o hold hstarted hfinished'
      | finish r error =>
          rw [hq] at hinvolves
          obtain ⟨hr, hmethod, rfl⟩ := hinvolves
          apply waits_finish hr hmethod
      | _ =>
          rw [hq] at hinvolves
          cases hinvolves
    · apply waits_of_not_involves h.watched h.cancelled he hlt hinvolves (hwaits o hold)
  · intro hstarted _
    have hlt' := (h.step hturn).lt ref o hadded
    have hwaiting := ((@Operates.step md5 _ _ h.watched _ he).added o hlt'
      (Nat.le_of_not_lt hlt)).1.1
    rw [hwaiting] at hstarted
    cases hstarted

/-- Of a queue whose operations all wait for the handler, they still do after a step exactly if the
operation that begins runs. -/
theorem waits_step_iff (h : Queued count p) (hwaits : ∀ o ∈ (p.2 ref).added, Waits o p.1.toCore)
    {q : QueuedEvent} (hturn : InTurn count p q) :
  (∀ o ∈ ((runQueues md5 p q).2 ref).added, Waits o (runQueues md5 p q).1.toCore) ↔
    BeginsWell ref p q
  := by
  have hothers := fun he o => @waits_of_not_begins count md5 p ref h hwaits q hturn he o
  rw [BeginsWell]
  cases he : q.event with
  | restart =>
      refine iff_of_true ?_ trivial
      intro o ho
      rw [snd_runQueues, enqueue, he] at ho
      cases ho
  | opStart o =>
      have hne : q.event ≠ .restart := by
        rw [he]
        rintro ⟨⟩
      dsimp only
      constructor
      · intro hall hbegun hold
        rw [← waits_opStart_iff h.watched hbegun h.cancelled]
        have hwaits' := hall o (added_subset hne hold)
        rw [fst_runQueues, he] at hwaits'
        apply hwaits'
      · intro hruns o' ho'
        by_cases hbegins : o' = o ∧ Begun p.1 o
        · obtain ⟨rfl, hbegun⟩ := hbegins
          have hold := h.mem_added_of_lt hturn hne hbegun.1 ho'
          rw [fst_runQueues, he]
          apply (waits_opStart_iff h.watched hbegun h.cancelled).mpr (hruns hbegun hold)
        · apply hothers hne o' ho'
          intro hq hbegun
          rw [he] at hq
          obtain rfl := Event.opStart.inj hq
          exact hbegins ⟨rfl, hbegun⟩
  | _ =>
      refine iff_of_true ?_ trivial
      intro o ho
      apply hothers (by rw [he]; rintro ⟨⟩) o ho
      intro hq
      rw [he] at hq
      cases hq

end Queued

/-- In a run under the policy of the queues, a queue that runs one operation at a time never hangs
exactly if each of its operations that begins has a task of known type, and a handler unless the
task is not one to resume. -/
theorem throughout_goesOn_iff (md5 : Bytes → String) (count : Nat → Nat) (db : TaskTable)
    (disk : Disk String Bytes) (es : List QueuedEvent) {ref : QueueRef}
    (hone : maxConcurrentOperationCount count ref = 1)
    (hturn : Run.Along (runQueues md5) (InTurn count) (Queues.initial db disk) es) :
  Run.Throughout (runQueues md5) (GoesOn count ref) (Queues.initial db disk) es ↔
    Run.Along (runQueues md5) (BeginsWell ref) (Queues.initial db disk) es
  := by
  have hqueued : Run.Throughout (runQueues md5) (Queued count) (Queues.initial db disk) es :=
    Run.throughout_of_step (fun p q h hq => h.step hq) (Queued.initial db disk) hturn
  have hgoes := Run.throughout_congr (fun p (h : Queued count p) => h.goesOn_iff hone) hqueued
  have hwaits := Run.throughout_and_along_iff (A := Queued count)
    (I := fun p => ∀ o ∈ (p.2 ref).added, Waits o p.1.toCore) (R := InTurn count)
    (P := BeginsWell ref) (Q := fun _ _ => True)
    (fun p q h hturn => h.step hturn)
    (fun p q h hwaits hturn => (and_iff_left trivial).trans (h.waits_step_iff hwaits hturn))
    (Queued.initial db disk) (by rintro o ⟨⟩) hturn
  rw [hgoes, ← hwaits, and_iff_left (Run.along_of_forall (fun _ _ => trivial) _ _)]

/-- The download queue does not hang while its handler is there. -/
theorem goesOn_oneAfterAnother :
  Run.Throughout (runQueues (fun _ => "")) (GoesOn (fun _ => 0) .downloadQueue)
    (Queues.initial ∅ (fun _ => none)) oneAfterAnother
  := by
  apply (throughout_goesOn_iff (fun _ => "") (fun _ => 0) ∅ (fun _ => none) oneAfterAnother rfl
    inTurn_oneAfterAnother).mpr
  refine ⟨trivial, trivial, trivial, trivial, trivial, ?_, trivial, trivial, ?_, trivial⟩
  · intro _ _
    decide +kernel
  · intro _ _
    decide +kernel

/-! ### Operations that block their queue -/

/-- The operation has been started and not finished, and has not called a transfer method. -/
structure Idle (o : OpRef) (c : Core) : Prop where
  started : (c.ops.cell o).started
  finished : (c.ops.cell o).finished = false
  uncalled : ∀ r < c.calls.next, (c.calls.cell r).op = o → (c.calls.cell r).method.transfers = false

namespace Idle

variable {md5 : Bytes → String} {s : State} {o : OpRef}

/-- An operation that begins and does not run is idle. -/
theorem opStart (h : Watched s.toCore []) (hcancelled : CancelledFinished s.toCore)
    (hbegun : Begun s o) (hruns : ¬ Runs o s.toCore) :
  Idle o (LCCFileService.step (quiet md5) s (.opStart o)).toCore
  := by
  obtain ⟨hcell, hcalls⟩ := @opStart_of_not_runs md5 s o hbegun hcancelled hruns
  constructor
  · rw [hcell]
  · rw [hcell]
    apply hbegun.2.2
  · intro r hr hop
    rw [hcalls] at hr hop ⊢
    by_contra hmethod
    have hstarted := (h.called r hr (by simpa using hmethod)).2
    rw [hop, hbegun.2.1] at hstarted
    cases hstarted

/-- An idle operation stays idle until it is cancelled. -/
theorem step (h : Idle o s.toCore) (hwatched : Watched s.toCore []) (ho : o < s.ops.next)
    {e : Event} (he : e ≠ .restart)
    (hcancelled : ((LCCFileService.step (quiet md5) s e).ops.cell o).cancelled = false) :
  Idle o (LCCFileService.step (quiet md5) s e).toCore
  := by
  by_cases hinvolves : Involves s e o
  · cases e with
    | opStart o' =>
        obtain rfl := hinvolves.2
        have hguard : ¬ (o < s.ops.next ∧ (s.ops.cell o).started = false) := by
          rintro ⟨-, hstarted⟩
          rw [h.started] at hstarted
          cases hstarted
        rw [LCCFileService.step, if_neg hguard]
        apply h
    | finish r error =>
        obtain ⟨hr, hmethod, rfl⟩ := hinvolves
        rw [h.uncalled r hr rfl] at hmethod
        cases hmethod
    | _ => cases hinvolves
  · have hoperates := @Operates.step md5 _ _ hwatched _ he
    have hsame := hoperates.same o ho hinvolves (hwatched.consistent o ho) hcancelled
    constructor
    · rw [hsame]
      apply h.started
    · rw [hsame]
      apply h.finished
    · intro r hr hop
      by_cases hlt : r < s.calls.next
      · rw [hoperates.method r hlt]
        rw [hoperates.op r hlt] at hop
        apply h.uncalled r hlt hop
      · by_contra hmethod
        obtain ⟨hP, -⟩ := hoperates.begun r hr (Nat.le_of_not_lt hlt) (by simpa using hmethod)
        rw [hop] at hP
        apply hinvolves hP

end Idle

/-- The operation of the queue is idle, and those that the queue has begun are still the same,
unless it was cancelled. -/
structure Blocks (count : Nat → Nat) (ref : QueueRef) (o : OpRef) (begun : List OpRef)
    (p : State × Queues) : Prop where
  queued : Queued count p
  added : o ∈ (p.2 ref).added
  blocked : (p.1.ops.cell o).cancelled ∨ Idle o p.1.toCore ∧ (p.2 ref).begun = begun

/-- A queue begins only the operation that starts, in its turn. -/
theorem Queued.begun_step {count : Nat → Nat} {md5 : Bytes → String} {ref : QueueRef}
    {p : State × Queues} (h : Queued count p) {q : QueuedEvent} (hturn : InTurn count p q)
    (he : q.event ≠ .restart) :
  ((runQueues md5 p q).2 ref).begun = (p.2 ref).begun ∨
    ∃ o, (p.2 ref).MayStart p.1.isFinished (maxConcurrentOperationCount count ref) o ∧
      ((runQueues md5 p q).2 ref).begun = (p.2 ref).begun ++ [o]
  := by
  rw [snd_runQueues]
  cases hq : q.event with
  | restart => apply absurd hq he
  | opStart o =>
      rw [InTurn, hq] at hturn
      rw [enqueue, hq]
      dsimp only
      split
      · next hguard =>
          obtain ⟨ref', hmay⟩ := hturn hguard.1
          obtain rfl := h.unique ref ref' o hguard.2 hmay.mem_added
          exact Or.inr ⟨o, hmay, rfl⟩
      · apply Or.inl rfl
  | _ =>
      rw [enqueue_of_enlists (by rw [hq]; rfl)]
      apply Or.inl rfl

/-- An idle operation keeps its queue from beginning another until it is cancelled. -/
theorem Blocks.step {count : Nat → Nat} {md5 : Bytes → String} {ref : QueueRef} {o : OpRef}
    {begun : List OpRef} {p : State × Queues} (h : Blocks count ref o begun p)
    (hone : maxConcurrentOperationCount count ref = 1) {q : QueuedEvent}
    (hturn : InTurn count p q) (he : q.event ≠ .restart) :
  Blocks count ref o begun (runQueues md5 p q)
  := by
  have ho := h.queued.lt ref o h.added
  refine ⟨h.queued.step hturn, Queued.added_subset he h.added, ?_⟩
  obtain hcancelled | ⟨hidle, hbegun⟩ := h.blocked
  · left
    apply (Advance.step p.1 he).cancelled o ho hcancelled
  · cases hcancelled : ((runQueues md5 p q).1.ops.cell o).cancelled with
    | true => apply Or.inl rfl
    | false =>
        right
        refine ⟨hidle.step h.queued.watched ho he hcancelled, ?_⟩
        have hrunning : o ∈ (p.2 ref).running p.1.isFinished := by
          apply JobQueue.mem_running.mpr
          refine ⟨?_, hidle.finished⟩
          apply (h.queued.started ref o h.added hidle.started).resolve_right
          rw [hidle.finished]
          simp
        obtain heq | ⟨o', hmay, -⟩ := @Queued.begun_step count md5 ref p h.queued q hturn he
        · rw [heq, hbegun]
        · rw [hone] at hmay
          apply absurd hmay (JobQueue.not_mayStart_of_running hrunning)

/-- In a run under the policy of the queues, an operation that begins though it does not run blocks
a queue that runs one operation at a time: until the operation is cancelled or the process ends, the
queue begins no other. -/
theorem throughout_blocked {md5 : Bytes → String} {count : Nat → Nat} {db : TaskTable}
    {disk : Disk String Bytes} {es es' : List QueuedEvent} {o : OpRef} {queue : Option Nat}
    {ref : QueueRef} (hone : maxConcurrentOperationCount count ref = 1)
    (hturn : Run.Along (runQueues md5) (InTurn count) (Queues.initial db disk)
      (es ++ ⟨.opStart o, queue⟩ :: es'))
    (hbegun : Begun (Run.final (runQueues md5) (Queues.initial db disk) es).1 o)
    (hadded : o ∈ ((Run.final (runQueues md5) (Queues.initial db disk) es).2 ref).added)
    (hruns : ¬ Runs o (Run.final (runQueues md5) (Queues.initial db disk) es).1.toCore)
    (hrestart : ∀ q ∈ es', q.event ≠ .restart) :
  Run.Throughout (runQueues md5)
    (fun p => (p.1.ops.cell o).cancelled ∨ (p.2 ref).begun
      = ((Run.final (runQueues md5) (Queues.initial db disk) es).2 ref).begun ++ [o])
    (runQueues md5 (Run.final (runQueues md5) (Queues.initial db disk) es) ⟨.opStart o, queue⟩) es'
  := by
  obtain ⟨hbefore, hstart, hafter⟩ := (Run.along_append _ _ _).mp hturn
  have hqueued : Queued count (Run.final (runQueues md5) (Queues.initial db disk) es) :=
    (Run.throughout_of_step (fun p q h hq => h.step hq) (Queued.initial db disk) hbefore).final
  generalize Run.final (runQueues md5) (Queues.initial db disk) es = p at *
  have hblocks : Blocks count ref o ((p.2 ref).begun ++ [o])
      (runQueues md5 p ⟨.opStart o, queue⟩) := by
    refine ⟨hqueued.step hstart, Queued.added_subset (by rintro ⟨⟩) hadded, Or.inr ⟨?_, ?_⟩⟩
    · apply Idle.opStart hqueued.watched hqueued.cancelled hbegun hruns
    · rw [snd_runQueues, enqueue]
      dsimp only
      rw [if_pos ⟨hbegun, hadded⟩]
      rfl
  have hall := Run.throughout_of_step (I := Blocks count ref o ((p.2 ref).begun ++ [o]))
    (P := fun p q => InTurn count p q ∧ q.event ≠ .restart)
    (fun p q h hq => h.step hone hq.1 hq.2) hblocks
    (Run.along_and.mpr ⟨hafter, Run.along_of_mem (fun q hq _ => hrestart q hq) _⟩)
  apply hall.imp
  intro p h
  apply h.blocked.imp_right And.right

/-- A download is paused and resumed, while another waits. -/
def resumedFirst : List QueuedEvent :=
  [⟨.create { taskId := "k", type := .download }, none⟩,
    ⟨.create { taskId := "l", type := .download }, none⟩, ⟨.addHander 0, none⟩,
    ⟨.startTask 0, none⟩, ⟨.opStart 0, none⟩, ⟨.returns 0, none⟩, ⟨.pauseTask "k", none⟩,
    ⟨.returns 0, none⟩, ⟨.resumTask "k", none⟩, ⟨.deallocHander 0, none⟩]

/-- The first download never runs again, and the second never begins. -/
theorem blocked_resumedFirst :
  Run.Throughout (runQueues (fun _ => ""))
    (fun p => (p.1.ops.cell 1).cancelled ∨ (p.2 .downloadQueue).begun = [0, 1])
    (runQueues (fun _ => "") (Run.final (runQueues (fun _ => ""))
      (Queues.initial ∅ (fun _ => none)) resumedFirst) ⟨.opStart 1, none⟩)
    [⟨.addHander 1, none⟩, ⟨.startTask 1, none⟩]
  := by
  have hturn : Run.Along (runQueues (fun _ => "")) (InTurn (fun _ => 0))
      (Queues.initial ∅ (fun _ => none))
      (resumedFirst ++ [⟨.opStart 1, none⟩, ⟨.addHander 1, none⟩, ⟨.startTask 1, none⟩]) := by
    refine ⟨trivial, trivial, trivial, trivial, ?_, trivial, trivial, trivial, trivial, trivial, ?_,
      trivial, trivial, trivial⟩
    · intro _
      refine ⟨.downloadQueue, by decide +kernel, by decide +kernel, ?_, by decide +kernel⟩
      exact ⟨[], [], by decide +kernel, by simp⟩
    · intro _
      refine ⟨.downloadQueue, by decide +kernel, by decide +kernel, ?_, by decide +kernel⟩
      exact ⟨[0], [], by decide +kernel, by decide +kernel⟩
  have hbegun : ((Run.final (runQueues (fun _ => "")) (Queues.initial ∅ (fun _ => none))
      resumedFirst).2 .downloadQueue).begun ++ [1] = [0, 1] := by
    decide +kernel
  rw [← hbegun]
  apply throughout_blocked rfl hturn
  · decide +kernel
  · decide +kernel
  · decide +kernel
  · decide

end LCCFileService
