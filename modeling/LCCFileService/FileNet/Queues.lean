import LCCFileService.Library.JobQueue
import LCCFileService.FileNet.Stalls

/-!
# The queues

`p_addTask:queue:` adds an operation to the queue it is given, or else to the upload or the
download queue of the service, each of which runs one operation at a time.  `runQueues` is the
system with its queues: an event carries the `queue:` argument of the method it calls, and a queue
begins an operation only when `InTurn` says that it may.  `Queued` is the invariant of the queues.
-/

namespace LCCFileService

open LCFileNetService LCFileNetOperation

/-! ### The queues of the service -/

/-- A queue of the service, or one given by the application. -/
inductive QueueRef where
  | uploadQueue
  | downloadQueue
  | given (queue : Nat)
  deriving DecidableEq

/-- The operations added to and begun by the queues. -/
abbrev Queues : Type := QueueRef → JobQueue OpRef

/-- An event, with the `queue:` argument of the method it calls. -/
structure QueuedEvent where
  event : Event
  queue : Option Nat := none
  deriving DecidableEq

/-- The `maxConcurrentOperationCount` of a queue, given that of the application's. -/
def maxConcurrentOperationCount (count : Nat → Nat) : QueueRef → Nat
  | .uploadQueue | .downloadQueue => 1
  | .given queue => count queue

/-- The queue `p_addTask:queue:` adds an operation for a task of the type to. -/
def queueFor (queue : Option Nat) (type : LCFileNetTaskType) : QueueRef :=
  match queue, type with
  | some queue, _ => .given queue
  | none, .upload => .uploadQueue
  | none, _ => .downloadQueue

/-- The operation has finished. -/
def Core.isFinished (c : Core) (o : OpRef) : Bool := (c.ops.cell o).finished

/-- The operations made between two states. -/
def newOperations (s s' : State) : List OpRef := List.range' s.ops.next (s'.ops.next - s.ops.next)

/-- The queue that calls `start` of an operation begins it, unless it has finished already. -/
def Begun (s : State) (o : OpRef) : Prop :=
  o < s.ops.next ∧ (s.ops.cell o).started = false ∧ (s.ops.cell o).finished = false

instance (s : State) (o : OpRef) : Decidable (Begun s o) := inferInstanceAs (Decidable (_ ∧ _))

/-- What an event does to the queues: the operation that starts is begun, and new operations are
added. -/
def enqueue (md5 : Bytes → String) (s : State) (q : QueuedEvent) (qs : Queues) : Queues :=
  match q.event with
  | .restart => fun _ => {}
  | .opStart o => fun ref => if Begun s o ∧ o ∈ (qs ref).added then (qs ref).start o else qs ref
  | e =>
      let s' := step (quiet md5) s e
      fun ref => (qs ref).add ((newOperations s s').filter
        (fun o => queueFor q.queue (s'.tasks.cell (s'.taskOf o)).type = ref))

/-- The system with its queues. -/
def runQueues (md5 : Bytes → String) : State × Queues → QueuedEvent → State × Queues :=
  Run.recording (fun s q => step (quiet md5) s q.event) (enqueue md5)

theorem fst_runQueues (md5 : Bytes → String) (p : State × Queues) (q : QueuedEvent) :
  (runQueues md5 p q).1 = step (quiet md5) p.1 q.event
  := rfl

theorem snd_runQueues (md5 : Bytes → String) (p : State × Queues) (q : QueuedEvent) :
  (runQueues md5 p q).2 = enqueue md5 p.1 q p.2
  := rfl

/-- The system with its queues when the process starts. -/
def Queues.initial (db : TaskTable) (disk : Disk String Bytes) : State × Queues :=
  (State.initial db disk, fun _ => {})

/-- A queue begins an operation only when it may. -/
def InTurn (count : Nat → Nat) (p : State × Queues) (q : QueuedEvent) : Prop :=
  match q.event with
  | .opStart o => Begun p.1 o →
      ∃ ref, (p.2 ref).MayStart p.1.isFinished (maxConcurrentOperationCount count ref) o
  | _ => True

/-! ### What becomes of operations and calls -/

/-- A finish block that ends its operation finishes it.  After a failed resumption it calls a
transfer method, or finishes the operation. -/
theorem finishBlock_ops_calls {md5 : Bytes → String} (method : HanderMethod)
    (error : Option NSError) (o : OpRef) (s : State) :
  method.transfers ∧ (finishBlock (quiet md5) method o error s).ops
        = (pFinishOperatioin o s.toCore).ops ∧
      (finishBlock (quiet md5) method o error s).calls = s.calls ∨
    method.transfers ∧ (∃ method' : HanderMethod, method'.transfers ∧
      (finishBlock (quiet md5) method o error s).ops = s.ops ∧
      (finishBlock (quiet md5) method o error s).calls = (s.toCore.call o method').calls) ∨
    method.transfers = false ∧ finishBlock (quiet md5) method o error s = s
  := by
  obtain hends | ⟨hresumes, herror⟩ | hmethod := finishBlock_cases method error
  · left
    rw [finishBlock_ends hends]
    exact ⟨hends.1, ended_ops_calls o error s⟩
  · have htransfers := transfers_of_resumes hresumes
    obtain ⟨-, method', hmethod', heq⟩ | ⟨-, heq⟩ := finishBlock_resumes hresumes herror (quiet md5)
      o s
    · right; left
      rw [heq]
      exact ⟨htransfers, method', hmethod', rfl, rfl⟩
    · left
      rw [heq]
      exact ⟨htransfers, rfl, rfl⟩
  · right; right
    cases method with
    | cancel => exact ⟨rfl, rfl⟩
    | pause => exact ⟨rfl, rfl⟩
    | _ => cases hmethod

/-- A cancelled operation has finished. -/
def CancelledFinished (c : Core) : Prop :=
  ∀ o < c.ops.next, (c.ops.cell o).cancelled → (c.ops.cell o).finished

namespace CancelledFinished

variable {md5 : Bytes → String} {c c' : Core}

theorem of_eq (h : CancelledFinished c) (hops : c'.ops = c.ops) :
  CancelledFinished c'
  := by
  rw [CancelledFinished, hops]
  apply h

/-- Properties of an operation may be set so that it is finished if it is cancelled. -/
theorem setOp (h : CancelledFinished c) {o : OpRef}
    {f : LCFileNetOperation → LCFileNetOperation}
    (hf : ((c.ops.cell o).cancelled → (c.ops.cell o).finished) →
      (f (c.ops.cell o)).cancelled → (f (c.ops.cell o)).finished) :
  CancelledFinished (c.setOp o f)
  := by
  intro o' ho' hcancelled
  rw [Core.setOp, Heap.cell_modify] at hcancelled ⊢
  split at hcancelled
  · next heq =>
      rw [if_pos heq]
      rw [heq] at ho'
      apply hf (h o ho') hcancelled
  · next hne =>
      rw [if_neg hne]
      apply h o' ho' hcancelled

theorem pFinishOperatioin (h : CancelledFinished c) (o : OpRef) :
  CancelledFinished (LCFileNetOperation.pFinishOperatioin o c)
  := by
  apply h.setOp
  exact fun _ _ => rfl

/-- `[super cancel]` is followed by the finish of the operation. -/
theorem superCancel (h : CancelledFinished c) (o : OpRef) :
  CancelledFinished (LCFileNetOperation.superCancel o c)
  := by
  have hset : CancelledFinished (c.setOp o (fun op => { op with
      cancelled := op.cancelled || !op.finished, executing := false, finished := true })) := by
    apply h.setOp
    exact fun _ _ => rfl
  rw [superCancel_eq]
  exact hset.of_eq rfl

theorem addOperation (h : CancelledFinished c) (task : TaskRef) (k : String) :
  CancelledFinished (LCFileNetService.addOperation task k c)
  := by
  intro o ho hcancelled
  rw [LCFileNetService.addOperation, Heap.cell_alloc] at hcancelled ⊢
  split at hcancelled
  · cases hcancelled
  · next hne =>
      rw [if_neg hne]
      apply h o (Nat.lt_of_le_of_ne (Nat.lt_succ_iff.mp ho) hne) hcancelled

theorem changes {F : String → Prop} (h : CancelledFinished c) (hchanges : Changes F c c') :
  CancelledFinished c'
  := by
  induction hchanges with
  | refl => apply h
  | tail _ hchange ih =>
      cases hchange with
      | superCancel o => apply ih.superCancel o
      | addOperation r k => apply ih.addOperation r k
      | _ => exact ih.of_eq rfl

/-- `main` cancels nothing. -/
theorem mainTransfer (h : CancelledFinished c) (o : OpRef) :
  CancelledFinished (LCFileNetOperation.mainTransfer o c)
  := by
  obtain ⟨-, method, -, heq⟩ | ⟨-, heq | heq⟩ := mainTransfer_cases o c
  · rw [heq]
    apply h.of_eq rfl
  · rw [heq]
    apply h
  · rw [heq]
    apply h.pFinishOperatioin

theorem opStart {s : State} (h : CancelledFinished s.toCore) (o : OpRef) :
  CancelledFinished (LCCFileService.step (quiet md5) s (.opStart o)).toCore
  := by
  by_cases hguard : o < s.ops.next ∧ (s.ops.cell o).started = false
  · rw [step_opStart hguard]
    split
    · apply h.setOp
      exact fun _ _ => rfl
    · obtain ⟨hops, -⟩ := @main_ops_calls md5 o (s.mapCore (running o))
      have hrunning : CancelledFinished (running o s.toCore) := by
        apply h.setOp
        exact id
      apply (hrunning.mainTransfer o).of_eq hops
  · rw [LCCFileService.step, if_neg hguard]
    apply h

theorem finish {s : State} (h : CancelledFinished s.toCore) (r : CallRef)
    (error : Option NSError) :
  CancelledFinished (LCCFileService.step (quiet md5) s (.finish r error)).toCore
  := by
  rw [LCCFileService.step]
  split
  · have hanswer : CancelledFinished (s.toCore.answer r) := h.of_eq rfl
    obtain ⟨-, hops, -⟩ | ⟨-, method, -, hops, -⟩ | ⟨-, heq⟩ := @finishBlock_ops_calls md5
      (s.calls.cell r).method error (s.calls.cell r).op (s.mapCore (·.answer r))
    · apply (hanswer.pFinishOperatioin _).of_eq hops
    · apply hanswer.of_eq hops
    · rw [heq]
      apply hanswer
  · apply h

/-- Every step leaves cancelled operations finished. -/
theorem step {s : State} (h : CancelledFinished s.toCore) (e : Event) :
  CancelledFinished (LCCFileService.step (quiet md5) s e).toCore
  := by
  cases e with
  | set r t =>
      rw [LCCFileService.step]
      split
      · exact h.of_eq rfl
      · apply h
  | updatetask key filePath => exact h.of_eq rfl
  | opStart o => apply h.opStart
  | progress r =>
      rw [LCCFileService.step]
      split
      · rw [toCore_progressBlock]
        split
        · have hsizes : CancelledFinished (s.toCore.recordSizes (s.taskOf (s.calls.cell r).op)) :=
            h.of_eq rfl
          apply hsizes.pFinishOperatioin
        · exact h.of_eq rfl
      · apply h
  | finish r error => apply h.finish
  | restart =>
      rintro o ⟨⟩
  | _ => apply h.changes (Changes.step s rfl)

end CancelledFinished

/-! ### The invariant of the queues -/

/-- Every operation is in one queue, which begins its operations in order. -/
structure Queued (count : Nat → Nat) (p : State × Queues) : Prop where
  watched : Watched p.1.toCore []
  cancelled : CancelledFinished p.1.toCore
  inOrder : ∀ ref,
    (p.2 ref).InOrder p.1.isFinished (maxConcurrentOperationCount count ref)
  lt : ∀ ref, ∀ o ∈ (p.2 ref).added, o < p.1.ops.next
  unique : ∀ ref ref' o, o ∈ (p.2 ref).added → o ∈ (p.2 ref').added → ref = ref'
  complete : ∀ o < p.1.ops.next, ∃ ref, o ∈ (p.2 ref).added
  begun : ∀ ref, ∀ o ∈ (p.2 ref).begun, (p.1.ops.cell o).started
  started : ∀ ref, ∀ o ∈ (p.2 ref).added, (p.1.ops.cell o).started →
    o ∈ (p.2 ref).begun ∨ (p.1.ops.cell o).finished

/-- The event starts no operation, and the process goes on. -/
def Event.enlists : Event → Bool
  | .opStart _ | .restart => false
  | _ => true

/-- Other events than the start of an operation add the new operations to their queues. -/
theorem enqueue_of_enlists {md5 : Bytes → String} {s : State} {q : QueuedEvent} {qs : Queues}
    (hq : q.event.enlists) (ref : QueueRef) :
  enqueue md5 s q qs ref = (qs ref).add ((newOperations s (step (quiet md5) s q.event)).filter
    (fun o => queueFor q.queue ((step (quiet md5) s q.event).tasks.cell
      ((step (quiet md5) s q.event).taskOf o)).type = ref))
  := by
  rw [enqueue]
  cases he : q.event with
  | opStart o =>
      rw [he] at hq
      cases hq
  | restart =>
      rw [he] at hq
      cases hq
  | _ => rfl

/-- Operations that are not involved in an event start with none. -/
theorem started_of_not_involves {md5 : Bytes → String} {s : State} {e : Event}
    (hwatched : Watched s.toCore []) (he : e ≠ .restart) {o : OpRef} (ho : o < s.ops.next)
    (hstart : ∀ o', e = .opStart o' → o' ≠ o)
    (hstarted : ((step (quiet md5) s e).ops.cell o).started) :
  (s.ops.cell o).started
  := by
  have hoperates := @Operates.step md5 _ _ hwatched _ he
  by_contra hnot
  have hinvolves : ¬ Involves s e o := by
    intro hinvolves
    cases e with
    | opStart o' => exact hstart o' rfl hinvolves.2.symm
    | finish r error =>
        obtain ⟨hr, hmethod, rfl⟩ := hinvolves
        apply hnot (hwatched.called r hr hmethod).2
    | _ => cases hinvolves
  have hwaiting : (s.ops.cell o).Waiting := by
    refine ⟨by simpa using hnot, ?_⟩
    by_contra hexecuting
    apply hnot ((hwatched.consistent o ho).executing (by simpa using hexecuting)).1
  rw [(hoperates.waiting o ho hinvolves hwaiting).1] at hstarted
  cases hstarted

/-- An operation that has started stays so. -/
theorem started_opStart {md5 : Bytes → String} {s : State} {o : OpRef} (hbegun : Begun s o) :
  ((step (quiet md5) s (.opStart o)).ops.cell o).started
  := by
  obtain ⟨ho, hstarted, -⟩ := hbegun
  rw [step_opStart ⟨ho, hstarted⟩]
  split
  · rw [Core.setOp, Heap.cell_modify_self]
  · have hrunning : ((running o s.toCore).ops.cell o).started := by
      rw [running, Core.setOp, Heap.cell_modify_self]
    rw [(main_ops_calls o (s.mapCore (running o))).1]
    obtain ⟨-, method, -, heq⟩ | ⟨-, heq | heq⟩ := mainTransfer_cases o (running o s.toCore)
    · rw [State.toCore_mapCore, heq]
      apply hrunning
    · rw [State.toCore_mapCore, heq]
      apply hrunning
    · rw [State.toCore_mapCore, heq, LCFileNetOperation.pFinishOperatioin, Core.setOp,
        Heap.cell_modify_self]
      apply hrunning

namespace Queued

variable {count : Nat → Nat} {md5 : Bytes → String} {p : State × Queues}

theorem initial (db : TaskTable) (disk : Disk String Bytes) :
  Queued count (Queues.initial db disk)
  := by
  constructor
  · apply Watched.initial
  · rintro o ⟨⟩
  · intro ref
    apply JobQueue.InOrder.empty
  · rintro ref o ⟨⟩
  · rintro ref ref' o ⟨⟩
  · rintro o ⟨⟩
  · rintro ref o ⟨⟩
  · rintro ref o ⟨⟩

/-- As long as the process lives, operations in the queues stay finished. -/
theorem finished_step (h : Queued count p) {e : Event} (he : e ≠ .restart) (ref : QueueRef)
    (o : OpRef) (ho : o ∈ (p.2 ref).added) (hfinished : p.1.isFinished o) :
  (step (quiet md5) p.1 e).isFinished o
  := (Advance.step p.1 he).finished o (h.lt ref o ho) hfinished

theorem watched_step (h : Queued count p) (e : Event) :
  Watched (step (quiet md5) p.1 e).toCore []
  := (h.watched.step e).unreported

/-- New operations are added to their queues. -/
theorem enlist (h : Queued count p) {q : QueuedEvent} (hq : q.event.enlists) :
  Queued count (runQueues md5 p q)
  := by
  have he : q.event ≠ .restart := by
    rintro he
    rw [he] at hq
    cases hq
  have hstart : ∀ o, q.event ≠ .opStart o := by
    rintro o he
    rw [he] at hq
    cases hq
  have hadvance := @Advance.step md5 p.1 _ he
  have hqueue : ∀ ref, (runQueues md5 p q).2 ref = (p.2 ref).add _ := enqueue_of_enlists hq
  have hnew : ∀ o, o ∈ newOperations p.1 (step (quiet md5) p.1 q.event) ↔
      p.1.ops.next ≤ o ∧ o < (step (quiet md5) p.1 q.event).ops.next := by
    intro o
    rw [newOperations, List.mem_range'_1, Nat.add_sub_cancel' hadvance.ops_le]
  have hadded : ∀ ref o, o ∈ ((runQueues md5 p q).2 ref).added ↔ o ∈ (p.2 ref).added ∨
      (p.1.ops.next ≤ o ∧ o < (step (quiet md5) p.1 q.event).ops.next) ∧
        queueFor q.queue ((step (quiet md5) p.1 q.event).tasks.cell
          ((step (quiet md5) p.1 q.event).taskOf o)).type = ref := by
    intro ref o
    rw [hqueue, JobQueue.add, List.mem_append, List.mem_filter, hnew, decide_eq_true_iff]
  constructor
  · apply h.watched_step
  · apply h.cancelled.step
  · intro ref
    rw [hqueue]
    apply ((h.inOrder ref).finish (h.finished_step he ref)).add
    · apply List.Nodup.filter
      exact List.nodup_range'
    · intro o ho hold
      apply Nat.not_lt_of_le ((hnew o).mp (List.mem_of_mem_filter ho)).1 (h.lt ref o hold)
  · intro ref o ho
    obtain hold | ⟨hlt, -⟩ := (hadded ref o).mp ho
    · apply Nat.lt_of_lt_of_le (h.lt ref o hold) hadvance.ops_le
    · apply hlt.2
  · intro ref ref' o ho ho'
    obtain hold | ⟨hlt, hfor⟩ := (hadded ref o).mp ho
    · obtain hold' | ⟨hlt', -⟩ := (hadded ref' o).mp ho'
      · apply h.unique ref ref' o hold hold'
      · apply absurd (h.lt ref o hold) (Nat.not_lt_of_le hlt'.1)
    · obtain hold' | ⟨-, hfor'⟩ := (hadded ref' o).mp ho'
      · apply absurd (h.lt ref' o hold') (Nat.not_lt_of_le hlt.1)
      · apply hfor.symm.trans hfor'
  · intro o ho
    by_cases hlt : o < p.1.ops.next
    · obtain ⟨ref, hold⟩ := h.complete o hlt
      exact ⟨ref, (hadded ref o).mpr (Or.inl hold)⟩
    · exact ⟨_, (hadded _ o).mpr (Or.inr ⟨⟨Nat.le_of_not_lt hlt, ho⟩, rfl⟩)⟩
  · intro ref o ho
    rw [hqueue] at ho
    have hold := (h.inOrder ref).sublist.subset ho
    apply (Operates.step h.watched he).started o (h.lt ref o hold) (h.begun ref o ho)
  · intro ref o ho hstarted
    obtain hold | ⟨⟨hle, hlt⟩, -⟩ := (hadded ref o).mp ho
    · have hstarted' := started_of_not_involves h.watched he (h.lt ref o hold)
        (fun o' heq => absurd heq (hstart o')) hstarted
      rw [hqueue]
      apply (h.started ref o hold hstarted').imp_right
      apply h.finished_step he ref o hold
    · have hwaiting := ((Operates.step h.watched he).added o hlt hle).1.1
      have hstarted' : ((step (quiet md5) p.1 q.event).ops.cell o).started := hstarted
      rw [hwaiting] at hstarted'
      cases hstarted'

/-- The queue of an operation that starts begins it. -/
theorem opStart (h : Queued count p) {q : QueuedEvent} {o : OpRef} (hq : q.event = .opStart o)
    (hturn : InTurn count p q) :
  Queued count (runQueues md5 p q)
  := by
  have he : q.event ≠ .restart := by
    rw [hq]
    rintro ⟨⟩
  have hstep : (runQueues md5 p q).1 = step (quiet md5) p.1 (.opStart o) := by
    rw [← hq]
    rfl
  have hops : (step (quiet md5) p.1 (.opStart o)).ops.next = p.1.ops.next :=
    (Steady.step (by rintro ⟨⟩)).ops_eq
  have hqueue : ∀ ref, (runQueues md5 p q).2 ref
      = if Begun p.1 o ∧ o ∈ (p.2 ref).added then (p.2 ref).start o else p.2 ref := by
    intro ref
    rw [runQueues, Run.recording, enqueue, hq]
  have hadded : ∀ ref, ((runQueues md5 p q).2 ref).added = (p.2 ref).added := by
    intro ref
    rw [hqueue]
    split
    · rfl
    · rfl
  have hbegun : ∀ ref o', o' ∈ ((runQueues md5 p q).2 ref).begun ↔
      o' ∈ (p.2 ref).begun ∨ (Begun p.1 o ∧ o ∈ (p.2 ref).added) ∧ o' = o := by
    intro ref o'
    rw [hqueue]
    split
    · next hbegun => simp [JobQueue.start, hbegun]
    · next hnot => simp [hnot]
  rw [InTurn, hq] at hturn
  constructor
  · rw [hstep]
    apply h.watched_step
  · rw [hstep]
    apply h.cancelled.step
  · intro ref
    rw [hstep]
    have hfinish := @finished_step count md5 p h _ he
    rw [hq] at hfinish
    rw [hqueue]
    split
    · next hguard =>
        obtain ⟨ref', hmay⟩ := hturn hguard.1
        obtain rfl := h.unique ref ref' o hguard.2 hmay.mem_added
        apply ((h.inOrder ref).start hmay).finish (hfinish ref)
    · apply (h.inOrder ref).finish (hfinish ref)
  · intro ref o' ho'
    rw [hadded] at ho'
    rw [hstep, hops]
    apply h.lt ref o' ho'
  · intro ref ref' o' ho' ho''
    rw [hadded] at ho' ho''
    apply h.unique ref ref' o' ho' ho''
  · intro o' ho'
    rw [hstep, hops] at ho'
    obtain ⟨ref, hold⟩ := h.complete o' ho'
    use ref
    rw [hadded]
    apply hold
  · intro ref o' ho'
    obtain ho' | ⟨⟨hbegun, -⟩, rfl⟩ := (hbegun ref o').mp ho'
    · have hold := (h.inOrder ref).sublist.subset ho'
      apply (Operates.step h.watched he).started o' (h.lt ref o' hold) (h.begun ref o' ho')
    · rw [hstep]
      apply started_opStart hbegun
  · intro ref o' ho' hstarted
    rw [hadded] at ho'
    rw [hbegun, hstep]
    rw [hstep] at hstarted
    have hfinish := @finished_step count md5 p h _ he ref o' ho'
    rw [hq] at hfinish
    by_cases heq : o' = o
    · subst heq
      by_cases hguard : Begun p.1 o'
      · apply Or.inl (Or.inr ⟨⟨hguard, ho'⟩, rfl⟩)
      · cases hfinished : p.1.isFinished o' with
        | true => apply Or.inr (hfinish hfinished)
        | false =>
            have hstarted' : (p.1.ops.cell o').started := by
              by_contra hnot
              apply hguard ⟨h.lt ref o' ho', by simpa using hnot, hfinished⟩
            apply (h.started ref o' ho' hstarted').imp Or.inl hfinish
    · have hstarted' := started_of_not_involves h.watched (by rintro ⟨⟩) (h.lt ref o' ho')
        (fun o'' heq' heq'' => heq (heq''.symm.trans (Event.opStart.inj heq').symm)) hstarted
      apply (h.started ref o' ho' hstarted').imp Or.inl hfinish

/-- Every step of the queues keeps their invariant. -/
theorem step (h : Queued count p) {q : QueuedEvent} (hturn : InTurn count p q) :
  Queued count (runQueues md5 p q)
  := by
  cases he : q.event with
  | opStart o => apply h.opStart he hturn
  | restart =>
      have hinitial : runQueues md5 p q = Queues.initial p.1.db p.1.disk := by
        rw [runQueues, Run.recording, enqueue, he]
        rfl
      rw [hinitial]
      apply initial
  | _ =>
      apply h.enlist
      rw [he]
      rfl

end Queued

/-! ### Operations that wait for the handler -/

/-- `main` of the operation calls the handler or finishes the operation: the type of its task is
known, and if the handler is gone the task is not one to resume. -/
def Runs (o : OpRef) (c : Core) : Prop :=
  (c.tasks.cell (c.taskOf o)).type ≠ .unknown ∧
    ((c.handerOf o).isSome ∨ resumes (c.tasks.cell (c.taskOf o)).status = false)

instance (o : OpRef) (c : Core) : Decidable (Runs o c) := inferInstanceAs (Decidable (_ ∧ _))

/-- The operation, once started, waits for the handler until it is finished. -/
def Waits (o : OpRef) (c : Core) : Prop :=
  (c.ops.cell o).started → (c.ops.cell o).finished = false → Outstanding o c

theorem mainTransfer_of_runs {o : OpRef} {c : Core} (h : Runs o c) :
  (∃ method : HanderMethod, method.transfers ∧ mainTransfer o c = c.call o method) ∨
    mainTransfer o c = pFinishOperatioin o c
  := by
  obtain ⟨htype, hhander⟩ := h
  obtain ⟨-, hcall⟩ | ⟨hnot, -⟩ := mainTransfer_cases o c
  · apply Or.inl hcall
  · have hnone : ¬ (c.handerOf o).isSome := fun hsome => hnot ⟨hsome, htype⟩
    have hstatus := hhander.resolve_left hnone
    right
    rw [mainTransfer]
    cases htype' : (c.tasks.cell (c.taskOf o)).type with
    | unknown => apply absurd htype' htype
    | upload => simp only [hstatus, pStartUpload, hnone, Bool.false_eq_true, if_false]
    | download => simp only [hstatus, pStartDownload, hnone, Bool.false_eq_true, if_false]

theorem mainTransfer_of_not_runs {o : OpRef} {c : Core} (h : ¬ Runs o c) :
  mainTransfer o c = c
  := by
  rw [mainTransfer]
  cases htype : (c.tasks.cell (c.taskOf o)).type with
  | unknown => rfl
  | upload =>
      have hboth : ¬ ((c.handerOf o).isSome ∨ resumes (c.tasks.cell (c.taskOf o)).status = false) :=
        fun hor => h ⟨by simp [htype], hor⟩
      obtain ⟨hnone, hstatus⟩ := not_or.mp hboth
      simp only [Bool.not_eq_false] at hstatus
      simp only [hstatus, if_true, pResumUpload, hnone, Bool.false_eq_true, if_false]
  | download =>
      have hboth : ¬ ((c.handerOf o).isSome ∨ resumes (c.tasks.cell (c.taskOf o)).status = false) :=
        fun hor => h ⟨by simp [htype], hor⟩
      obtain ⟨hnone, hstatus⟩ := not_or.mp hboth
      simp only [Bool.not_eq_false] at hstatus
      simp only [hstatus, if_true, pResumDownLoad, hnone, Bool.false_eq_true, if_false]

/-- An operation that has not been started waits for nobody. -/
theorem not_outstanding_of_not_started {c c' : Core} (h : Watched c []) {o : OpRef}
    (hstarted : (c.ops.cell o).started = false) (hcalls : c'.calls = c.calls) :
  ¬ Outstanding o c'
  := by
  rintro ⟨r, hr, rfl, hmethod, -⟩
  rw [hcalls] at hr hmethod hstarted
  have hstarted' := (h.called r hr hmethod).2
  rw [hstarted] at hstarted'
  cases hstarted'

/-- What an operation that begins does: it runs `main` up to its last line. -/
theorem opStart_ops_calls {md5 : Bytes → String} {s : State} {o : OpRef} (hbegun : Begun s o)
    (hcancelled : CancelledFinished s.toCore) :
  (step (quiet md5) s (.opStart o)).ops = (mainTransfer o (running o s.toCore)).ops ∧
    (step (quiet md5) s (.opStart o)).calls = (mainTransfer o (running o s.toCore)).calls
  := by
  obtain ⟨ho, hstarted, hfinished⟩ := hbegun
  have hnot : ¬ (s.ops.cell o).cancelled := by
    intro hcancel
    have hfinish := hcancelled o ho hcancel
    rw [hfinished] at hfinish
    cases hfinish
  rw [step_opStart ⟨ho, hstarted⟩, if_neg hnot]
  apply main_ops_calls

/-- An operation runs alike before and after its queue has called `start`. -/
theorem runs_running_iff {o : OpRef} {c : Core} :
  Runs o (running o c) ↔ Runs o c
  := by
  have hhander : (running o c).handerOf o = c.handerOf o := Core.handerOf_setOp rfl o
  have htask : (running o c).taskOf o = c.taskOf o := Core.taskOf_setOp rfl o
  rw [Runs, Runs, hhander, htask]
  rfl

/-- An operation that begins and does not run calls nobody, and is not finished. -/
theorem opStart_of_not_runs {md5 : Bytes → String} {s : State} {o : OpRef} (hbegun : Begun s o)
    (hcancelled : CancelledFinished s.toCore) (hruns : ¬ Runs o s.toCore) :
  (step (quiet md5) s (.opStart o)).ops.cell o
      = { s.ops.cell o with started := true, executing := true } ∧
    (step (quiet md5) s (.opStart o)).calls = s.calls
  := by
  obtain ⟨hops, hcalls⟩ := @opStart_ops_calls md5 s o hbegun hcancelled
  rw [mainTransfer_of_not_runs (fun hrun => hruns (runs_running_iff.mp hrun))] at hops hcalls
  refine ⟨?_, hcalls⟩
  rw [hops, running, Core.setOp, Heap.cell_modify_self]

/-- An operation that begins waits for the handler, or is finished, exactly if it runs. -/
theorem waits_opStart_iff {md5 : Bytes → String} {s : State} {o : OpRef} (h : Watched s.toCore [])
    (hbegun : Begun s o) (hcancelled : CancelledFinished s.toCore) :
  Waits o (step (quiet md5) s (.opStart o)).toCore ↔ Runs o s.toCore
  := by
  by_cases hruns : Runs o s.toCore
  · refine iff_of_true ?_ hruns
    intro _ hfinished
    obtain ⟨hops, hcalls⟩ := @opStart_ops_calls md5 s o hbegun hcancelled
    obtain ⟨method, hmethod, heq⟩ | heq := mainTransfer_of_runs (runs_running_iff.mpr hruns)
    · rw [heq] at hcalls
      rw [Outstanding, hcalls]
      apply outstanding_call hmethod
    · rw [hops, heq, pFinishOperatioin, Core.setOp, Heap.cell_modify_self] at hfinished
      cases hfinished
  · refine iff_of_false ?_ hruns
    intro hwaits
    obtain ⟨hcell, hcalls⟩ := @opStart_of_not_runs md5 s o hbegun hcancelled hruns
    apply not_outstanding_of_not_started h hbegun.2.1 hcalls
    apply hwaits
    · rw [hcell]
    · rw [hcell]
      apply hbegun.2.2

/-- An operation whose call is answered ends, or calls the handler again. -/
theorem waits_finish {md5 : Bytes → String} {s : State} {r : CallRef} (hr : r < s.calls.next)
    (hmethod : (s.calls.cell r).method.transfers) (error : Option NSError) :
  Waits (s.calls.cell r).op (step (quiet md5) s (.finish r error)).toCore
  := by
  intro _ hfinished
  rw [step, if_pos hr] at hfinished ⊢
  obtain ⟨-, hops, -⟩ | ⟨-, method, hmethod', -, hcalls⟩ | ⟨hnot, -⟩ := @finishBlock_ops_calls md5
    (s.calls.cell r).method error (s.calls.cell r).op (s.mapCore (·.answer r))
  · rw [hops, pFinishOperatioin, Core.setOp, Heap.cell_modify_self] at hfinished
    cases hfinished
  · rw [Outstanding, hcalls]
    apply outstanding_call hmethod'
  · rw [hmethod] at hnot
    cases hnot

/-- Operations not involved in an event go on waiting. -/
theorem waits_of_not_involves {md5 : Bytes → String} {s : State} {e : Event}
    (h : Watched s.toCore []) (hcancelled : CancelledFinished s.toCore) (he : e ≠ .restart)
    {o : OpRef} (ho : o < s.ops.next) (hnot : ¬ Involves s e o) (hwaits : Waits o s.toCore) :
  Waits o (step (quiet md5) s e).toCore
  := by
  have hoperates := @Operates.step md5 _ _ h _ he
  intro hstarted hfinished
  have hcancelled' : ((step (quiet md5) s e).ops.cell o).cancelled = false := by
    by_contra hcancel
    have hfinish := hcancelled.step e o (Nat.lt_of_lt_of_le ho hoperates.ops_le)
      (by simpa using hcancel)
    rw [hfinished] at hfinish
    cases hfinish
  have hsame := hoperates.same o ho hnot (h.consistent o ho) hcancelled'
  rw [hsame] at hstarted hfinished
  apply (hwaits hstarted hfinished).operates hoperates hnot

end LCCFileService
