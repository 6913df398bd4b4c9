import LCCFileService.FileNet.Operations

/-!
# Moves of the core

Observers and callbacks may call back into the service whenever they are told a note, so
what a method relies on after a notification has to survive whatever they do.  Every change
of the core, wherever it comes from, is a move: it keeps the core sound, and operations and
tasks keep what identifies them.
-/

namespace LCCFileService

open LCFileNetService LCFileNetOperation

/-- The objects referred to have been allocated, and task ids are where they should be. -/
structure Sound (c : Core) : Prop where
  cached : ∀ k r, c.cache.lookup k = some r →
    r < c.tasks.next ∧ (c.tasks.cell r).taskId = some k
  enqueued : ∀ k o, c.taskOperationDic.lookup k = some o → o < c.ops.next
  owned : ∀ o < c.ops.next, c.taskOf o < c.tasks.next ∧ (c.taskIdOf o).isSome
  called : ∀ r < c.calls.next, (c.calls.cell r).op < c.ops.next
  cancelling : ∀ o k r, .lcCancelTask o k r ∈ c.pending →
    r < c.tasks.next ∧ (c.tasks.cell r).taskId = some k

/-- The core at the start of a process is sound. -/
theorem Sound.initial (db : TaskTable) (disk : Disk String Bytes) :
  Sound (State.initial db disk).toCore
  := by
  constructor
  · rintro k r ⟨⟩
  · rintro k o ⟨⟩
  · rintro o ⟨⟩
  · rintro r ⟨⟩
  · rintro o k r ⟨⟩

/-- The change keeps a sound core sound, and keeps what identifies operations and tasks. -/
def Moves (c c' : Core) : Prop := Sound c → Sound c' ∧ Advance (fun _ => True) c c'

namespace Moves

variable {c c' c'' : Core}

theorem refl (c : Core) :
  Moves c c
  := fun h => ⟨h, (Steady.refl c).toAdvance⟩

theorem trans (h : Moves c c') (h' : Moves c' c'') :
  Moves c c''
  := by
  intro hsound
  obtain ⟨hsound', hadvance⟩ := h hsound
  obtain ⟨hsound'', hadvance'⟩ := h' hsound'
  exact ⟨hsound'', hadvance.trans hadvance'⟩

/-- A change without new operations is a move if what is new in it is sound. -/
theorem of_steady (h : Steady (fun _ => True) c c')
    (hcached : ∀ k r, c'.cache.lookup k = some r → c.cache.lookup k = some r ∨
      (r < c'.tasks.next ∧ (c'.tasks.cell r).taskId = some k))
    (hcalled : ∀ r < c'.calls.next, c.calls.next ≤ r → (c'.calls.cell r).op < c.ops.next)
    (hcancelling : ∀ o k r, .lcCancelTask o k r ∈ c'.pending → .lcCancelTask o k r ∈ c.pending ∨
      (r < c'.tasks.next ∧ (c'.tasks.cell r).taskId = some k)) :
  Moves c c'
  := by
  intro hsound
  have hkeeps : ∀ k r, r < c.tasks.next ∧ (c.tasks.cell r).taskId = some k →
      r < c'.tasks.next ∧ (c'.tasks.cell r).taskId = some k := by
    rintro k r ⟨hlt, hid⟩
    rw [h.taskId r hlt]
    exact ⟨Nat.lt_of_lt_of_le hlt h.tasks_le, hid⟩
  refine ⟨?_, h.toAdvance⟩
  constructor
  · intro k r hr
    rcases hcached k r hr with hr | hr
    · apply hkeeps k r (hsound.cached k r hr)
    · apply hr
  · intro k o ho
    rw [h.dic_eq] at ho
    rw [h.ops_eq]
    apply hsound.enqueued k o ho
  · intro o ho
    rw [h.ops_eq] at ho
    obtain ⟨hlt, hid⟩ := hsound.owned o ho
    rw [Core.taskIdOf, h.task o ho, h.taskId _ hlt]
    exact ⟨Nat.lt_of_lt_of_le hlt h.tasks_le, hid⟩
  · intro r hr
    rw [h.ops_eq]
    by_cases hlt : r < c.calls.next
    · rw [h.op r hlt]
      apply hsound.called r hlt
    · apply hcalled r hr (Nat.le_of_not_lt hlt)
  · intro o k r hr
    rcases hcancelling o k r hr with hr | hr
    · apply hkeeps k r (hsound.cancelling o k r hr)
    · apply hr

/-- A change of neither cache, calls, pending tails nor operations is a move. -/
theorem of_steady_eq (h : Steady (fun _ => True) c c') (hcache : c'.cache = c.cache)
    (hcalls : c'.calls.next = c.calls.next) (hpending : c'.pending = c.pending) :
  Moves c c'
  := by
  apply of_steady h
  · intro k r hr
    left
    rw [← hcache]
    apply hr
  · intro r hr hle
    rw [hcalls] at hr
    apply absurd hr (Nat.not_lt_of_le hle)
  · intro o k r hr
    left
    rw [← hpending]
    apply hr

/-! ### Primitive changes -/

theorem setTask (r : TaskRef) (f : LCFileNetTask → LCFileNetTask) (c : Core) :
  Moves c (c.setTask r f)
  := of_steady_eq (Steady.setTask r f c) rfl rfl rfl

theorem setStatus (r : TaskRef) (status : LCFileNetTaskStatus) (c : Core) :
  Moves c (c.setStatus r status)
  := setTask r (fun t => { t with status }) c

theorem setDb (f : TaskTable → TaskTable) (c : Core) :
  Moves c (c.setDb f)
  := of_steady_eq (Steady.setDb f c) rfl rfl rfl

theorem allocTask (t : LCFileNetTask) (c : Core) :
  Moves c (c.allocTask t)
  := of_steady_eq (Steady.allocTask t c) rfl rfl rfl

theorem answer (r : CallRef) (c : Core) :
  Moves c (c.answer r)
  := of_steady_eq (Steady.answer r c) rfl rfl rfl

theorem pFinishOperatioin (o : OpRef) (c : Core) :
  Moves c (LCFileNetOperation.pFinishOperatioin o c)
  := of_steady_eq (Steady.pFinishOperatioin o c) rfl rfl rfl

theorem superCancel (o : OpRef) (c : Core) :
  Moves c (LCFileNetOperation.superCancel o c)
  := of_steady_eq (Steady.superCancel o c) rfl rfl rfl

/-- Setting flags of an operation. -/
theorem setOp {f : LCFileNetOperation → LCFileNetOperation} (htask : ∀ op, (f op).task = op.task)
    (hfinished : ∀ op, op.finished → (f op).finished)
    (hcancelled : ∀ op, op.cancelled → (f op).cancelled) (o : OpRef) (c : Core) :
  Moves c (c.setOp o f)
  := of_steady_eq (Steady.setOp htask hfinished hcancelled o c) rfl rfl rfl

theorem call {o : OpRef} (ho : o < c.ops.next) (method : HanderMethod) :
  Moves c (c.call o method)
  := by
  apply of_steady (Steady.call (fun _ => trivial) c)
  · intro k r hr
    left
    apply hr
  · intro r hr hle
    obtain rfl : r = c.calls.next := Nat.le_antisymm (Nat.lt_succ_iff.mp hr) hle
    rw [Core.call, Heap.cell_alloc_next]
    apply ho
  · intro o k r hr
    left
    apply hr

theorem dropTail (i : Nat) (c : Core) :
  Moves c (c.dropTail i)
  := by
  apply of_steady (Steady.dropTail i c)
  · intro k r hr
    left
    apply hr
  · intro r hr hle
    apply absurd hr (Nat.not_lt_of_le hle)
  · intro o k r hr
    left
    apply List.mem_of_mem_eraseIdx hr

theorem await {t : Tail} (ht : ∀ o k r, t = .lcCancelTask o k r →
    r < c.tasks.next ∧ (c.tasks.cell r).taskId = some k) :
  Moves c (c.await t)
  := by
  apply of_steady (Steady.await t c)
  · intro k r hr
    left
    apply hr
  · intro r hr hle
    apply absurd hr (Nat.not_lt_of_le hle)
  · intro o k r hr
    rw [Core.await, List.mem_append, List.mem_singleton] at hr
    rcases hr with hr | hr
    · left
      apply hr
    · right
      apply ht o k r hr.symm

theorem pSetTask {task : TaskRef} {k : String} (hlt : task < c.tasks.next)
    (hid : (c.tasks.cell task).taskId = some k) :
  Moves c (LCFileNetService.pSetTask task k c)
  := by
  apply of_steady (Steady.pSetTask task k c)
  · intro k' r hr
    rw [LCFileNetService.pSetTask, Dictionary.lookup_insert] at hr
    split at hr
    · next hk =>
        right
        obtain rfl := Option.some.inj hr
        rw [hk]
        exact ⟨hlt, hid⟩
    · left
      apply hr
  · intro r hr hle
    apply absurd hr (Nat.not_lt_of_le hle)
  · intro o k r hr
    left
    apply hr

/-- A task id is taken out of the cache. -/
theorem eraseCache (k : String) (c : Core) :
  Moves c { c with cache := c.cache.erase k }
  := by
  have hsteady : Steady (fun _ => True) c { c with cache := c.cache.erase k } := by
    apply Steady.of_eq
    · apply Nat.le_refl
    · intro r hr
      rfl
    · rfl
    · rfl
    · rfl
  apply of_steady hsteady
  · intro k' r hr
    left
    rw [Dictionary.lookup_erase] at hr
    split at hr
    · cases hr
    · apply hr
  · intro r hr hle
    apply absurd hr (Nat.not_lt_of_le hle)
  · intro o k r hr
    left
    apply hr

/-- A task id is taken out of `taskOperationDic`. -/
theorem eraseOperation (k : String) (c : Core) :
  Moves c { c with taskOperationDic := c.taskOperationDic.erase k }
  := by
  intro hsound
  constructor
  · constructor
    · apply hsound.cached
    · intro k' o ho
      rw [Dictionary.lookup_erase] at ho
      split at ho
      · cases ho
      · apply hsound.enqueued k' o ho
    · apply hsound.owned
    · apply hsound.called
    · apply hsound.cancelling
  · have hrefl : Advance (fun _ => True) c c := (Steady.refl c).toAdvance
    exact ⟨hrefl.ops_le, hrefl.tasks_le, hrefl.calls_le, hrefl.task, hrefl.finished,
      hrefl.cancelled, hrefl.taskId, hrefl.op, hrefl.method, hrefl.begun⟩

theorem addOperation {task : TaskRef} {k : String} (hlt : task < c.tasks.next)
    (hid : (c.tasks.cell task).taskId = some k) :
  Moves c (LCFileNetService.addOperation task k c)
  := by
  intro hsound
  have hadvance := @Advance.addOperation (fun _ => True) task k c
  refine ⟨?_, hadvance⟩
  constructor
  · apply hsound.cached
  · intro k' o ho
    rw [LCFileNetService.addOperation, Dictionary.lookup_insert] at ho
    split at ho
    · obtain rfl := Option.some.inj ho
      apply Nat.lt_succ_self
    · apply Nat.lt_succ_of_lt (hsound.enqueued k' o ho)
  · intro o ho
    rcases Nat.lt_or_eq_of_le (Nat.lt_succ_iff.mp ho) with ho | rfl
    · rw [Core.taskIdOf, hadvance.task o ho]
      apply hsound.owned o ho
    · have htask : (LCFileNetService.addOperation task k c).taskOf c.ops.next = task := by
        rw [Core.taskOf, LCFileNetService.addOperation, Heap.cell_alloc_next]
      rw [Core.taskIdOf, htask]
      refine ⟨hlt, ?_⟩
      apply Option.isSome_of_eq_some hid
  · intro r hr
    apply Nat.lt_succ_of_lt (hsound.called r hr)
  · apply hsound.cancelling

/-- A change of handlers or of the disk. -/
theorem other (hander : Option HanderRef) (deallocated : List HanderRef)
    (disk : Disk String Bytes) (c : Core) :
  Moves c { c with hander, deallocated, disk }
  := by
  have hsteady : Steady (fun _ => True) c { c with hander, deallocated, disk } := by
    apply Steady.of_eq
    · apply Nat.le_refl
    · intro r hr
      rfl
    · rfl
    · rfl
    · rfl
  apply of_steady_eq hsteady rfl rfl rfl

/-! ### Methods without notifications -/

theorem pStartUpload {o : OpRef} (ho : o < c.ops.next) :
  Moves c (LCFileNetOperation.pStartUpload o c)
  := by
  rw [LCFileNetOperation.pStartUpload]
  split
  · apply call ho
  · apply pFinishOperatioin

theorem pStartDownload {o : OpRef} (ho : o < c.ops.next) :
  Moves c (LCFileNetOperation.pStartDownload o c)
  := by
  rw [LCFileNetOperation.pStartDownload]
  split
  · apply call ho
  · apply pFinishOperatioin

theorem mainTransfer {o : OpRef} (ho : o < c.ops.next) :
  Moves c (LCFileNetOperation.mainTransfer o c)
  := by
  rw [LCFileNetOperation.mainTransfer]
  split
  · split
    · rw [pResumUpload]
      split
      · apply call ho
      · apply refl
    · apply pStartUpload ho
  · split
    · rw [pResumDownLoad]
      split
      · apply call ho
      · apply refl
    · apply pStartDownload ho
  · apply refl

theorem pAddTask {task : TaskRef} (hlt : task < c.tasks.next) :
  Moves c (LCFileNetService.pAddTask task c)
  := by
  rw [LCFileNetService.pAddTask]
  split
  · apply refl
  · next taskId hid _ => apply addOperation hlt hid
  · apply refl

theorem pSetMd5 {md5 : Bytes → String} (task : TaskRef) (c : Core) :
  Moves c (LCFileNetService.pSetMd5 md5 task c)
  := by
  rw [LCFileNetService.pSetMd5]
  split
  · split
    · apply setTask
    · apply refl
  · apply refl

/-- A task read from a row is cached under its task id. -/
theorem pSetTask_object (row : LCFileNetTaskRow) (c : Core) :
  Moves c (LCFileNetService.pSetTask c.tasks.next row.taskId (c.allocTask row.object))
  := by
  apply (allocTask row.object c).trans
  apply pSetTask
  · apply Nat.lt_succ_self
  · rw [Core.allocTask, Heap.cell_alloc_next]
    rfl

theorem startNew {task : TaskRef} {taskId : String} (hlt : task < c.tasks.next)
    (hid : (c.tasks.cell task).taskId = some taskId) :
  Moves c (LCFileNetService.startNew task taskId c)
  := by
  have hset := pSetTask hlt hid
  have hsave := setDb (LCFileTaskDB.lcSaveTask (c.tasks.cell task))
    (LCFileNetService.pSetTask task taskId c)
  apply (hset.trans hsave).trans
  apply pAddTask
  apply hlt

theorem lcGetTask (taskId : String) (c : Core) :
  Moves c (LCFileNetService.lcGetTask taskId c)
  := by
  rw [LCFileNetService.lcGetTask]
  split
  · apply refl
  · split
    · next row _ =>
        have hset := pSetTask_object row c
        simp only
        split
        · apply hset.trans (setStatus c.tasks.next .interrupt _)
        · apply hset.trans (setStatus c.tasks.next .interrupt _)
        · apply hset
    · apply refl

end Moves

end LCCFileService
