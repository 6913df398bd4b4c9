import LCCFileService.FileNet.Quiet

/-!
# The tables agree

Every key of the cache is the task id of its task and has a row, and every key of
`taskOperationDic` is cached with the task of its operation.  This holds in every state of
every run in which observers and callbacks do not call back into the service.
-/

namespace LCCFileService

open LCFileNetService LCFileNetOperation

/-- The cache, the task table and `taskOperationDic` agree. -/
structure TablesAgree (c : Core) : Prop where
  cached : ∀ k r, c.cache.lookup k = some r →
    (c.tasks.cell r).taskId = some k ∧ (c.db.get k).isSome
  stored : ∀ k o, c.taskOperationDic.lookup k = some o →
    c.cache.lookup k = some (c.ops.cell o).task

/-- The tables agree, and the objects in them have been allocated. -/
structure WellFormed (c : Core) : Prop extends TablesAgree c where
  allocated : ∀ k r, c.cache.lookup k = some r → r < c.tasks.next
  enqueued : ∀ k o, c.taskOperationDic.lookup k = some o → o < c.ops.next
  owned : ∀ o < c.ops.next, c.taskOf o < c.tasks.next

namespace WellFormed

/-- A key that is not cached has no operation. -/
theorem stored_eq_none {c : Core} (h : WellFormed c) {k : String}
    (hk : c.cache.lookup k = none) :
  c.taskOperationDic.lookup k = none
  := by
  cases hop : c.taskOperationDic.lookup k with
  | none => rfl
  | some o =>
      have hcached := h.stored k o hop
      rw [hk] at hcached
      cases hcached

/-- The operation stored under a task id is an operation of a task with this task id. -/
theorem taskIdOf {c : Core} (h : WellFormed c) {k : String} {o : OpRef}
    (ho : c.taskOperationDic.lookup k = some o) :
  o < c.ops.next ∧ c.taskIdOf o = some k
  := ⟨h.enqueued k o ho, (h.cached k _ (h.stored k o ho)).1⟩

/-- The operation stored under a task id is an operation of the task that is cached there. -/
theorem taskOf_eq {c : Core} (h : WellFormed c) {k : String} {o : OpRef} {task : TaskRef}
    (ho : c.taskOperationDic.lookup k = some o) (htask : c.cache.lookup k = some task) :
  c.taskOf o = task
  := Option.some.inj ((h.stored k o ho).symm.trans htask)

/-! ### Changes that keep the tables in agreement -/

variable {c : Core}

/-- The core at the start of a process is well formed. -/
theorem initial (db : TaskTable) (disk : Disk String Bytes) :
  WellFormed (State.initial db disk).toCore
  := by
  constructor
  · constructor
    · rintro k r ⟨⟩
    · rintro k o ⟨⟩
  · rintro k r ⟨⟩
  · rintro k o ⟨⟩
  · rintro o ⟨⟩

/-- Changes of other parts of the core do not matter. -/
theorem congr {c' : Core} (h : WellFormed c) (htasks : c'.tasks = c.tasks)
    (hops : c'.ops = c.ops) (hdb : c'.db = c.db) (hcache : c'.cache = c.cache)
    (hdic : c'.taskOperationDic = c.taskOperationDic) :
  WellFormed c'
  := by
  constructor
  · constructor
    · rw [hcache, htasks, hdb]
      apply h.cached
    · rw [hcache, hops, hdic]
      apply h.stored
  · rw [hcache, htasks]
    apply h.allocated
  · rw [hdic, hops]
    apply h.enqueued
  · rw [hops, htasks]
    intro o ho
    rw [Core.taskOf, hops]
    apply h.owned o ho

theorem setTask (h : WellFormed c) (r : TaskRef) (f : LCFileNetTask → LCFileNetTask) :
  WellFormed (c.setTask r f)
  := by
  constructor
  · constructor
    · intro k r' hr'
      rw [Core.taskId_setTask]
      apply h.cached k r' hr'
    · apply h.stored
  · apply h.allocated
  · apply h.enqueued
  · apply h.owned

theorem setStatus (h : WellFormed c) (r : TaskRef) (status : LCFileNetTaskStatus) :
  WellFormed (c.setStatus r status)
  := h.setTask r (fun t => { t with status })

theorem setOp (h : WellFormed c) {o : OpRef} {f : LCFileNetOperation → LCFileNetOperation}
    (hf : ∀ op, (f op).task = op.task) :
  WellFormed (c.setOp o f)
  := by
  constructor
  · constructor
    · apply h.cached
    · intro k o' ho'
      rw [Core.setOp, Heap.map_cell_modify LCFileNetOperation.task (hf _)]
      apply h.stored k o' ho'
  · apply h.allocated
  · apply h.enqueued
  · intro o' ho'
    rw [Core.taskOf, Core.setOp, Heap.map_cell_modify LCFileNetOperation.task (hf _)]
    apply h.owned o' ho'

/-- Table operations that delete nothing keep the tables in agreement. -/
theorem setDb (h : WellFormed c) {f : TaskTable → TaskTable}
    (hf : ∀ k, (c.db.get k).isSome → ((f c.db).get k).isSome) :
  WellFormed (c.setDb f)
  := by
  constructor
  · constructor
    · intro k r hr
      obtain ⟨hid, hrow⟩ := h.cached k r hr
      exact ⟨hid, hf k hrow⟩
    · apply h.stored
  · apply h.allocated
  · apply h.enqueued
  · apply h.owned

theorem updateTask (h : WellFormed c) (taskId : Option String)
    (f : LCFileNetTaskFields → LCFileNetTaskFields) :
  WellFormed (c.setDb (LCFileTaskDB.updateTask taskId f))
  := by
  apply h.setDb
  intro k hk
  rw [LCFileTaskDB.isSome_get_updateTask]
  apply hk

theorem saveTask (h : WellFormed c) (t : LCFileNetTask) :
  WellFormed (c.setDb (LCFileTaskDB.lcSaveTask t))
  := by
  apply h.setDb
  intro k hk
  rw [LCFileTaskDB.get_lcSaveTask]
  split
  · rfl
  · apply hk

theorem allocTask (h : WellFormed c) (t : LCFileNetTask) :
  WellFormed (c.allocTask t)
  := by
  constructor
  · constructor
    · intro k r hr
      rw [Core.allocTask, Heap.cell_alloc_of_lt t (h.allocated k r hr)]
      apply h.cached k r hr
    · apply h.stored
  · intro k r hr
    apply Nat.lt_succ_of_lt (h.allocated k r hr)
  · apply h.enqueued
  · intro o ho
    apply Nat.lt_succ_of_lt (h.owned o ho)

/-- A task with a row may be cached under its task id if no operation stands there. -/
theorem pSetTask (h : WellFormed c) {task : TaskRef} {k : String}
    (hid : (c.tasks.cell task).taskId = some k) (hlt : task < c.tasks.next)
    (hrow : (c.db.get k).isSome) (hdic : c.taskOperationDic.lookup k = none) :
  WellFormed (LCFileNetService.pSetTask task k c)
  := by
  constructor
  · constructor
    · intro k' r hr
      simp only [LCFileNetService.pSetTask, Dictionary.lookup_insert] at hr
      split at hr
      · next hk =>
          obtain rfl := Option.some.inj hr
          subst hk
          exact ⟨hid, hrow⟩
      · apply h.cached k' r hr
    · intro k' o ho
      have hk : k' ≠ k := by
        rintro rfl
        cases hdic.symm.trans ho
      simp only [LCFileNetService.pSetTask, Dictionary.lookup_insert, if_neg hk]
      apply h.stored k' o ho
  · intro k' r hr
    simp only [LCFileNetService.pSetTask, Dictionary.lookup_insert] at hr
    split at hr
    · obtain rfl := Option.some.inj hr
      apply hlt
    · apply h.allocated k' r hr
  · apply h.enqueued
  · apply h.owned

/-- An operation may be put under the key its task is cached under. -/
theorem addOperation (h : WellFormed c) {task : TaskRef} {k : String}
    (hcached : c.cache.lookup k = some task) :
  WellFormed (LCFileNetService.addOperation task k c)
  := by
  constructor
  · constructor
    · apply h.cached
    · intro k' o ho
      simp only [LCFileNetService.addOperation, Dictionary.lookup_insert] at ho ⊢
      split at ho
      · next hk =>
          obtain rfl := Option.some.inj ho
          rw [hk, Heap.cell_alloc_next]
          apply hcached
      · rw [Heap.cell_alloc_of_lt _ (h.enqueued k' o ho)]
        apply h.stored k' o ho
  · apply h.allocated
  · intro k' o ho
    simp only [LCFileNetService.addOperation, Dictionary.lookup_insert] at ho
    split at ho
    · obtain rfl := Option.some.inj ho
      apply Nat.lt_succ_self
    · apply Nat.lt_succ_of_lt (h.enqueued k' o ho)
  · intro o ho
    by_cases hlt : o < c.ops.next
    · rw [Core.taskOf, LCFileNetService.addOperation, Heap.cell_alloc_of_lt _ hlt]
      apply h.owned o hlt
    · obtain rfl : o = c.ops.next := Nat.le_antisymm (Nat.lt_succ_iff.mp ho) (Nat.le_of_not_lt hlt)
      rw [Core.taskOf, LCFileNetService.addOperation, Heap.cell_alloc_next]
      apply h.allocated k task hcached

/-- A task id may be taken out of all tables. -/
theorem forget (h : WellFormed c) (k : String) :
  WellFormed (c.forget k)
  := by
  constructor
  · constructor
    · intro k' r hr
      simp only [Core.forget, Dictionary.lookup_erase] at hr
      split at hr
      · cases hr
      · next hk =>
          rw [Core.forget, LCFileTaskDB.get_lcDeleteTaskByTaskId, if_neg (Ne.symm hk)]
          apply h.cached k' r hr
    · intro k' o ho
      simp only [Core.forget, Dictionary.lookup_erase] at ho ⊢
      split at ho
      · cases ho
      · next hk =>
          rw [if_neg hk]
          apply h.stored k' o ho
  · intro k' r hr
    simp only [Core.forget, Dictionary.lookup_erase] at hr
    split at hr
    · cases hr
    · apply h.allocated k' r hr
  · intro k' o ho
    simp only [Core.forget, Dictionary.lookup_erase] at ho
    split at ho
    · cases ho
    · apply h.enqueued k' o ho
  · apply h.owned

/-! ### Operations -/

theorem recordStatus (h : WellFormed c) (task : TaskRef) (status : LCFileNetTaskStatus) :
  WellFormed (c.recordStatus task status)
  := (h.setStatus task status).updateTask _ _

theorem recordSizes (h : WellFormed c) (task : TaskRef) :
  WellFormed (c.recordSizes task)
  := h.updateTask _ _

theorem recordFinish (h : WellFormed c) (task : TaskRef) (error : Option NSError) :
  WellFormed (c.recordFinish task error)
  := by
  apply saveTask
  split
  · apply h.setStatus
  · apply h

theorem pFinishOperatioin (h : WellFormed c) (o : OpRef) :
  WellFormed (LCFileNetOperation.pFinishOperatioin o c)
  := h.setOp (fun _ => rfl)

theorem superCancel (h : WellFormed c) (o : OpRef) :
  WellFormed (LCFileNetOperation.superCancel o c)
  := by
  have hset : WellFormed (c.setOp o (fun op => { op with
      cancelled := op.cancelled || !op.finished })) := h.setOp (fun _ => rfl)
  exact (hset.pFinishOperatioin o).congr rfl rfl rfl rfl rfl

theorem call (h : WellFormed c) (o : OpRef) (method : HanderMethod) :
  WellFormed (c.call o method)
  := h.congr rfl rfl rfl rfl rfl

theorem await (h : WellFormed c) (t : Tail) :
  WellFormed (c.await t)
  := h.congr rfl rfl rfl rfl rfl

theorem pStartUpload (h : WellFormed c) (o : OpRef) :
  WellFormed (LCFileNetOperation.pStartUpload o c)
  := by
  rw [LCFileNetOperation.pStartUpload]
  split
  · apply h.call
  · apply h.pFinishOperatioin

theorem pStartDownload (h : WellFormed c) (o : OpRef) :
  WellFormed (LCFileNetOperation.pStartDownload o c)
  := by
  rw [LCFileNetOperation.pStartDownload]
  split
  · apply h.call
  · apply h.pFinishOperatioin

theorem mainTransfer (h : WellFormed c) (o : OpRef) :
  WellFormed (LCFileNetOperation.mainTransfer o c)
  := by
  rw [LCFileNetOperation.mainTransfer]
  split
  · split
    · rw [pResumUpload]
      split
      · apply h.call
      · apply h
    · apply h.pStartUpload
  · split
    · rw [pResumDownLoad]
      split
      · apply h.call
      · apply h
    · apply h.pStartDownload
  · apply h

variable {s : State} {md5 : Bytes → String}

theorem start (h : WellFormed s.toCore) (o : OpRef) :
  WellFormed (LCFileNetOperation.start (quiet md5) o s).toCore
  := by
  rw [LCFileNetOperation.start]
  split
  · exact h.setOp (fun _ => rfl)
  · have hexecuting := h.setOp (o := o) (f := fun op => { op with executing := true })
      (fun _ => rfl)
    rw [toCore_main]
    split
    · apply (hexecuting.mainTransfer o).await
    · apply (hexecuting.mainTransfer o).recordStatus

theorem stopTail (h : WellFormed s.toCore) (status : LCFileNetTaskStatus) (o : OpRef) :
  WellFormed (LCFileNetOperation.stopTail (quiet md5) status o s).toCore
  := by
  rw [toCore_stopTail]
  apply (h.recordStatus _ _).superCancel

/-- Stopping an operation keeps the tables in agreement if what follows does. -/
theorem stop (h : WellFormed s.toCore) (method : HanderMethod) (status : LCFileNetTaskStatus)
    (o : OpRef) (t : Tail) {rest : State → State}
    (hrest : ∀ s, WellFormed s.toCore → WellFormed (rest s).toCore) :
  WellFormed (LCFileNetOperation.stop (quiet md5) method status o t rest s).toCore
  := by
  rw [LCFileNetOperation.stop]
  split
  · apply (h.call o method).await
  · split
    · apply hrest
      apply h.stopTail
    · apply hrest
      apply h.superCancel

theorem progressBlock (h : WellFormed s.toCore) (o : OpRef) :
  WellFormed (LCFileNetOperation.progressBlock (quiet md5) o s).toCore
  := by
  rw [toCore_progressBlock]
  split
  · apply (h.recordSizes _).pFinishOperatioin
  · apply h.recordSizes

theorem ended (h : WellFormed s.toCore) (o : OpRef) (error : Option NSError) :
  WellFormed (LCFileNetOperation.ended (quiet md5) o error s).toCore
  := by
  rw [toCore_ended]
  apply ((h.recordStatus _ _).recordFinish _ _).pFinishOperatioin

theorem finishBlock (h : WellFormed s.toCore) (method : HanderMethod) (o : OpRef)
    (error : Option NSError) :
  WellFormed (LCFileNetOperation.finishBlock (quiet md5) method o error s).toCore
  := by
  cases method with
  | upload => apply h.ended
  | download => apply h.ended
  | resumUpload =>
      rw [LCFileNetOperation.finishBlock]
      split
      · apply h.pStartUpload
      · apply h.ended
  | resumDownload =>
      rw [LCFileNetOperation.finishBlock]
      split
      · apply h.pStartDownload
      · apply h.ended
  | cancel => apply h
  | pause => apply h

/-! ### The service -/

/-- An operation may be added for the task cached under its task id. -/
theorem pAddTask (h : WellFormed c) {task : TaskRef} {taskId : String}
    (hid : (c.tasks.cell task).taskId = some taskId)
    (hcached : c.cache.lookup taskId = some task) :
  WellFormed (LCFileNetService.pAddTask task c)
  := by
  rw [LCFileNetService.pAddTask, hid]
  cases (c.tasks.cell task).type with
  | unknown => apply h
  | upload => apply h.addOperation hcached
  | download => apply h.addOperation hcached

/-- A task read from its row may be cached if its task id is not. -/
theorem pSetTask_object (h : WellFormed c) {row : LCFileNetTaskRow} {taskId : String}
    (hrow : c.db.get taskId = some row) (hcache : c.cache.lookup taskId = none) :
  WellFormed (LCFileNetService.pSetTask c.tasks.next row.taskId (c.allocTask row.object))
  := by
  have hid := LCFileTaskDB.taskId_of_get hrow
  subst hid
  apply (h.allocTask row.object).pSetTask
  · rw [Core.allocTask, Heap.cell_alloc_next]
    rfl
  · apply Nat.lt_succ_self
  · apply Option.isSome_of_eq_some hrow
  · apply h.stored_eq_none hcache

theorem startNew (h : WellFormed c) {task : TaskRef} {taskId : String}
    (hid : (c.tasks.cell task).taskId = some taskId) (hlt : task < c.tasks.next)
    (hcache : c.cache.lookup taskId = none) :
  WellFormed (LCFileNetService.startNew task taskId c)
  := by
  have hrow : ((LCFileTaskDB.lcSaveTask (c.tasks.cell task) c.db).get taskId).isSome := by
    rw [LCFileTaskDB.get_lcSaveTask, if_pos hid]
    rfl
  have hset := (h.saveTask (c.tasks.cell task)).pSetTask hid hlt hrow (h.stored_eq_none hcache)
  apply hset.pAddTask hid
  rw [LCFileNetService.pSetTask, Dictionary.lookup_insert, if_pos rfl]

theorem startChecked (h : WellFormed c) {task : TaskRef} {taskId : String}
    (hid : (c.tasks.cell task).taskId = some taskId) (hlt : task < c.tasks.next) :
  WellFormed (c.startChecked task taskId)
  := by
  rw [Core.startChecked]
  cases hcache : c.cache.lookup taskId with
  | some oldTask =>
      simp only
      split
      · apply h.pAddTask (h.cached taskId oldTask hcache).1 hcache
      · apply h
  | none =>
      cases hrow : LCFileTaskDB.lcGetTaskByTaskId taskId c.db with
      | none => apply h.startNew hid hlt hcache
      | some row =>
          have hset := h.pSetTask_object hrow hcache
          have hinterrupt := hset.setStatus c.tasks.next .interrupt
          have hcached : (LCFileNetService.pSetTask c.tasks.next row.taskId
              (c.allocTask row.object)).cache.lookup row.taskId = some c.tasks.next := by
            rw [LCFileNetService.pSetTask, Dictionary.lookup_insert, if_pos rfl]
          simp only
          split
          · apply hset
          · apply hinterrupt.pAddTask (hinterrupt.cached _ _ hcached).1 hcached
          · apply hinterrupt.pAddTask (hinterrupt.cached _ _ hcached).1 hcached
          · apply hset.pAddTask (hset.cached _ _ hcached).1 hcached

theorem pSetMd5 (h : WellFormed c) (task : TaskRef) :
  WellFormed (LCFileNetService.pSetMd5 md5 task c)
  := by
  rw [LCFileNetService.pSetMd5]
  split
  · split
    · apply h.setTask
    · apply h
  · apply h

theorem lcStartTask (h : WellFormed s.toCore) {task : TaskRef} (hlt : task < s.tasks.next) :
  WellFormed (LCFileNetService.lcStartTask (quiet md5) task s).toCore
  := by
  rw [toCore_lcStartTask, Core.startTask]
  cases hid : (s.tasks.cell task).taskId with
  | none => apply h
  | some taskId =>
      simp only
      split
      · apply (h.pSetMd5 task).startChecked
        · rw [taskId_pSetMd5]
          apply hid
        · rw [next_pSetMd5]
          apply hlt
      · apply h

theorem lcResumTask (h : WellFormed s.toCore) (taskId : String) :
  WellFormed (LCFileNetService.lcResumTask (quiet md5) taskId s).toCore
  := by
  rw [LCFileNetService.lcResumTask]
  cases hcache : s.cache.lookup taskId with
  | none => apply h
  | some task =>
      simp only
      split
      · apply h
      · apply h.lcStartTask (h.allocated taskId task hcache)

theorem cancelTail (h : WellFormed s.toCore) (taskId : String) (cacheTask : TaskRef) :
  WellFormed (LCFileNetService.cancelTail (quiet md5) taskId cacheTask s).toCore
  := by
  rw [toCore_cancelTail]
  apply (h.setStatus cacheTask .canceled).forget

theorem lcCancelTask (h : WellFormed s.toCore) (taskId : String) :
  WellFormed (LCFileNetService.lcCancelTask (quiet md5) taskId s).toCore
  := by
  rw [LCFileNetService.lcCancelTask]
  cases s.cache.lookup taskId with
  | none => apply h
  | some cacheTask =>
      simp only
      split
      · apply h
      · cases s.taskOperationDic.lookup taskId with
        | none => apply h.cancelTail
        | some operaton =>
            apply h.stop
            intro s hs
            apply hs.cancelTail

theorem pauseTail (h : WellFormed s.toCore) (cacheTask : TaskRef) :
  WellFormed (LCFileNetService.pauseTail (quiet md5) cacheTask s).toCore
  := by
  rw [toCore_pauseTail]
  apply h.setStatus

theorem pauseTasks (h : WellFormed s.toCore) (taskIds : List String) :
  WellFormed (LCFileNetService.pauseTasks (quiet md5) taskIds s).toCore
  := by
  induction taskIds generalizing s with
  | nil => apply h
  | cons taskId taskIds ih =>
      rw [LCFileNetService.pauseTasks]
      cases s.cache.lookup taskId with
      | none => apply ih h
      | some cacheTask =>
          simp only
          split
          · apply ih h
          · cases s.taskOperationDic.lookup taskId with
            | none =>
                apply ih
                apply h.pauseTail
            | some operaton =>
                apply h.stop
                intro s hs
                apply ih
                apply hs.pauseTail

theorem runTail (h : WellFormed s.toCore) (t : Tail) :
  WellFormed (LCFileNetService.runTail (quiet md5) t s).toCore
  := by
  cases t with
  | main o =>
      rw [LCFileNetService.runTail, toCore_pNotifyStart]
      apply h.recordStatus
  | cancel o => apply h.stopTail
  | pause o => apply h.stopTail
  | lcCancelTask o taskId cacheTask => apply (h.stopTail .canceled o).cancelTail
  | lcPauseTask o cacheTask taskIds =>
      apply pauseTasks
      apply (h.stopTail .pause o).pauseTail

theorem lcGetTask (h : WellFormed c) (taskId : String) :
  WellFormed (LCFileNetService.lcGetTask taskId c)
  := by
  rw [LCFileNetService.lcGetTask]
  cases hcache : c.cache.lookup taskId with
  | some task => apply h
  | none =>
      simp only
      cases hrow : LCFileTaskDB.lcGetTaskByTaskId taskId c.db with
      | none => apply h
      | some row =>
          have hset := h.pSetTask_object hrow hcache
          simp only
          split
          · apply hset.setStatus c.tasks.next .interrupt
          · apply hset.setStatus c.tasks.next .interrupt
          · apply hset

/-- Every step keeps the core well formed. -/
theorem step (h : WellFormed s.toCore) (e : Event) :
  WellFormed (LCCFileService.step (quiet md5) s e).toCore
  := by
  cases e with
  | create t => apply h.allocTask
  | set task t =>
      rw [LCCFileService.step]
      split
      · apply h.setTask
      · apply h
  | startTask task =>
      rw [LCCFileService.step]
      split
      · next hlt => apply h.lcStartTask hlt
      · apply h
  | resumTask taskId => apply h.lcResumTask
  | pauseTask taskId => apply h.pauseTasks
  | pauseAllTask => apply h.pauseTasks
  | cancelTask taskId => apply h.lcCancelTask
  | getTask taskId => apply h.lcGetTask
  | updatetask key filePath => apply h.updateTask
  | opStart o =>
      rw [LCCFileService.step]
      split
      · apply WellFormed.start
        exact h.setOp (fun _ => rfl)
      · apply h
  | opCancel o =>
      rw [LCCFileService.step]
      split
      · apply h.stop _ _ _ _ (fun _ hs => hs)
      · apply h
  | opPause o =>
      rw [LCCFileService.step]
      split
      · apply h.stop _ _ _ _ (fun _ hs => hs)
      · apply h
  | returns i =>
      rw [LCCFileService.step]
      cases s.pending[i]? with
      | none => apply h
      | some t =>
          apply runTail
          exact h.congr rfl rfl rfl rfl rfl
  | progress r =>
      rw [LCCFileService.step]
      split
      · apply h.progressBlock
      · apply h
  | finish r error =>
      rw [LCCFileService.step]
      split
      · apply finishBlock
        exact h.congr rfl rfl rfl rfl rfl
      · apply h
  | addHander hander => exact h.congr rfl rfl rfl rfl rfl
  | deallocHander hander => exact h.congr rfl rfl rfl rfl rfl
  | addObserver o => apply h
  | find finder => apply h
  | edit path content => exact h.congr rfl rfl rfl rfl rfl
  | restart => apply initial

/-- In every state of every run the core is well formed. -/
theorem throughout (db : TaskTable) (disk : Disk String Bytes) (es : List Event) :
  Run.Throughout (LCCFileService.step (quiet md5)) (fun s => WellFormed s.toCore)
    (State.initial db disk) es
  := by
  apply Run.throughout_of_invariant
  · intro s e h
    apply h.step
  · apply WellFormed.initial

end WellFormed

/-- In every state of every run the tables agree. -/
theorem throughout_tablesAgree (md5 : Bytes → String) (db : TaskTable)
    (disk : Disk String Bytes) (es : List Event) :
  Run.Throughout (step (quiet md5)) (fun s => TablesAgree s.toCore) (State.initial db disk) es
  := by
  apply (WellFormed.throughout db disk es).imp
  intro s h
  apply h.toTablesAgree

end LCCFileService
