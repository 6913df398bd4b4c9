import LCCFileService.FileNet.Tables

/-!
# The outcome of an operation

A finish ends an operation unless it is the failure of a resumption.  Its outcome, `finish`
or `failed`, is to stay the status of the cached task and of its row until the next call of
the service for the task id.  It does as long as nothing disturbs it: above all, `main` must
have returned when the finish is delivered, since its last line sets the status `progress`.
-/

namespace LCCFileService

open LCFileNetService LCFileNetOperation

/-- The cached task and the row of a task id have the status. -/
def Recorded (taskId : String) (status : LCFileNetTaskStatus) (c : Core) : Prop :=
  (∃ task, c.cache.lookup taskId = some task ∧ (c.tasks.cell task).status = status) ∧
    ∃ row, c.db.get taskId = some row ∧ row.status = status

/-- The task `task` is cached under the task id, and it and its row have the status. -/
structure RecordedAt (taskId : String) (task : TaskRef) (status : LCFileNetTaskStatus)
    (c : Core) : Prop where
  cached : c.cache.lookup taskId = some task
  allocated : task < c.tasks.next
  id : (c.tasks.cell task).taskId = some taskId
  inTask : (c.tasks.cell task).status = status
  inRow : ∃ row, c.db.get taskId = some row ∧ row.status = status

namespace RecordedAt

variable {k : String} {t : TaskRef} {status : LCFileNetTaskStatus} {c : Core}

theorem recorded (h : RecordedAt k t status c) :
  Recorded k status c
  := ⟨⟨t, h.cached, h.inTask⟩, h.inRow⟩

/-! ### Changes that leave the recorded status -/

theorem congr {c' : Core} (h : RecordedAt k t status c) (htasks : c'.tasks = c.tasks)
    (hdb : c'.db = c.db) (hcache : c'.cache = c.cache) :
  RecordedAt k t status c'
  := by
  constructor
  · rw [hcache]
    apply h.cached
  · rw [htasks]
    apply h.allocated
  · rw [htasks]
    apply h.id
  · rw [htasks]
    apply h.inTask
  · rw [hdb]
    apply h.inRow

/-- Setting properties of a task, but not the status of the recorded one. -/
theorem setTask (h : RecordedAt k t status c) {r : TaskRef} {f : LCFileNetTask → LCFileNetTask}
    (hf : r = t → (f (c.tasks.cell r)).status = status) :
  RecordedAt k t status (c.setTask r f)
  := by
  constructor
  · apply h.cached
  · apply h.allocated
  · rw [Core.taskId_setTask]
    apply h.id
  · rw [Core.setTask, Heap.cell_modify]
    split
    · next heq => exact hf heq.symm
    · apply h.inTask
  · apply h.inRow

/-- Setting the status of a task with another task id. -/
theorem setStatus (h : RecordedAt k t status c) {r : TaskRef}
    (hr : (c.tasks.cell r).taskId ≠ some k) (status' : LCFileNetTaskStatus) :
  RecordedAt k t status (c.setStatus r status')
  := by
  apply h.setTask
  rintro rfl
  apply absurd h.id hr

theorem setDb (h : RecordedAt k t status c) {f : TaskTable → TaskTable}
    (hf : ∀ row, c.db.get k = some row →
      ∃ row', (f c.db).get k = some row' ∧ row'.status = row.status) :
  RecordedAt k t status (c.setDb f)
  := by
  constructor
  · apply h.cached
  · apply h.allocated
  · apply h.id
  · apply h.inTask
  · obtain ⟨row, hrow, hstatus⟩ := h.inRow
    obtain ⟨row', hrow', hstatus'⟩ := hf row hrow
    exact ⟨row', hrow', hstatus'.trans hstatus⟩

/-- Updating the row of another task id, or updating other columns than the status. -/
theorem updateTask (h : RecordedAt k t status c) {taskId : Option String}
    {f : LCFileNetTaskFields → LCFileNetTaskFields}
    (hf : taskId = some k → ∀ r, (f r).status = r.status) :
  RecordedAt k t status (c.setDb (LCFileTaskDB.updateTask taskId f))
  := by
  apply h.setDb
  intro row hrow
  rw [LCFileTaskDB.get_updateTask, hrow]
  split
  · next hid => exact ⟨_, rfl, hf hid _⟩
  · exact ⟨row, rfl, rfl⟩

theorem saveTask (h : RecordedAt k t status c) {task : LCFileNetTask}
    (hid : task.taskId ≠ some k) :
  RecordedAt k t status (c.setDb (LCFileTaskDB.lcSaveTask task))
  := by
  apply h.setDb
  intro row hrow
  rw [LCFileTaskDB.get_lcSaveTask, if_neg hid]
  exact ⟨row, hrow, rfl⟩

theorem allocTask (h : RecordedAt k t status c) (task : LCFileNetTask) :
  RecordedAt k t status (c.allocTask task)
  := by
  have hcell := Heap.cell_alloc_of_lt task h.allocated
  constructor
  · apply h.cached
  · apply Nat.lt_succ_of_lt h.allocated
  · rw [Core.allocTask, hcell]
    apply h.id
  · rw [Core.allocTask, hcell]
    apply h.inTask
  · apply h.inRow

theorem pSetTask (h : RecordedAt k t status c) {key : String} (hkey : key ≠ k) (task : TaskRef) :
  RecordedAt k t status (LCFileNetService.pSetTask task key c)
  := by
  constructor
  · rw [LCFileNetService.pSetTask, Dictionary.lookup_insert, if_neg (Ne.symm hkey)]
    apply h.cached
  · apply h.allocated
  · apply h.id
  · apply h.inTask
  · apply h.inRow

theorem forget (h : RecordedAt k t status c) {key : String} (hkey : key ≠ k) :
  RecordedAt k t status (c.forget key)
  := by
  constructor
  · rw [Core.forget, Dictionary.lookup_erase, if_neg (Ne.symm hkey)]
    apply h.cached
  · apply h.allocated
  · apply h.id
  · apply h.inTask
  · rw [Core.forget, LCFileTaskDB.get_lcDeleteTaskByTaskId, if_neg hkey]
    apply h.inRow

/-! ### Operations -/

theorem recordStatus (h : RecordedAt k t status c) {r : TaskRef}
    (hr : (c.tasks.cell r).taskId ≠ some k) (status' : LCFileNetTaskStatus) :
  RecordedAt k t status (c.recordStatus r status')
  := by
  apply (h.setStatus hr status').updateTask
  intro hid
  apply absurd hid hr

theorem recordSizes (h : RecordedAt k t status c) (r : TaskRef) :
  RecordedAt k t status (c.recordSizes r)
  := h.updateTask (fun _ _ => rfl)

theorem recordFinish (h : RecordedAt k t status c) {r : TaskRef}
    (hr : (c.tasks.cell r).taskId ≠ some k) (error : Option NSError) :
  RecordedAt k t status (c.recordFinish r error)
  := by
  rw [Core.recordFinish]
  split
  · apply (h.setStatus hr .failed).saveTask
    rw [Core.setStatus, Core.taskId_setTask]
    apply hr
  · apply h.saveTask hr

theorem pFinishOperatioin (h : RecordedAt k t status c) (o : OpRef) :
  RecordedAt k t status (LCFileNetOperation.pFinishOperatioin o c)
  := h.congr rfl rfl rfl

theorem superCancel (h : RecordedAt k t status c) (o : OpRef) :
  RecordedAt k t status (LCFileNetOperation.superCancel o c)
  := h.congr rfl rfl rfl

variable {s : State} {md5 : Bytes → String}

/-- `main` of an operation of another task id, or one that calls the handler. -/
theorem main (h : RecordedAt k t status s.toCore) {o : OpRef}
    (ho : s.taskIdOf o = some k → (s.handerOf o).isSome ∧
      (s.tasks.cell (s.taskOf o)).type ≠ .unknown) :
  RecordedAt k t status (LCFileNetOperation.main (quiet md5) o s).toCore
  := by
  obtain ⟨ops, calls, heq, htask⟩ := SameTables.mainTransfer o s.toCore
  have htransfer : RecordedAt k t status (mainTransfer o s.toCore) := by
    rw [heq]
    exact h.congr rfl rfl rfl
  rw [toCore_main]
  split
  · exact htransfer.congr rfl rfl rfl
  · next hnot =>
      apply htransfer.recordStatus
      intro hid
      apply hnot
      have hid' : s.taskIdOf o = some k := by
        rw [heq, Core.taskOf, htask] at hid
        apply hid
      apply calls_mainTransfer (ho hid').1 (ho hid').2

/-- Starting an operation of another task id, or one that is cancelled or calls the handler. -/
theorem start (h : RecordedAt k t status s.toCore) {o : OpRef}
    (ho : s.taskIdOf o = some k → (s.ops.cell o).cancelled = false →
      (s.handerOf o).isSome ∧ (s.tasks.cell (s.taskOf o)).type ≠ .unknown) :
  RecordedAt k t status (LCFileNetOperation.start (quiet md5) o s).toCore
  := by
  rw [LCFileNetOperation.start]
  split
  · exact h.congr rfl rfl rfl
  · next hnot =>
      have htaskOf : (s.toCore.setOp o (fun op => { op with executing := true })).taskOf o
          = s.taskOf o := by
        apply Core.taskOf_setOp
        rfl
      apply RecordedAt.main
      · exact h.congr rfl rfl rfl
      · intro hid
        rw [State.toCore_mapCore, htaskOf]
        rw [State.toCore_mapCore, Core.taskIdOf, htaskOf] at hid
        have hhander := ho hid (by simpa using hnot)
        refine ⟨?_, hhander.2⟩
        rw [Core.handerOf_setOp]
        · apply hhander.1
        · rfl

/-- Stopping an operation of another task id. -/
theorem stopTail (h : RecordedAt k t status s.toCore) {o : OpRef}
    (ho : s.taskIdOf o ≠ some k) (status' : LCFileNetTaskStatus) :
  RecordedAt k t status (LCFileNetOperation.stopTail (quiet md5) status' o s).toCore
  := by
  rw [toCore_stopTail]
  apply (h.recordStatus ho status').superCancel

theorem progressBlock (h : RecordedAt k t status s.toCore) (o : OpRef) :
  RecordedAt k t status (LCFileNetOperation.progressBlock (quiet md5) o s).toCore
  := by
  rw [toCore_progressBlock]
  split
  · apply (h.recordSizes _).pFinishOperatioin
  · apply h.recordSizes

/-- The end of an operation records its outcome. -/
theorem of_ended {o : OpRef} {error : Option NSError} (hcached : s.cache.lookup k = some t)
    (hlt : t < s.tasks.next) (hid : (s.tasks.cell t).taskId = some k)
    (ho : s.taskIdOf o = some k)
    (ht : s.taskOf o = t ∨ (s.tasks.cell t).status = outcome error) :
  RecordedAt k t (outcome error) (LCFileNetOperation.ended (quiet md5) o error s).toCore
  := by
  constructor
  · rw [toCore_ended_outcome]
    apply hcached
  · rw [toCore_ended_outcome]
    apply hlt
  · rw [cell_ended]
    split
    · apply ho
    · apply hid
  · rw [cell_ended]
    split
    · rfl
    · next hne =>
        cases ht with
        | inl heq => apply absurd heq.symm hne
        | inr hstatus => apply hstatus
  · use ⟨{ s.tasks.cell (s.taskOf o) with status := outcome error }, k⟩
    rw [get_ended, if_pos ho]
    exact ⟨rfl, rfl⟩

/-- The end of an operation of another task id, or with the recorded outcome. -/
theorem ended (h : RecordedAt k t status s.toCore) {o : OpRef} {error : Option NSError}
    (ho : s.taskIdOf o = some k → outcome error = status) :
  RecordedAt k t status (LCFileNetOperation.ended (quiet md5) o error s).toCore
  := by
  by_cases hid : s.taskIdOf o = some k
  · obtain rfl := ho hid
    apply of_ended h.cached h.allocated h.id hid
    right
    apply h.inTask
  · rw [toCore_ended]
    apply ((h.recordStatus hid _).recordFinish _ error).pFinishOperatioin
    rw [Core.taskId_recordStatus]
    apply hid

/-- A finish block that does not end an operation of the task id, unless with the recorded
outcome. -/
theorem finishBlock (h : RecordedAt k t status s.toCore) {method : HanderMethod} {o : OpRef}
    {error : Option NSError}
    (ho : method.Ends error → s.taskIdOf o = some k → outcome error = status) :
  RecordedAt k t status (LCFileNetOperation.finishBlock (quiet md5) method o error s).toCore
  := by
  by_cases hends : method.Ends error
  · rw [finishBlock_ends hends]
    apply h.ended (ho hends)
  · obtain ⟨ops, calls, heq, -⟩ := finishBlock_not_ends hends (quiet md5) o s
    rw [heq]
    exact h.congr rfl rfl rfl

/-! ### The service -/

theorem pAddTask (h : RecordedAt k t status c) (task : TaskRef) :
  RecordedAt k t status (LCFileNetService.pAddTask task c)
  := by
  rw [LCFileNetService.pAddTask]
  split
  · apply h
  · exact h.congr rfl rfl rfl
  · apply h

theorem pSetMd5 (h : RecordedAt k t status c) (task : TaskRef) :
  RecordedAt k t status (LCFileNetService.pSetMd5 md5 task c)
  := by
  rw [LCFileNetService.pSetMd5]
  split
  · split
    · apply h.setTask
      rintro rfl
      apply h.inTask
    · apply h
  · apply h

/-- Caching a task read from the row of another task id. -/
theorem pSetTask_object (h : RecordedAt k t status c) {row : LCFileNetTaskRow}
    (hrow : row.taskId ≠ k) :
  RecordedAt k t status
    (LCFileNetService.pSetTask c.tasks.next row.taskId (c.allocTask row.object))
  := (h.allocTask row.object).pSetTask hrow c.tasks.next

/-- The new task read from a row of another task id gets another status. -/
theorem interrupt (h : RecordedAt k t status c) {row : LCFileNetTaskRow}
    (hrow : row.taskId ≠ k) :
  RecordedAt k t status
    ((LCFileNetService.pSetTask c.tasks.next row.taskId (c.allocTask row.object)).setStatus
      c.tasks.next .interrupt)
  := by
  apply (h.pSetTask_object hrow).setStatus
  rw [LCFileNetService.pSetTask, Core.allocTask, Heap.cell_alloc_next]
  rintro ⟨⟩
  apply hrow rfl

/-- Starting a task with another task id. -/
theorem startChecked (h : RecordedAt k t status c) {task : TaskRef} {taskId : String}
    (hid : (c.tasks.cell task).taskId = some taskId) (hne : taskId ≠ k) :
  RecordedAt k t status (c.startChecked task taskId)
  := by
  rw [Core.startChecked]
  split
  · split
    · apply h.pAddTask
    · apply h
  · split
    · next row hrow =>
        have hne' : row.taskId ≠ k := by
          rw [LCFileTaskDB.taskId_of_get hrow]
          apply hne
        simp only
        split
        · apply h.pSetTask_object hne'
        · apply (h.interrupt hne').pAddTask
        · apply (h.interrupt hne').pAddTask
        · apply (h.pSetTask_object hne').pAddTask
    · apply RecordedAt.pAddTask
      apply (h.pSetTask hne task).saveTask
      rw [hid]
      rintro ⟨⟩
      apply hne rfl

/-- Starting a task with another task id. -/
theorem startTask (h : RecordedAt k t status c) {task : TaskRef}
    (hne : (c.tasks.cell task).taskId ≠ some k) :
  RecordedAt k t status (c.startTask md5 task)
  := by
  rw [Core.startTask]
  split
  · next taskId hid =>
      split
      · apply (h.pSetMd5 task).startChecked
        · rw [taskId_pSetMd5]
          apply hid
        · rintro rfl
          apply hne hid
      · apply h
  · apply h

theorem lcResumTask (h : RecordedAt k t status s.toCore) (hwf : WellFormed s.toCore)
    {taskId : String} (hne : taskId ≠ k) :
  RecordedAt k t status (LCFileNetService.lcResumTask (quiet md5) taskId s).toCore
  := by
  rw [LCFileNetService.lcResumTask]
  split
  · next task hcache =>
      split
      · apply h
      · rw [toCore_lcStartTask]
        apply h.startTask
        rw [(hwf.cached taskId task hcache).1]
        rintro ⟨⟩
        apply hne rfl
  · apply h

/-- The end of a cancellation of another task id. -/
theorem cancelTail (h : RecordedAt k t status s.toCore) {taskId : String} (hne : taskId ≠ k)
    {cacheTask : TaskRef} (hid : (s.tasks.cell cacheTask).taskId ≠ some k) :
  RecordedAt k t status (LCFileNetService.cancelTail (quiet md5) taskId cacheTask s).toCore
  := by
  rw [toCore_cancelTail]
  apply (h.setStatus hid .canceled).forget hne

theorem pauseTail (h : RecordedAt k t status s.toCore) {cacheTask : TaskRef}
    (hid : (s.tasks.cell cacheTask).taskId ≠ some k) :
  RecordedAt k t status (LCFileNetService.pauseTail (quiet md5) cacheTask s).toCore
  := by
  rw [toCore_pauseTail]
  apply h.setStatus hid

/-- Stopping an operation of another task id, or one that calls the handler or is stopped
already, leaves the recorded status if what follows does. -/
theorem stop (h : RecordedAt k t status s.toCore) (hwf : WellFormed s.toCore)
    (method : HanderMethod) (status' : LCFileNetTaskStatus) {o : OpRef}
    (ho : s.taskIdOf o = some k → callsHander o s.toCore ∨ stoppable o s.toCore = false)
    (tail : Tail) {rest : State → State}
    (hrest : ∀ s', RecordedAt k t status s'.toCore → WellFormed s'.toCore →
      (∀ r, (s'.tasks.cell r).taskId = (s.tasks.cell r).taskId) →
      RecordedAt k t status (rest s').toCore) :
  RecordedAt k t status
    (LCFileNetOperation.stop (quiet md5) method status' o tail rest s).toCore
  := by
  rw [LCFileNetOperation.stop]
  split
  · exact h.congr rfl rfl rfl
  · next hcalls =>
      split
      · next hstoppable =>
          have hid : s.taskIdOf o ≠ some k := by
            intro hid
            cases ho hid with
            | inl h => apply hcalls h
            | inr h => cases hstoppable.symm.trans h
          apply hrest _ (h.stopTail hid status') (hwf.stopTail status' o)
          intro r
          rw [toCore_stopTail]
          apply Core.taskId_recordStatus
      · apply hrest _ (h.superCancel o) (hwf.superCancel o)
        intro r
        rfl

/-- The operation stored under another task id is none of a task with the task id. -/
theorem taskIdOf_stored (hwf : WellFormed c) {taskId : String} (hne : taskId ≠ k) {o : OpRef}
    (ho : c.taskOperationDic.lookup taskId = some o) :
  c.taskIdOf o ≠ some k
  := by
  rw [(hwf.taskIdOf ho).2]
  rintro ⟨⟩
  apply hne rfl

theorem lcCancelTask (h : RecordedAt k t status s.toCore) (hwf : WellFormed s.toCore)
    {taskId : String} (hne : taskId ≠ k) :
  RecordedAt k t status (LCFileNetService.lcCancelTask (quiet md5) taskId s).toCore
  := by
  rw [LCFileNetService.lcCancelTask]
  split
  · apply h
  · next cacheTask hcache =>
      have hid : (s.tasks.cell cacheTask).taskId ≠ some k := by
        rw [(hwf.cached taskId cacheTask hcache).1]
        rintro ⟨⟩
        apply hne rfl
      split
      · apply h
      · split
        · next o ho =>
            have hother := taskIdOf_stored hwf hne ho
            apply h.stop hwf .cancel .canceled (fun hid => absurd hid hother)
            intro s' h' _ hids
            apply h'.cancelTail hne
            rw [hids]
            apply hid
        · apply h.cancelTail hne hid

/-- Pausing tasks with other task ids, or the recorded one when it has finished. -/
theorem pauseTasks (h : RecordedAt k t status s.toCore) (hwf : WellFormed s.toCore)
    {taskIds : List String} (hne : k ∈ taskIds → status = .finish) :
  RecordedAt k t status (LCFileNetService.pauseTasks (quiet md5) taskIds s).toCore
  := by
  induction taskIds generalizing s with
  | nil => apply h
  | cons taskId taskIds ih =>
      rw [List.mem_cons] at hne
      have hne' : k ∈ taskIds → status = .finish := fun hmem => hne (Or.inr hmem)
      rw [LCFileNetService.pauseTasks]
      split
      · apply ih h hwf hne'
      · next cacheTask hcache =>
          split
          · apply ih h hwf hne'
          · next hfinish =>
              have hother : taskId ≠ k := by
                rintro rfl
                obtain rfl := Option.some.inj (hcache.symm.trans h.cached)
                apply hfinish
                rw [h.inTask, hne (Or.inl rfl)]
              have hid : (s.tasks.cell cacheTask).taskId ≠ some k := by
                rw [(hwf.cached taskId cacheTask hcache).1]
                rintro ⟨⟩
                apply hother rfl
              split
              · next o ho =>
                  have ho' := taskIdOf_stored hwf hother ho
                  apply h.stop hwf .pause .pause (fun hid => absurd hid ho')
                  intro s' h' hwf' hids
                  apply ih _ (hwf'.pauseTail cacheTask) hne'
                  apply h'.pauseTail
                  rw [hids]
                  apply hid
              · apply ih (h.pauseTail hid) (hwf.pauseTail cacheTask) hne'

theorem lcGetTask (h : RecordedAt k t status c) {taskId : String} (hne : taskId ≠ k) :
  RecordedAt k t status (LCFileNetService.lcGetTask taskId c)
  := by
  rw [LCFileNetService.lcGetTask]
  split
  · apply h
  · split
    · next row hrow =>
        have hne' : row.taskId ≠ k := by
          rw [LCFileTaskDB.taskId_of_get hrow]
          apply hne
        simp only
        split
        · apply h.interrupt hne'
        · apply h.interrupt hne'
        · apply h.pSetTask_object hne'
    · apply h

end RecordedAt

/-! ### Steps -/

/-- The event is a call of the service for the task id. -/
def CallFor (taskId : String) (s : State) : Event → Prop
  | .startTask task => (s.tasks.cell task).taskId = some taskId
  | .resumTask taskId' => taskId' = taskId
  | .pauseTask taskId' => taskId' = taskId
  | .pauseAllTask => taskId ∈ s.taskOperationDic.keys
  | .cancelTask taskId' => taskId' = taskId
  | .getTask taskId' => taskId' = taskId
  | .updatetask key _ => key = taskId
  | _ => False

/-- The tail goes on with an operation or a task of the task id; pausing a task that has
finished is no such thing. -/
def Tail.Concerns (taskId : String) (status : LCFileNetTaskStatus) (c : Core) : Tail → Prop
  | .main o | .cancel o | .pause o => c.taskIdOf o = some taskId
  | .lcCancelTask o taskId' cacheTask =>
      c.taskIdOf o = some taskId ∨ taskId' = taskId ∨
        (c.tasks.cell cacheTask).taskId = some taskId
  | .lcPauseTask o cacheTask taskIds =>
      c.taskIdOf o = some taskId ∨ (c.tasks.cell cacheTask).taskId = some taskId ∨
        (taskId ∈ taskIds ∧ status ≠ .finish)

/-- The event disturbs the recorded status: a pending `main` or a pending call of the service
goes on with the task id; an operation of the task id is started, cancelled or paused without
handler, or ends with another outcome; or the application sets the status of the task. -/
def Disturbs (taskId : String) (status : LCFileNetTaskStatus) (s : State) : Event → Prop
  | .returns i => ∃ t ∈ s.pending[i]?, t.Concerns taskId status s.toCore
  | .opStart o =>
      s.taskIdOf o = some taskId ∧ (s.ops.cell o).cancelled = false ∧
        (s.handerOf o = none ∨ (s.tasks.cell (s.taskOf o)).type = .unknown)
  | .opCancel o | .opPause o =>
      s.taskIdOf o = some taskId ∧ callsHander o s.toCore = false ∧ stoppable o s.toCore
  | .finish r error =>
      (s.calls.cell r).method.Ends error ∧ s.taskIdOf (s.calls.cell r).op = some taskId ∧
        outcome error ≠ status
  | .set task t => s.cache.lookup taskId = some task ∧ t.status ≠ status
  | _ => False

namespace RecordedAt

variable {k : String} {t : TaskRef} {status : LCFileNetTaskStatus} {s : State}
  {md5 : Bytes → String}

theorem runTail (h : RecordedAt k t status s.toCore) (hwf : WellFormed s.toCore) {tail : Tail}
    (htail : ¬ tail.Concerns k status s.toCore) :
  RecordedAt k t status (LCFileNetService.runTail (quiet md5) tail s).toCore
  := by
  cases tail with
  | main o =>
      rw [LCFileNetService.runTail, toCore_pNotifyStart]
      apply h.recordStatus htail .progress
  | cancel o => apply h.stopTail htail .canceled
  | pause o => apply h.stopTail htail .pause
  | lcCancelTask o taskId cacheTask =>
      simp only [Tail.Concerns, not_or] at htail
      obtain ⟨ho, hne, hid⟩ := htail
      apply (h.stopTail ho .canceled).cancelTail hne
      rw [toCore_stopTail]
      intro hid'
      apply hid
      rw [← hid']
      apply (Core.taskId_recordStatus _ _ _ _).symm
  | lcPauseTask o cacheTask taskIds =>
      simp only [Tail.Concerns, not_or, not_and, not_not] at htail
      obtain ⟨ho, hid, hne⟩ := htail
      apply pauseTasks _ ((hwf.stopTail .pause o).pauseTail cacheTask) hne
      apply (h.stopTail ho .pause).pauseTail
      rw [toCore_stopTail]
      intro hid'
      apply hid
      rw [← hid']
      apply (Core.taskId_recordStatus _ _ _ _).symm

/-- A queue starts an operation of another task id, or one that is cancelled or calls the
handler. -/
theorem opStart (h : RecordedAt k t status s.toCore) {o : OpRef}
    (ho : s.taskIdOf o = some k → (s.ops.cell o).cancelled = false →
      (s.handerOf o).isSome ∧ (s.tasks.cell (s.taskOf o)).type ≠ .unknown) :
  RecordedAt k t status (LCFileNetOperation.start (quiet md5) o
    (s.mapCore (·.setOp o (fun op => { op with started := true })))).toCore
  := by
  have htaskOf : (s.toCore.setOp o (fun op => { op with started := true })).taskOf o
      = s.taskOf o := by
    apply Core.taskOf_setOp
    rfl
  have hhanderOf : (s.toCore.setOp o (fun op => { op with started := true })).handerOf o
      = s.handerOf o := by
    apply Core.handerOf_setOp
    rfl
  apply RecordedAt.start
  · exact h.congr rfl rfl rfl
  · intro hid hcancelled
    rw [State.toCore_mapCore, Core.taskIdOf, htaskOf] at hid
    rw [State.toCore_mapCore, Core.setOp, Heap.cell_modify_self] at hcancelled
    rw [State.toCore_mapCore, hhanderOf, htaskOf]
    apply ho hid hcancelled

/-- A step that is no call for the task id and does not disturb it leaves the recorded
status. -/
theorem step (h : RecordedAt k t status s.toCore) (hwf : WellFormed s.toCore) {e : Event}
    (hrestart : e ≠ .restart) (hcall : ¬ CallFor k s e) (hdisturbs : ¬ Disturbs k status s e) :
  RecordedAt k t status (LCCFileService.step (quiet md5) s e).toCore
  := by
  cases e with
  | create t => apply h.allocTask
  | set task t' =>
      rw [LCCFileService.step]
      split
      · apply h.setTask
        rintro rfl
        by_contra hstatus
        apply hdisturbs ⟨h.cached, hstatus⟩
      · apply h
  | startTask task =>
      rw [LCCFileService.step]
      split
      · rw [toCore_lcStartTask]
        apply h.startTask hcall
      · apply h
  | resumTask taskId => apply h.lcResumTask hwf hcall
  | pauseTask taskId =>
      apply h.pauseTasks hwf
      intro hmem
      apply absurd (List.mem_singleton.mp hmem).symm hcall
  | pauseAllTask =>
      apply h.pauseTasks hwf
      intro hmem
      apply absurd hmem hcall
  | cancelTask taskId => apply h.lcCancelTask hwf hcall
  | getTask taskId => apply h.lcGetTask hcall
  | updatetask key filePath =>
      apply h.updateTask
      intro _ _
      rfl
  | opStart o =>
      rw [LCCFileService.step]
      split
      · apply h.opStart
        intro hid hcancelled
        by_contra hnot
        apply hdisturbs
        refine ⟨hid, hcancelled, ?_⟩
        rw [not_and_or, Option.not_isSome_iff_eq_none, not_not] at hnot
        apply hnot
      · apply h
  | opCancel o =>
      rw [LCCFileService.step]
      split
      · apply h.stop hwf _ _ _ _ (fun s' h' _ _ => h')
        intro hid
        by_contra hnot
        simp only [not_or, Bool.not_eq_true, Bool.not_eq_false] at hnot
        apply hdisturbs ⟨hid, hnot.1, hnot.2⟩
      · apply h
  | opPause o =>
      rw [LCCFileService.step]
      split
      · apply h.stop hwf _ _ _ _ (fun s' h' _ _ => h')
        intro hid
        by_contra hnot
        simp only [not_or, Bool.not_eq_true, Bool.not_eq_false] at hnot
        apply hdisturbs ⟨hid, hnot.1, hnot.2⟩
      · apply h
  | returns i =>
      rw [LCCFileService.step]
      cases htail : s.pending[i]? with
      | none => apply h
      | some tail =>
          apply runTail
          · exact h.congr rfl rfl rfl
          · exact hwf.congr rfl rfl rfl rfl rfl
          · intro hconcerns
            apply hdisturbs ⟨tail, htail, hconcerns⟩
  | progress r =>
      rw [LCCFileService.step]
      split
      · apply h.progressBlock
      · apply h
  | finish r error =>
      rw [LCCFileService.step]
      split
      · apply finishBlock
        · exact h.congr rfl rfl rfl
        · intro hends hid
          by_contra houtcome
          apply hdisturbs ⟨hends, hid, houtcome⟩
      · apply h
  | addHander hander => exact h.congr rfl rfl rfl
  | deallocHander hander => exact h.congr rfl rfl rfl
  | addObserver o => apply h
  | find finder => apply h
  | edit path content => exact h.congr rfl rfl rfl
  | restart => apply absurd rfl hrestart

/-- A run without a call for the task id and without disturbance leaves the recorded status. -/
theorem final (h : RecordedAt k t status s.toCore) (hwf : WellFormed s.toCore)
    {es : List Event} (hrestart : .restart ∉ es)
    (hcall : Run.Along (LCCFileService.step (quiet md5)) (fun s e => ¬ CallFor k s e) s es)
    (hdisturbs : Run.Along (LCCFileService.step (quiet md5))
      (fun s e => ¬ Disturbs k status s e) s es) :
  RecordedAt k t status (Run.final (LCCFileService.step (quiet md5)) s es).toCore
  := by
  induction es generalizing s with
  | nil => apply h
  | cons e es ih =>
      rw [List.mem_cons, not_or] at hrestart
      apply ih _ (hwf.step e) hrestart.2 hcall.2 hdisturbs.2
      apply h.step hwf (Ne.symm hrestart.1) hcall.1 hdisturbs.1

end RecordedAt

/-! ### Runs -/

/-- The finish event of the call ends an operation of the task id. -/
def EndsFor (taskId : String) (r : CallRef) (error : Option NSError) (s : State) : Prop :=
  r < s.calls.next ∧ (s.calls.cell r).answered = false ∧ (s.calls.cell r).method.Ends error ∧
    s.taskIdOf (s.calls.cell r).op = some taskId

instance (taskId : String) (r : CallRef) (error : Option NSError) (s : State) :
    Decidable (EndsFor taskId r error s) :=
  inferInstanceAs (Decidable (_ ∧ _))

/-- The run over `es` from `s` begins with `pre`, then a finish event ends an operation of the
task id, and in `mid` there is no call for the task id yet. -/
structure Since (md5 : Bytes → String) (s : State) (es pre : List Event) (r : CallRef)
    (error : Option NSError) (mid : List Event) (taskId : String) : Prop where
  isPrefix : pre ++ .finish r error :: mid <+: es
  endsFor : EndsFor taskId r error (Run.final (step (quiet md5)) s pre)
  noRestart : .restart ∉ mid
  noCall : Run.Along (step (quiet md5)) (fun s e => ¬ CallFor taskId s e)
    (Run.final (step (quiet md5)) s (pre ++ [.finish r error])) mid

/-- Whenever in the run an operation of a task id has ended, its outcome stays recorded until the
next call for the task id, as long as the process lives. -/
def OutcomeStays (md5 : Bytes → String) (s : State) (es : List Event) : Prop :=
  ∀ pre r error mid taskId, Since md5 s es pre r error mid taskId →
    Recorded taskId (outcome error)
      (Run.final (step (quiet md5)) s (pre ++ .finish r error :: mid)).toCore

/-- The task of the operation that made the call is cached under the task id. -/
def OfCached (taskId : String) (r : CallRef) (s : State) : Prop :=
  s.cache.lookup taskId = some (s.taskOf (s.calls.cell r).op)

instance (taskId : String) (r : CallRef) (s : State) : Decidable (OfCached taskId r s) :=
  inferInstanceAs (Decidable (_ = _))

/-- Whenever in the run an operation of a task id has ended, its task was the cached one, and
nothing disturbs its outcome until the next call for the task id. -/
def Undisturbed (md5 : Bytes → String) (s : State) (es : List Event) : Prop :=
  ∀ pre r error mid taskId, Since md5 s es pre r error mid taskId →
    OfCached taskId r (Run.final (step (quiet md5)) s pre) ∧
      Run.Along (step (quiet md5)) (fun s e => ¬ Disturbs taskId (outcome error) s e)
        (Run.final (step (quiet md5)) s (pre ++ [.finish r error])) mid

/-- The end of an operation of the cached task records its outcome. -/
theorem recordedAt_finish {md5 : Bytes → String} {s : State} (hwf : WellFormed s.toCore)
    {r : CallRef} {error : Option NSError} {k : String} (hends : EndsFor k r error s)
    (hcached : OfCached k r s) :
  RecordedAt k (s.taskOf (s.calls.cell r).op) (outcome error)
    (step (quiet md5) s (.finish r error)).toCore
  := by
  obtain ⟨hr, -, hmethod, hid⟩ := hends
  have hlt : s.taskOf (s.calls.cell r).op < s.tasks.next := hwf.allocated k _ hcached
  rw [step, if_pos hr, finishBlock_ends hmethod]
  have hanswered : (s.mapCore (·.answer r)).cache.lookup k
      = some ((s.mapCore (·.answer r)).taskOf (s.calls.cell r).op) := hcached
  apply RecordedAt.of_ended hanswered hlt hid hid (Or.inl rfl)

/-- In an undisturbed run of the system the outcomes stay recorded. -/
theorem outcomeStays_of_undisturbed (md5 : Bytes → String) (db : TaskTable)
    (disk : Disk String Bytes) (es : List Event)
    (h : Undisturbed md5 (State.initial db disk) es) :
  OutcomeStays md5 (State.initial db disk) es
  := by
  intro pre r error mid k hsince
  obtain ⟨hcached, hdisturbs⟩ := h pre r error mid k hsince
  have hwf := (@WellFormed.throughout md5 db disk pre).final
  have hrecorded := @recordedAt_finish md5 _ hwf r error k hsince.endsFor hcached
  have hnoCall := hsince.noCall
  rw [Run.final_append] at hnoCall hdisturbs
  rw [Run.final_append]
  apply (hrecorded.final (hwf.step _) hsince.noRestart hnoCall hdisturbs).recorded

/-- A download whose operation has called the handler. -/
def downloading : List Event :=
  [.create { taskId := "k", type := .download }, .addHander 0, .startTask 0, .opStart 0]

/-- The only end in a run is the one it shows. -/
theorem eq_of_finish_downloading {pre mid : List Event} {r : CallRef} {error : Option NSError}
    (h : pre ++ .finish r error :: mid <+:
      downloading ++ [.returns 0, .finish 0 none, .progress 0]) :
  pre = downloading ++ [.returns 0] ∧ r = 0 ∧ error = none ∧ (mid = [] ∨ mid = [.progress 0])
  := by
  obtain ⟨post, hpost⟩ := h
  rcases pre with _ | ⟨e₁, _ | ⟨e₂, _ | ⟨e₃, _ | ⟨e₄, _ | ⟨e₅, _ | ⟨e₆, _ | ⟨e₇, pre⟩⟩⟩⟩⟩⟩⟩ <;>
    simp [downloading, List.append_eq_singleton_iff] at hpost ⊢
  grind

/-- A download that ends after `main` has returned, with a late progress, keeps its outcome. -/
theorem outcomeStays_downloading :
  OutcomeStays (fun _ => "") (State.initial ∅ (fun _ => none))
    (downloading ++ [.returns 0, .finish 0 none, .progress 0])
  := by
  apply outcomeStays_of_undisturbed
  intro pre r error mid k hsince
  obtain ⟨rfl, rfl, rfl, hmid⟩ := eq_of_finish_downloading hsince.isPrefix
  have hk : (Run.final (step (quiet (fun _ => ""))) (State.initial ∅ (fun _ => none))
      (downloading ++ [.returns 0])).taskIdOf 0 = some "k" := by
    decide +kernel
  have hop : ((Run.final (step (quiet (fun _ => ""))) (State.initial ∅ (fun _ => none))
      (downloading ++ [.returns 0])).calls.cell 0).op = 0 := by
    decide +kernel
  have hid := hsince.endsFor.2.2.2
  rw [hop] at hid
  obtain rfl := Option.some.inj (hid.symm.trans hk)
  constructor
  · decide +kernel
  · cases hmid with
    | inl hmid =>
        rw [hmid]
        trivial
    | inr hmid =>
        rw [hmid]
        exact ⟨id, trivial⟩

/-- The handler ends the download before `main` has returned. -/
theorem not_outcomeStays_synchronous :
  ¬ OutcomeStays (fun _ => "") (State.initial ∅ (fun _ => none))
      (downloading ++ [.finish 0 none, .returns 0])
  := by
  intro h
  have hsince : Since (fun _ => "") (State.initial ∅ (fun _ => none))
      (downloading ++ [.finish 0 none, .returns 0]) downloading 0 none [.returns 0] "k" := by
    constructor
    · simp
    · decide +kernel
    · simp
    · simp [Run.Along, CallFor]
  obtain ⟨-, row, hrow, hstatus⟩ := h downloading 0 none [.returns 0] "k" hsince
  have hprogress : ((Run.final (step (quiet (fun _ => ""))) (State.initial ∅ (fun _ => none))
      (downloading ++ [.finish 0 none, .returns 0])).db.get "k").map (fun row => row.status)
        = some .progress := by
    decide +kernel
  rw [hrow] at hprogress
  cases hstatus.symm.trans (Option.some.inj hprogress)

end LCCFileService
