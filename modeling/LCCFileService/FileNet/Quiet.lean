import LCCFileService.FileNet.LCFileNetService

/-!
# Quiet notifications

Where observers and callbacks do not call back into the service, notifying leaves the core
of the state as it is.
-/

namespace LCCFileService

namespace LCFileNetService

variable {md5 : Bytes → String}

@[simp]
theorem toCore_pSaveCallback (task : TaskRef) (taskId : String) (s : State) :
  (pSaveCallback task taskId s).toCore = s.toCore
  := rfl

@[simp]
theorem toCore_enter (e : Delivery.Entry String Block) (s : State) :
  (s.enter e).toCore = s.toCore
  := rfl

@[simp]
theorem toCore_enterFinish (task : TaskRef) (taskId : String) (s : State) :
  (enterFinish task taskId s).toCore = s.toCore
  := by
  rw [enterFinish]
  cases (s.tasks.cell task).finishCallback with
  | none => rfl
  | some b => rfl

@[simp]
theorem toCore_raise (s : State) :
  s.raise.toCore = s.toCore
  := rfl

@[simp]
theorem toCore_tell (n : Note) (s : State) :
  (tell (quiet md5) n s).toCore = s.toCore
  := rfl

/-- Steps that keep the core keep it when they are repeated. -/
theorem toCore_foldl {α : Type} {f : State → α → State}
    (h : ∀ s a, (f s a).toCore = s.toCore) (as : List α) (s : State) :
  (as.foldl f s).toCore = s.toCore
  := by
  induction as generalizing s with
  | nil => rfl
  | cons a as ih =>
      rw [List.foldl_cons, ih]
      apply h

@[simp]
theorem toCore_tellObservers (kind : NoteKind) (task : TaskRef) (error : Option NSError)
    (s : State) :
  (tellObservers (quiet md5) kind task error s).toCore = s.toCore
  := by
  rw [tellObservers, toCore_foldl (fun s o => toCore_tell _ s)]
  cases s.observer with
  | none => rfl
  | some o => rfl

theorem toCore_enumerate {run : Block → State → State}
    (h : ∀ b s, (run b s).toCore = s.toCore) (callbacks : Option CallbackArray) (s : State) :
  (enumerate run callbacks s).toCore = s.toCore
  := by
  cases callbacks with
  | none => rfl
  | some a => apply toCore_foldl (fun s b => h b s)

@[simp]
theorem toCore_pNotifyProgress (task : TaskRef) (s : State) :
  (pNotifyProgress (quiet md5) task s).toCore = s.toCore
  := by
  rw [pNotifyProgress]
  split
  · rfl
  · rw [pExecuteProgressCallbackTask, toCore_enumerate (fun b s => toCore_tell _ s),
      toCore_tellObservers]

@[simp]
theorem toCore_pNotifyStatusChange (task : TaskRef) (s : State) :
  (pNotifyStatusChange (quiet md5) task s).toCore = s.toCore
  := by
  rw [pNotifyStatusChange, pExecuteStatusTaskCallback,
    toCore_enumerate (fun b s => toCore_tell _ s), toCore_tellObservers]

@[simp]
theorem toCore_pNotifyFinish (task : TaskRef) (error : Option NSError) (s : State) :
  (pNotifyFinish (quiet md5) task error s).toCore = s.toCore
  := by
  rw [pNotifyFinish, pExecuteFinishTaskCallback]
  split
  · rw [toCore_enter]
    apply Eq.trans _ (@toCore_tellObservers md5 .finish task error s)
    apply toCore_enumerate
    intro b s
    rfl
  · rw [toCore_raise, toCore_tellObservers]

/-- The core after the finish notification of a task that had finished already. -/
@[simp]
theorem toCore_alreadyFinished (task : TaskRef) (taskId : String) (s : State) :
  (alreadyFinished (quiet md5) task taskId s).toCore = s.toCore
  := by
  rw [alreadyFinished, toCore_pNotifyFinish, toCore_enter]

end LCFileNetService

/-! ### What the operations and the service do to the core -/

namespace Core

/-- A task gets a status, in memory and in its row. -/
def recordStatus (task : TaskRef) (status : LCFileNetTaskStatus) (c : Core) : Core :=
  (c.setStatus task status).setDb
    (LCFileTaskDB.lcUpdateTaskStatus (c.tasks.cell task).taskId status)

/-- Recording a status keeps all task ids. -/
@[simp]
theorem taskId_recordStatus (task : TaskRef) (status : LCFileNetTaskStatus) (c : Core)
    (r : TaskRef) :
  ((c.recordStatus task status).tasks.cell r).taskId = (c.tasks.cell r).taskId
  := Core.taskId_setTask task (fun t => { t with status }) c r

/-- The sizes of a task are written to its row. -/
def recordSizes (task : TaskRef) (c : Core) : Core :=
  let t := c.tasks.cell task
  c.setDb (LCFileTaskDB.lcUpdateTaskFinishedSize t.taskId t.finishedSize t.totalSize)

/-- A task is saved, failed if there was an error. -/
def recordFinish (task : TaskRef) (error : Option NSError) (c : Core) : Core :=
  let c := if error.isSome then c.setStatus task .failed else c
  c.setDb (LCFileTaskDB.lcSaveTask (c.tasks.cell task))

/-- A task id is taken out of `taskOperationDic`, the task table and the cache. -/
def forget (taskId : String) (c : Core) : Core :=
  { c with
    taskOperationDic := c.taskOperationDic.erase taskId
    db := LCFileTaskDB.lcDeleteTaskByTaskId taskId c.db
    cache := c.cache.erase taskId }

/-- What `lc_startTask:queue:` does after `p_checkTask:`. -/
def startChecked (task : TaskRef) (taskId : String) (c : Core) : Core :=
  match c.cache.lookup taskId with
  | some oldTask =>
      if LCFileNetOperation.resumes (c.tasks.cell oldTask).status then
        LCFileNetService.pAddTask oldTask c
      else c
  | none =>
      match LCFileTaskDB.lcGetTaskByTaskId taskId c.db with
      | some row =>
          let dbTask := c.tasks.next
          let c := LCFileNetService.pSetTask dbTask row.taskId (c.allocTask row.object)
          match row.status with
          | .finish => c
          | .progress | .create =>
              LCFileNetService.pAddTask dbTask (c.setStatus dbTask .interrupt)
          | _ => LCFileNetService.pAddTask dbTask c
      | none => LCFileNetService.startNew task taskId c

/-- What `lc_startTask:queue:` does, after saving the callbacks. -/
def startTask (md5 : Bytes → String) (task : TaskRef) (c : Core) : Core :=
  match (c.tasks.cell task).taskId with
  | some taskId =>
      if LCFileNetService.pCheckTask task c then
        (LCFileNetService.pSetMd5 md5 task c).startChecked task taskId
      else c
  | none => c

end Core

open LCFileNetService

variable {md5 : Bytes → String}

/-- The finish block of the method ends its operation: it does unless a resumption fails. -/
def HanderMethod.Ends (method : HanderMethod) (error : Option NSError) : Prop :=
  method.transfers ∧ ¬ (method.resumes ∧ error.isSome)

instance (method : HanderMethod) (error : Option NSError) : Decidable (method.Ends error) :=
  inferInstanceAs (Decidable (_ ∧ _))

/-- The status an operation gets when its transfer has ended. -/
def outcome (error : Option NSError) : LCFileNetTaskStatus :=
  if error.isSome then .failed else .finish

/-- A task whose status is the outcome already is only saved. -/
theorem Core.recordFinish_of_status {r : TaskRef} {error : Option NSError} {c : Core}
    (h : (c.tasks.cell r).status = outcome error) :
  c.recordFinish r error = c.setDb (LCFileTaskDB.lcSaveTask (c.tasks.cell r))
  := by
  rw [recordFinish]
  cases error with
  | none => rfl
  | some error =>
      have hself : c.setStatus r .failed = c := setStatus_eq_self h
      simp only [Option.isSome_some, if_true]
      rw [hself]

namespace LCFileNetOperation

@[simp]
theorem toCore_pNotifyStart (o : OpRef) (s : State) :
  (pNotifyStart (quiet md5) o s).toCore = s.toCore.recordStatus (s.taskOf o) .progress
  := by
  rw [pNotifyStart, lcNetOperationStart, toCore_pNotifyStatusChange]
  rfl

@[simp]
theorem toCore_pNotifyProgressUpdate (o : OpRef) (s : State) :
  (pNotifyProgressUpdate (quiet md5) o s).toCore = s.toCore.recordSizes (s.taskOf o)
  := by
  rw [pNotifyProgressUpdate, lcNetOperationProgressUpdate, toCore_pNotifyProgress]
  rfl

@[simp]
theorem toCore_pNotifyStatusUpadte (o : OpRef) (status : LCFileNetTaskStatus) (s : State) :
  (pNotifyStatusUpadte (quiet md5) o status s).toCore
    = s.toCore.recordStatus (s.taskOf o) status
  := by
  rw [pNotifyStatusUpadte, lcNetOperationStatusUpadte, toCore_pNotifyStatusChange]
  simp [Core.recordStatus, Core.setStatus, Core.setTask]

@[simp]
theorem toCore_pNotifyFinish (o : OpRef) (error : Option NSError) (s : State) :
  (pNotifyFinish (quiet md5) o error s).toCore = s.toCore.recordFinish (s.taskOf o) error
  := by
  rw [pNotifyFinish, lcNetOperationStatusFinish, LCFileNetService.toCore_pNotifyFinish]
  rfl

@[simp]
theorem toCore_stopTail (status : LCFileNetTaskStatus) (o : OpRef) (s : State) :
  (stopTail (quiet md5) status o s).toCore
    = superCancel o (s.toCore.recordStatus (s.taskOf o) status)
  := by
  rw [stopTail, State.toCore_mapCore, toCore_pNotifyStatusUpadte]

@[simp]
theorem toCore_progressBlock (o : OpRef) (s : State) :
  (progressBlock (quiet md5) o s).toCore
    = if (s.ops.cell o).cancelled then pFinishOperatioin o (s.toCore.recordSizes (s.taskOf o))
      else s.toCore.recordSizes (s.taskOf o)
  := by
  rw [progressBlock, State.toCore_mapCore, toCore_pNotifyProgressUpdate]
  rfl

@[simp]
theorem toCore_enterEnd (o : OpRef) (s : State) :
  (enterEnd o s).toCore = s.toCore
  := by
  rw [enterEnd]
  split
  · split
    · rfl
    · rfl
  · rfl

@[simp]
theorem toCore_ended (o : OpRef) (error : Option NSError) (s : State) :
  (ended (quiet md5) o error s).toCore
    = pFinishOperatioin o
        ((s.toCore.recordStatus (s.taskOf o) (outcome error)).recordFinish (s.taskOf o) error)
  := by
  rw [ended, State.toCore_mapCore, toCore_pNotifyFinish, toCore_pNotifyStatusUpadte,
    toCore_enterEnd]
  rfl

/-- The core after the end of an operation: the outcome becomes the status of the task, and the
task is saved. -/
theorem toCore_ended_outcome (o : OpRef) (error : Option NSError) (s : State) :
  (ended (quiet md5) o error s).toCore
    = pFinishOperatioin o ((s.toCore.recordStatus (s.taskOf o) (outcome error)).setDb
        (LCFileTaskDB.lcSaveTask { s.tasks.cell (s.taskOf o) with status := outcome error }))
  := by
  have hcell : (s.toCore.recordStatus (s.taskOf o) (outcome error)).tasks.cell (s.taskOf o)
      = { s.tasks.cell (s.taskOf o) with status := outcome error } := by
    rw [Core.recordStatus, Core.setDb, Core.cell_setStatus, if_pos rfl]
  rw [toCore_ended, Core.recordFinish_of_status (by rw [hcell]), hcell]

/-- The tasks after the end of an operation. -/
theorem cell_ended (o : OpRef) (error : Option NSError) (s : State) (r : TaskRef) :
  (ended (quiet md5) o error s).tasks.cell r
    = if r = s.taskOf o then { s.tasks.cell (s.taskOf o) with status := outcome error }
      else s.tasks.cell r
  := by
  rw [toCore_ended_outcome]
  apply Core.cell_setStatus

/-- The rows after the end of an operation. -/
theorem get_ended (o : OpRef) (error : Option NSError) (s : State) (k : String) :
  (ended (quiet md5) o error s).db.get k
    = if s.taskIdOf o = some k then
        some ⟨{ s.tasks.cell (s.taskOf o) with status := outcome error }, k⟩
      else s.db.get k
  := by
  rw [toCore_ended_outcome, pFinishOperatioin, Core.setOp, Core.setDb,
    LCFileTaskDB.get_lcSaveTask]
  split
  · next hid => rw [Core.taskIdOf, if_pos hid]
  · next hid =>
      rw [Core.taskIdOf, if_neg hid, Core.recordStatus, Core.setDb, LCFileTaskDB.lcUpdateTaskStatus,
        LCFileTaskDB.get_updateTask, if_neg hid]
      rfl

/-- Only calls of the handler and properties of operations other than the task differ. -/
def SameTables (c c' : Core) : Prop :=
  ∃ ops calls, c' = { c with ops := ops, calls := calls } ∧
    ∀ o, (ops.cell o).task = (c.ops.cell o).task

theorem SameTables.refl (c : Core) :
  SameTables c c
  := ⟨c.ops, c.calls, rfl, fun _ => rfl⟩

theorem SameTables.trans {c c' c'' : Core} (h : SameTables c c') (h' : SameTables c' c'') :
  SameTables c c''
  := by
  obtain ⟨ops, calls, rfl, hops⟩ := h
  obtain ⟨ops', calls', rfl, hops'⟩ := h'
  exact ⟨ops', calls', rfl, fun o => (hops' o).trans (hops o)⟩

theorem SameTables.taskOf {c c' : Core} (h : SameTables c c') (o : OpRef) :
  c'.taskOf o = c.taskOf o
  := by
  obtain ⟨ops, calls, rfl, hops⟩ := h
  apply hops o

theorem SameTables.setOp {o : OpRef} {f : LCFileNetOperation → LCFileNetOperation} {c : Core}
    (hf : (f (c.ops.cell o)).task = (c.ops.cell o).task) :
  SameTables c (c.setOp o f)
  := ⟨_, c.calls, rfl, Heap.map_cell_modify LCFileNetOperation.task hf⟩

theorem SameTables.call (o : OpRef) (method : HanderMethod) (c : Core) :
  SameTables c (c.call o method)
  := ⟨c.ops, _, rfl, fun _ => rfl⟩

theorem SameTables.pFinishOperatioin (o : OpRef) (c : Core) :
  SameTables c (LCFileNetOperation.pFinishOperatioin o c)
  := ⟨_, c.calls, rfl, Heap.map_cell_modify LCFileNetOperation.task rfl⟩

theorem SameTables.pStartUpload (o : OpRef) (c : Core) :
  SameTables c (LCFileNetOperation.pStartUpload o c)
  := by
  rw [LCFileNetOperation.pStartUpload]
  split
  · apply SameTables.call
  · apply SameTables.pFinishOperatioin

theorem SameTables.pStartDownload (o : OpRef) (c : Core) :
  SameTables c (LCFileNetOperation.pStartDownload o c)
  := by
  rw [LCFileNetOperation.pStartDownload]
  split
  · apply SameTables.call
  · apply SameTables.pFinishOperatioin

/-- Before its last line `main` only calls the handler or finishes the operation. -/
theorem SameTables.mainTransfer (o : OpRef) (c : Core) :
  SameTables c (LCFileNetOperation.mainTransfer o c)
  := by
  rw [LCFileNetOperation.mainTransfer]
  split
  · split
    · rw [pResumUpload]
      split
      · apply SameTables.call
      · apply SameTables.refl
    · apply SameTables.pStartUpload
  · split
    · rw [pResumDownLoad]
      split
      · apply SameTables.call
      · apply SameTables.refl
    · apply SameTables.pStartDownload
  · apply SameTables.refl

/-- `main` of an operation with a handler and a task of known type calls the handler. -/
theorem calls_mainTransfer {o : OpRef} {c : Core} (hhander : (c.handerOf o).isSome)
    (htype : (c.tasks.cell (c.taskOf o)).type ≠ .unknown) :
  c.calls.next < (LCFileNetOperation.mainTransfer o c).calls.next
  := by
  have hcall : ∀ method, c.calls.next < (c.call o method).calls.next := fun _ => Nat.lt_succ_self _
  rw [LCFileNetOperation.mainTransfer]
  split
  · split
    · rw [pResumUpload, if_pos hhander]
      apply hcall
    · rw [LCFileNetOperation.pStartUpload, if_pos hhander]
      apply hcall
  · split
    · rw [pResumDownLoad, if_pos hhander]
      apply hcall
    · rw [LCFileNetOperation.pStartDownload, if_pos hhander]
      apply hcall
  · next hunknown => exact absurd hunknown htype

/-- A finish block that ends the operation. -/
theorem finishBlock_ends {method : HanderMethod} {error : Option NSError}
    (h : method.Ends error) (E : Env) (o : OpRef) (s : State) :
  finishBlock E method o error s = ended E o error s
  := by
  cases method with
  | upload => rfl
  | download => rfl
  | resumUpload =>
      cases error with
      | none => rfl
      | some error => apply absurd ⟨rfl, rfl⟩ h.2
  | resumDownload =>
      cases error with
      | none => rfl
      | some error => apply absurd ⟨rfl, rfl⟩ h.2
  | cancel => cases h.1
  | pause => cases h.1

/-- A finish block that does not end its operation does nothing, or starts the transfer that could
not be resumed. -/
theorem finishBlock_of_not_ends {method : HanderMethod} {error : Option NSError}
    (h : ¬ method.Ends error) (E : Env) (o : OpRef) (s : State) :
  finishBlock E method o error s = s ∨
    finishBlock E method o error s = s.mapCore (LCFileNetOperation.pStartUpload o) ∨
    finishBlock E method o error s = s.mapCore (LCFileNetOperation.pStartDownload o)
  := by
  cases method with
  | upload => apply absurd ⟨rfl, by simp [HanderMethod.resumes]⟩ h
  | download => apply absurd ⟨rfl, by simp [HanderMethod.resumes]⟩ h
  | resumUpload =>
      cases error with
      | none => apply absurd ⟨rfl, by simp⟩ h
      | some error => exact Or.inr (Or.inl rfl)
  | resumDownload =>
      cases error with
      | none => apply absurd ⟨rfl, by simp⟩ h
      | some error => exact Or.inr (Or.inr rfl)
  | cancel => exact Or.inl rfl
  | pause => exact Or.inl rfl

/-- A finish block that does not end the operation only calls the handler or finishes the
operation. -/
theorem finishBlock_not_ends {method : HanderMethod} {error : Option NSError}
    (h : ¬ method.Ends error) (E : Env) (o : OpRef) (s : State) :
  SameTables s.toCore (finishBlock E method o error s).toCore
  := by
  obtain heq | heq | heq := finishBlock_of_not_ends h E o s
  · rw [heq]
    apply SameTables.refl
  · rw [heq]
    apply SameTables.pStartUpload
  · rw [heq]
    apply SameTables.pStartDownload

/-- The core after `main`. -/
theorem toCore_main (o : OpRef) (s : State) :
  (main (quiet md5) o s).toCore
    = if s.calls.next < (mainTransfer o s.toCore).calls.next then
        (mainTransfer o s.toCore).await (.main o)
      else (mainTransfer o s.toCore).recordStatus ((mainTransfer o s.toCore).taskOf o) .progress
  := by
  rw [main]
  split
  · rw [State.toCore_mapCore]
  · rw [toCore_pNotifyStart, State.toCore_mapCore]

end LCFileNetOperation

namespace LCFileNetService

@[simp]
theorem toCore_pauseTail (cacheTask : TaskRef) (s : State) :
  (pauseTail (quiet md5) cacheTask s).toCore = s.toCore.setStatus cacheTask .pause
  := by
  rw [pauseTail, toCore_pNotifyStatusChange, State.toCore_mapCore]

@[simp]
theorem toCore_cancelTail (taskId : String) (cacheTask : TaskRef) (s : State) :
  (cancelTail (quiet md5) taskId cacheTask s).toCore
    = (s.toCore.setStatus cacheTask .canceled).forget taskId
  := by
  rw [cancelTail, State.toCore_mapCore, toCore_pNotifyFinish, toCore_pNotifyStatusChange]
  rfl

theorem toCore_startChecked (task : TaskRef) (taskId : String) (s : State) :
  (startChecked (quiet md5) task taskId s).toCore = s.toCore.startChecked task taskId
  := by
  rw [startChecked, Core.startChecked]
  cases s.cache.lookup taskId with
  | some oldTask =>
      simp only [startCached]
      cases (s.tasks.cell oldTask).status with
      | finish => apply toCore_alreadyFinished oldTask taskId s
      | create => rfl
      | progress => rfl
      | failed => rfl
      | canceled => rfl
      | pause => rfl
      | interrupt => rfl
      | unkown => rfl
  | none =>
      simp only
      cases LCFileTaskDB.lcGetTaskByTaskId taskId s.db with
      | none => rfl
      | some row =>
          simp only [startStored]
          cases row.status with
          | finish => apply toCore_alreadyFinished
          | create => rfl
          | progress => rfl
          | failed => rfl
          | canceled => rfl
          | pause => rfl
          | interrupt => rfl
          | unkown => rfl

theorem toCore_lcStartTask (task : TaskRef) (s : State) :
  (lcStartTask (quiet md5) task s).toCore = s.toCore.startTask md5 task
  := by
  rw [lcStartTask, Core.startTask]
  cases (s.tasks.cell task).taskId with
  | none => rfl
  | some taskId =>
      simp only
      split
      · next hcheck =>
          rw [toCore_pSaveCallback] at hcheck
          rw [toCore_startChecked, State.toCore_mapCore, toCore_enterFinish, toCore_pSaveCallback,
            if_pos hcheck]
          rfl
      · next hcheck =>
          rw [toCore_pSaveCallback] at hcheck
          rw [toCore_pNotifyFinish, toCore_enter, toCore_pSaveCallback, if_neg hcheck]

/-- Setting the MD5 of a task keeps its task id. -/
theorem taskId_pSetMd5 (task : TaskRef) (c : Core) (r : TaskRef) :
  ((pSetMd5 md5 task c).tasks.cell r).taskId = (c.tasks.cell r).taskId
  := by
  rw [pSetMd5]
  split
  · split
    · apply Core.taskId_setTask
    · rfl
  · rfl

theorem next_pSetMd5 (task : TaskRef) (c : Core) :
  (pSetMd5 md5 task c).tasks.next = c.tasks.next
  := by
  rw [pSetMd5]
  split
  · split
    · rfl
    · rfl
  · rfl

/-- Setting the MD5 of a task keeps the status and the type of every task. -/
theorem status_pSetMd5 (task : TaskRef) (c : Core) (r : TaskRef) :
  ((pSetMd5 md5 task c).tasks.cell r).status = (c.tasks.cell r).status ∧
    ((pSetMd5 md5 task c).tasks.cell r).type = (c.tasks.cell r).type
  := by
  rw [pSetMd5]
  split
  · split
    · constructor
      · apply Core.map_setTask (fun t : LCFileNetTask => t.status) rfl r
      · apply Core.map_setTask (fun t : LCFileNetTask => t.type) rfl r
    · exact ⟨rfl, rfl⟩
  · exact ⟨rfl, rfl⟩

/-- Setting the MD5 of a task changes tasks only. -/
theorem rest_pSetMd5 (task : TaskRef) (c : Core) :
  (pSetMd5 md5 task c).cache = c.cache ∧ (pSetMd5 md5 task c).ops = c.ops ∧
    (pSetMd5 md5 task c).taskOperationDic = c.taskOperationDic ∧
    (pSetMd5 md5 task c).db = c.db
  := by
  rw [pSetMd5]
  split
  · split
    · exact ⟨rfl, rfl, rfl, rfl⟩
    · exact ⟨rfl, rfl, rfl, rfl⟩
  · exact ⟨rfl, rfl, rfl, rfl⟩

end LCFileNetService

end LCCFileService
