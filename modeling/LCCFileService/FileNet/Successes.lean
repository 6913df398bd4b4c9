import LCCFileService.FileNet.Tables
import LCCFileService.FileNet.Operations
import LCCFileService.FileNet.Telling

/-!
# Successes

A success is a finish of a task that is told without error.  Between the events of the
application the service leaves the disk alone, and of every task object what its transfer
is about.  It tells a success only when a transfer has ended without error, and when a
finished task is started again.
-/

namespace LCCFileService

open LCFileNetService LCFileNetOperation

/-- The note tells that a task has finished without error. -/
def Note.success (n : Note) : Bool := n.kind = .finish && n.error.isNone

/-- What a transfer of the task is about: its direction, its object and its file. -/
def LCFileNetTask.place (t : LCFileNetTask) :
    LCFileNetTaskType × Option String × Option String :=
  (t.type, t.fileKey, t.filePath)

/-- From `c` to `c'` no file changes, and no task changes what its transfer is about. -/
structure Leaves (c c' : Core) : Prop where
  disk : c'.disk = c.disk
  tasks_le : c.tasks.next ≤ c'.tasks.next
  place : ∀ r < c.tasks.next, (c'.tasks.cell r).place = (c.tasks.cell r).place

namespace Leaves

variable {c c' c'' : Core}

theorem refl (c : Core) :
  Leaves c c
  := ⟨rfl, Nat.le_refl _, fun _ _ => rfl⟩

theorem trans (h : Leaves c c') (h' : Leaves c' c'') :
  Leaves c c''
  := by
  constructor
  · apply h'.disk.trans h.disk
  · apply Nat.le_trans h.tasks_le h'.tasks_le
  · intro r hr
    rw [h'.place r (Nat.lt_of_lt_of_le hr h.tasks_le), h.place r hr]

/-- A change of neither disk nor tasks. -/
theorem of_eq (hdisk : c'.disk = c.disk) (htasks : c'.tasks = c.tasks) :
  Leaves c c'
  := by
  constructor
  · apply hdisk
  · rw [htasks]
  · intro r _
    rw [htasks]

theorem allocTask (t : LCFileNetTask) (c : Core) :
  Leaves c (c.allocTask t)
  := by
  refine ⟨rfl, Nat.le_succ _, ?_⟩
  intro r hr
  apply congrArg LCFileNetTask.place (Heap.cell_alloc_of_lt t hr)

theorem setTask (r : TaskRef) {f : LCFileNetTask → LCFileNetTask}
    (hf : (f (c.tasks.cell r)).place = (c.tasks.cell r).place) :
  Leaves c (c.setTask r f)
  := by
  refine ⟨rfl, Nat.le_refl _, ?_⟩
  intro r' _
  apply Core.map_setTask LCFileNetTask.place hf r'

theorem setStatus (r : TaskRef) (status : LCFileNetTaskStatus) (c : Core) :
  Leaves c (c.setStatus r status)
  := setTask r rfl

theorem sameTables (h : SameTables c c') :
  Leaves c c'
  := by
  obtain ⟨ops, calls, rfl, -⟩ := h
  exact of_eq rfl rfl

theorem pAddTask (task : TaskRef) (c : Core) :
  Leaves c (LCFileNetService.pAddTask task c)
  := by
  rw [LCFileNetService.pAddTask]
  split
  · apply refl
  · exact of_eq rfl rfl
  · apply refl

theorem pSetMd5 (md5 : Bytes → String) (task : TaskRef) (c : Core) :
  Leaves c (LCFileNetService.pSetMd5 md5 task c)
  := by
  rw [LCFileNetService.pSetMd5]
  split
  · split
    · apply setTask task rfl
    · apply refl
  · apply refl

/-- A row is read into a new task, which is put into the cache. -/
theorem pSetTask_object (row : LCFileNetTaskRow) (c : Core) :
  Leaves c (LCFileNetService.pSetTask c.tasks.next row.taskId (c.allocTask row.object))
  := (allocTask row.object c).trans (of_eq rfl rfl)

theorem lcGetTask (taskId : String) (c : Core) :
  Leaves c (LCFileNetService.lcGetTask taskId c)
  := by
  rw [LCFileNetService.lcGetTask]
  split
  · apply refl
  · split
    · next row _ =>
        have hset : ∀ c', Leaves (c.allocTask row.object) c' →
            Leaves c (LCFileNetService.pSetTask c.tasks.next row.taskId c') := by
          intro c' h
          exact ((allocTask row.object c).trans h).trans (of_eq rfl rfl)
        apply hset
        split
        · apply setStatus
        · apply setStatus
        · apply refl
    · apply refl

end Leaves

/-- From `s` to `s'` no file changes, no task changes what its transfer is about, and successes are
told only of tasks with `P`. -/
structure Reports (P : TaskRef → Prop) (s s' : State) : Prop extends
    Leaves s.toCore s'.toCore where
  notes : ∃ ns, s'.notes = s.notes ++ ns ∧ ∀ n ∈ ns, n.success → P n.task

namespace Reports

variable {md5 : Bytes → String} {P : TaskRef → Prop} {s s' s'' : State}

theorem refl (s : State) :
  Reports P s s
  := ⟨Leaves.refl s.toCore, [], by simp⟩

theorem trans (h : Reports P s s') (h' : Reports P s' s'') :
  Reports P s s''
  := by
  obtain ⟨hleaves, ns, hns, hsuccess⟩ := h
  obtain ⟨hleaves', ns', hns', hsuccess'⟩ := h'
  refine ⟨hleaves.trans hleaves', ns ++ ns', ?_, ?_⟩
  · rw [hns', hns, List.append_assoc]
  · intro n hn
    rcases List.mem_append.mp hn with hn | hn
    · apply hsuccess n hn
    · apply hsuccess' n hn

/-- Successes may be told of more tasks. -/
theorem mono {P' : TaskRef → Prop} (h : Reports P s s') (hP : ∀ r, P r → P' r) :
  Reports P' s s'
  := by
  obtain ⟨hleaves, ns, hns, hsuccess⟩ := h
  refine ⟨hleaves, ns, hns, ?_⟩
  intro n hn hn'
  apply hP n.task (hsuccess n hn hn')

/-- Nothing is told. -/
theorem of_leaves (h : Leaves s.toCore s'.toCore) (hnotes : s'.notes = s.notes) :
  Reports P s s'
  := ⟨h, [], by simp [hnotes]⟩

theorem mapCore {f : Core → Core} (h : Leaves s.toCore (f s.toCore)) :
  Reports P s (s.mapCore f)
  := of_leaves h rfl

/-- Notes are told that tell no success of a task without `P`. -/
theorem of_notes {ns : List Note} (hcore : s'.toCore = s.toCore)
    (hnotes : s'.notes = s.notes ++ ns) (hns : ∀ n ∈ ns, n.success → P n.task) :
  Reports P s s'
  := by
  refine ⟨?_, ns, hnotes, hns⟩
  rw [hcore]
  apply Leaves.refl

/-- The notes of a notification are about its task, and of its kind and with its error. -/
theorem mem_notesOf {kind : NoteKind} {task : TaskRef} {error : Option NSError} {s : State}
    {n : Note} (hn : n ∈ notesOf kind task error s) :
  n.kind = kind ∧ n.task = task ∧ n.error = error
  := by
  rw [notesOf, observerNotes, callbackNotes] at hn
  simp only [List.mem_append, List.mem_map] at hn
  rcases hn with (⟨_, -, rfl⟩ | ⟨_, -, rfl⟩) | ⟨_, -, rfl⟩
  · exact ⟨rfl, rfl, rfl⟩
  · exact ⟨rfl, rfl, rfl⟩
  · exact ⟨rfl, rfl, rfl⟩

theorem pNotifyStatusChange (task : TaskRef) (s : State) :
  Reports P s (LCFileNetService.pNotifyStatusChange (quiet md5) task s)
  := by
  have hnotes : (LCFileNetService.pNotifyStatusChange (quiet md5) task s).notes
      = s.notes ++ notesOf .status task none s := by
    rw [pNotifyStatusChange_quiet]
  apply of_notes (toCore_pNotifyStatusChange task s) hnotes
  intro n hn hsuccess
  rw [Note.success, (mem_notesOf hn).1] at hsuccess
  cases hsuccess

theorem pNotifyProgress (task : TaskRef) (s : State) :
  Reports P s (LCFileNetService.pNotifyProgress (quiet md5) task s)
  := by
  by_cases hsilent : Silent (s.tasks.cell task)
  · rw [pNotifyProgress_silent hsilent]
    apply refl
  · have hnotes : (LCFileNetService.pNotifyProgress (quiet md5) task s).notes
        = s.notes ++ notesOf .progress task none s := by
      rw [pNotifyProgress_told hsilent]
    apply of_notes (toCore_pNotifyProgress task s) hnotes
    intro n hn hsuccess
    rw [Note.success, (mem_notesOf hn).1] at hsuccess
    cases hsuccess

/-- A finish is told, which is a success of the task if there is no error. -/
theorem pNotifyFinish (task : TaskRef) (error : Option NSError) (s : State) :
  Reports (fun r => error = none ∧ r = task) s
    (LCFileNetService.pNotifyFinish (quiet md5) task error s)
  := by
  have htold : ∀ n ∈ notesOf .finish task error s, n.success → error = none ∧ n.task = task := by
    intro n hn hsuccess
    obtain ⟨-, htask, herror⟩ := mem_notesOf hn
    rw [Note.success, herror, Bool.and_eq_true, Option.isNone_iff_eq_none] at hsuccess
    exact ⟨hsuccess.2, htask⟩
  have hcore := @LCFileNetService.toCore_pNotifyFinish md5 task error s
  cases hid : (s.tasks.cell task).taskId with
  | some taskId => apply of_notes hcore (LCFileNetService.pNotifyFinish_quiet error hid).1 htold
  | none =>
      have hnotes : (LCFileNetService.pNotifyFinish (quiet md5) task error s).notes
          = s.notes ++ observerNotes .finish task error s := by
        rw [LCFileNetService.pNotifyFinish, tellObservers_quiet, pExecuteFinishTaskCallback]
        simp only [hid]
        rfl
      apply of_notes hcore hnotes
      intro n hn
      apply htold
      rw [notesOf]
      apply List.mem_append_left _ hn

/-! ### Operations -/

theorem pNotifyStart (o : OpRef) (s : State) :
  Reports P s (LCFileNetOperation.pNotifyStart (quiet md5) o s)
  := by
  rw [LCFileNetOperation.pNotifyStart, lcNetOperationStart]
  have hstatus : Reports P s (s.mapCore (·.setStatus (s.taskOf o) .progress)) :=
    mapCore (Leaves.setStatus _ _ _)
  have hrow : Leaves (s.toCore.setStatus (s.taskOf o) .progress)
      ((s.toCore.setStatus (s.taskOf o) .progress).setDb (LCFileTaskDB.lcUpdateTaskStatus
        (s.tasks.cell (s.taskOf o)).taskId .progress)) := Leaves.of_eq rfl rfl
  apply (hstatus.trans (mapCore hrow)).trans (pNotifyStatusChange _ _)

theorem pNotifyStatusUpadte (o : OpRef) (status : LCFileNetTaskStatus) (s : State) :
  Reports P s (LCFileNetOperation.pNotifyStatusUpadte (quiet md5) o status s)
  := by
  rw [LCFileNetOperation.pNotifyStatusUpadte, lcNetOperationStatusUpadte]
  have hstatus : Reports P s (s.mapCore (·.setStatus (s.taskOf o) status)) :=
    mapCore (Leaves.setStatus _ _ _)
  apply hstatus.trans
  apply Reports.trans _ (pNotifyStatusChange _ _)
  apply mapCore (Leaves.of_eq rfl rfl)

theorem pNotifyFinishOf (o : OpRef) (error : Option NSError) (s : State) :
  Reports (fun r => error = none ∧ r = s.taskOf o) s
    (LCFileNetOperation.pNotifyFinish (quiet md5) o error s)
  := by
  rw [LCFileNetOperation.pNotifyFinish, lcNetOperationStatusFinish]
  apply Reports.trans _ (pNotifyFinish _ error _)
  have hset : Leaves s.toCore
      (if error.isSome then s.toCore.setStatus (s.taskOf o) .failed else s.toCore) := by
    split
    · apply Leaves.setStatus
    · apply Leaves.refl
  apply (mapCore hset).trans (mapCore (Leaves.of_eq rfl rfl))

theorem stopTail (status : LCFileNetTaskStatus) (o : OpRef) (s : State) :
  Reports P s (LCFileNetOperation.stopTail (quiet md5) status o s)
  := by
  rw [LCFileNetOperation.stopTail]
  apply (pNotifyStatusUpadte o status s).trans (mapCore (Leaves.of_eq rfl rfl))

theorem stop (method : HanderMethod) (status : LCFileNetTaskStatus) (o : OpRef) (t : Tail)
    {rest : State → State} (hrest : ∀ s', Reports P s' (rest s')) (s : State) :
  Reports P s (LCFileNetOperation.stop (quiet md5) method status o t rest s)
  := by
  rw [LCFileNetOperation.stop]
  split
  · apply mapCore (Leaves.of_eq rfl rfl)
  · split
    · apply (stopTail status o s).trans (hrest _)
    · have hcancel : Reports P s (s.mapCore (superCancel o)) := mapCore (Leaves.of_eq rfl rfl)
      apply hcancel.trans (hrest _)

theorem main (o : OpRef) (s : State) :
  Reports P s (LCFileNetOperation.main (quiet md5) o s)
  := by
  have hmain := Leaves.sameTables (SameTables.mainTransfer o s.toCore)
  simp only [LCFileNetOperation.main]
  split
  · exact mapCore (hmain.trans (Leaves.of_eq rfl rfl))
  · have htransfer : Reports P s (s.mapCore (fun _ => mainTransfer o s.toCore)) := mapCore hmain
    apply htransfer.trans (pNotifyStart o _)

theorem start (o : OpRef) (s : State) :
  Reports P s (LCFileNetOperation.start (quiet md5) o s)
  := by
  rw [LCFileNetOperation.start]
  split
  · apply mapCore (Leaves.of_eq rfl rfl)
  · have hexecuting : Reports P s
        (s.mapCore (·.setOp o (fun op => { op with executing := true }))) :=
      mapCore (Leaves.of_eq rfl rfl)
    apply hexecuting.trans (main o _)

theorem progressBlock (o : OpRef) (s : State) :
  Reports P s (LCFileNetOperation.progressBlock (quiet md5) o s)
  := by
  rw [LCFileNetOperation.progressBlock, pNotifyProgressUpdate, lcNetOperationProgressUpdate]
  have hrow : Reports P s (s.mapCore (·.setDb (LCFileTaskDB.lcUpdateTaskFinishedSize
      (s.tasks.cell (s.taskOf o)).taskId (s.tasks.cell (s.taskOf o)).finishedSize
      (s.tasks.cell (s.taskOf o)).totalSize))) := mapCore (Leaves.of_eq rfl rfl)
  apply (hrow.trans (pNotifyProgress _ _)).trans
  apply mapCore
  split
  · exact Leaves.of_eq rfl rfl
  · apply Leaves.refl

/-- The end of a transfer is a success of the task of its operation, if there is no error. -/
theorem ended (o : OpRef) (error : Option NSError) (s : State) :
  Reports (fun r => error = none ∧ r = s.taskOf o) s
    (LCFileNetOperation.ended (quiet md5) o error s)
  := by
  have henter : Reports (fun r => error = none ∧ r = s.taskOf o) s (enterEnd o s) := by
    rw [enterEnd]
    split
    · split
      · exact of_leaves (Leaves.refl _) rfl
      · exact of_leaves (Leaves.refl _) rfl
    · apply refl
  have hstatus := henter.trans (@pNotifyStatusUpadte md5 _ o (outcome error) (enterEnd o s))
  have htask : (LCFileNetOperation.pNotifyStatusUpadte (quiet md5) o (outcome error)
      (enterEnd o s)).taskOf o = s.taskOf o := by
    rw [Core.taskOf, toCore_pNotifyStatusUpadte, toCore_enterEnd]
    rfl
  have hfinish := @pNotifyFinishOf md5 o error
    (LCFileNetOperation.pNotifyStatusUpadte (quiet md5) o (outcome error) (enterEnd o s))
  rw [htask] at hfinish
  have hended : Reports (fun r => error = none ∧ r = s.taskOf o)
      (LCFileNetOperation.pNotifyFinish (quiet md5) o error
        (LCFileNetOperation.pNotifyStatusUpadte (quiet md5) o (outcome error) (enterEnd o s)))
      (LCFileNetOperation.ended (quiet md5) o error s) := mapCore (Leaves.of_eq rfl rfl)
  apply (hstatus.trans hfinish).trans hended

theorem finishBlock (method : HanderMethod) (o : OpRef) (error : Option NSError) (s : State) :
  Reports (fun r => error = none ∧ r = s.taskOf o) s
    (LCFileNetOperation.finishBlock (quiet md5) method o error s)
  := by
  cases method with
  | upload => apply ended
  | download => apply ended
  | resumUpload =>
      cases error with
      | none => apply ended
      | some error => apply mapCore (Leaves.sameTables (SameTables.pStartUpload o s.toCore))
  | resumDownload =>
      cases error with
      | none => apply ended
      | some error => apply mapCore (Leaves.sameTables (SameTables.pStartDownload o s.toCore))
  | cancel => apply refl
  | pause => apply refl

/-! ### The service -/

theorem pauseTail (cacheTask : TaskRef) (s : State) :
  Reports P s (LCFileNetService.pauseTail (quiet md5) cacheTask s)
  := by
  have hstatus : Reports P s (s.mapCore (·.setStatus cacheTask .pause)) :=
    mapCore (Leaves.setStatus cacheTask .pause s.toCore)
  apply hstatus.trans (pNotifyStatusChange cacheTask _)

theorem pauseTasks (taskIds : List String) (s : State) :
  Reports P s (LCFileNetService.pauseTasks (quiet md5) taskIds s)
  := by
  induction taskIds generalizing s with
  | nil => apply refl
  | cons taskId taskIds ih =>
      rw [LCFileNetService.pauseTasks]
      cases s.cache.lookup taskId with
      | none => apply ih
      | some cacheTask =>
          simp only
          split
          · apply ih
          · cases s.taskOperationDic.lookup taskId with
            | none => apply (pauseTail cacheTask s).trans (ih _)
            | some operaton =>
                apply stop
                intro s'
                apply (pauseTail cacheTask s').trans (ih _)

theorem cancelTail (taskId : String) (cacheTask : TaskRef) (s : State) :
  Reports P s (LCFileNetService.cancelTail (quiet md5) taskId cacheTask s)
  := by
  have hforget : Reports P s (s |>.enter (.settle taskId)
      |>.mapCore (fun c => { c with taskOperationDic := c.taskOperationDic.erase taskId })
      |>.mapCore (·.setDb (LCFileTaskDB.lcDeleteTaskByTaskId taskId))
      |>.mapCore (·.setStatus cacheTask .canceled)) := by
    apply of_leaves
    · apply Leaves.trans _ (Leaves.setStatus cacheTask .canceled _)
      exact Leaves.of_eq rfl rfl
    · rfl
  have hfinish := (hforget.trans (@pNotifyStatusChange md5 _ cacheTask _)).trans
    ((@pNotifyFinish md5 cacheTask (some canceledError) _).mono
      (fun r hr => Option.some_ne_none _ hr.1 |>.elim))
  apply hfinish.trans (mapCore (Leaves.of_eq rfl rfl))

theorem lcCancelTask (taskId : String) (s : State) :
  Reports P s (LCFileNetService.lcCancelTask (quiet md5) taskId s)
  := by
  rw [LCFileNetService.lcCancelTask]
  split
  · apply refl
  · next cacheTask _ =>
      split
      · apply refl
      · split
        · apply stop
          intro s'
          apply cancelTail
        · apply cancelTail

theorem runTail (t : Tail) (s : State) :
  Reports P s (LCFileNetService.runTail (quiet md5) t s)
  := by
  cases t with
  | main o => apply pNotifyStart
  | cancel o => apply stopTail
  | pause o => apply stopTail
  | lcCancelTask o taskId cacheTask => apply (stopTail .canceled o s).trans (cancelTail _ _ _)
  | lcPauseTask o cacheTask taskIds =>
      apply ((stopTail .pause o s).trans (pauseTail cacheTask _)).trans (pauseTasks taskIds _)

end Reports

/-- The task that `lc_startTask:queue:` finds for a task id, in the cache or as a row. -/
def Core.foundTask (taskId : String) (c : Core) : Option LCFileNetTask :=
  match c.cache.lookup taskId with
  | some oldTask => some (c.tasks.cell oldTask)
  | none => (LCFileTaskDB.lcGetTaskByTaskId taskId c.db).map LCFileNetTaskRow.object

namespace Reports

variable {md5 : Bytes → String} {P : TaskRef → Prop} {s s' : State}

/-- A task that is found to have finished already is a success. -/
theorem alreadyFinished (task : TaskRef) (taskId : String) (s : State) :
  Reports (fun r => r = task) s (LCFileNetService.alreadyFinished (quiet md5) task taskId s)
  := by
  have henter : Reports (fun r => r = task) s (s.enter (.settle taskId)) :=
    of_leaves (Leaves.refl s.toCore) rfl
  apply henter.trans ((pNotifyFinish task none _).mono (fun r hr => hr.2))

/-- Starting a task tells a success only if the task found for its task id has finished; and what
the success is about is what the transfer of this task was about. -/
theorem startChecked (task : TaskRef) (taskId : String) (s : State) :
  Reports
    (fun r => ∃ t, s.foundTask taskId = some t ∧ t.status = .finish ∧
      ((LCFileNetService.startChecked (quiet md5) task taskId s).tasks.cell r).place = t.place)
    s (LCFileNetService.startChecked (quiet md5) task taskId s)
  := by
  rw [LCFileNetService.startChecked, Core.foundTask]
  cases s.cache.lookup taskId with
  | some oldTask =>
      simp only [startCached]
      have hadd := Leaves.pAddTask oldTask s.toCore
      cases hstatus : (s.tasks.cell oldTask).status with
      | finish =>
          apply (alreadyFinished oldTask taskId s).mono
          rintro r rfl
          refine ⟨s.tasks.cell r, rfl, hstatus, ?_⟩
          simp only [toCore_alreadyFinished]
      | pause => apply mapCore hadd
      | failed => apply mapCore hadd
      | interrupt => apply mapCore hadd
      | create => apply refl
      | progress => apply refl
      | canceled => apply refl
      | unkown => apply refl
  | none =>
      simp only
      cases LCFileTaskDB.lcGetTaskByTaskId taskId s.db with
      | none =>
          apply mapCore
          apply Leaves.trans _ (Leaves.pAddTask task _)
          exact Leaves.of_eq rfl rfl
      | some row =>
          have hset := Leaves.pSetTask_object row s.toCore
          have hadd := hset.trans (Leaves.pAddTask s.tasks.next _)
          have hinterrupt := (hset.trans (Leaves.setStatus s.tasks.next .interrupt _)).trans
            (Leaves.pAddTask s.tasks.next _)
          simp only [startStored]
          cases hstatus : row.status with
          | finish =>
              have hstored : Reports (fun r => r = s.tasks.next) s
                  (s.mapCore (fun c => pSetTask s.tasks.next row.taskId
                    (c.allocTask row.object))) := mapCore hset
              apply (hstored.trans (alreadyFinished s.tasks.next taskId _)).mono
              rintro r rfl
              refine ⟨row.object, rfl, hstatus, ?_⟩
              simp only [toCore_alreadyFinished]
              apply congrArg LCFileNetTask.place (Heap.cell_alloc_next row.object s.tasks)
          | pause => exact of_leaves hadd rfl
          | failed => exact of_leaves hadd rfl
          | interrupt => exact of_leaves hadd rfl
          | create => exact of_leaves hinterrupt rfl
          | progress => exact of_leaves hinterrupt rfl
          | canceled => exact of_leaves hadd rfl
          | unkown => exact of_leaves hadd rfl

/-- The task that is found does not depend on the MD5 set before. -/
theorem foundTask_pSetMd5 {task : TaskRef} {taskId : String} {c : Core} {t : LCFileNetTask}
    (h : (LCFileNetService.pSetMd5 md5 task c).foundTask taskId = some t) :
  ∃ t', c.foundTask taskId = some t' ∧ t'.status = t.status ∧ t'.place = t.place
  := by
  obtain ⟨hcache, -, -, hdb⟩ := @rest_pSetMd5 md5 task c
  rw [Core.foundTask, hcache, hdb] at h
  rw [Core.foundTask]
  cases hcached : c.cache.lookup taskId with
  | some oldTask =>
      rw [hcached] at h
      obtain rfl := Option.some.inj h
      refine ⟨c.tasks.cell oldTask, rfl, ?_, ?_⟩
      · apply (status_pSetMd5 task c oldTask).1.symm
      · rw [pSetMd5]
        split
        · split
          · apply (Core.map_setTask LCFileNetTask.place rfl oldTask).symm
          · rfl
        · rfl
  | none =>
      rw [hcached] at h
      exact ⟨t, h, rfl, rfl⟩

/-- `lc_startTask:queue:` tells a success only of a task that has finished. -/
theorem lcStartTask (task : TaskRef) (s : State) :
  Reports
    (fun r => ∃ taskId t, (s.tasks.cell task).taskId = some taskId ∧
      s.foundTask taskId = some t ∧ t.status = .finish ∧
      ((LCFileNetService.lcStartTask (quiet md5) task s).tasks.cell r).place = t.place)
    s (LCFileNetService.lcStartTask (quiet md5) task s)
  := by
  rw [LCFileNetService.lcStartTask]
  cases htaskId : (s.tasks.cell task).taskId with
  | none => exact of_leaves (Leaves.refl s.toCore) rfl
  | some taskId =>
      have hsave : ∀ P, Reports P s (pSaveCallback task taskId s) :=
        fun P => of_leaves (Leaves.refl s.toCore) rfl
      simp only
      split
      · have hmd5 : ∀ P, Reports P s
            ((enterFinish task taskId (pSaveCallback task taskId s)).mapCore
              (pSetMd5 md5 task)) := by
          intro P
          apply of_leaves
          · rw [State.toCore_mapCore, toCore_enterFinish, toCore_pSaveCallback]
            apply Leaves.pSetMd5
          · rw [State.toNotifier_mapCore, enterFinish]
            split
            · rfl
            · rfl
        apply ((hmd5 _).trans (startChecked task taskId _)).mono
        rintro r ⟨t, hfound, hstatus, hplace⟩
        rw [State.toCore_mapCore, toCore_enterFinish, toCore_pSaveCallback] at hfound
        obtain ⟨t', hfound', hstatus', hplace'⟩ := foundTask_pSetMd5 hfound
        exact ⟨taskId, t', rfl, hfound', hstatus'.trans hstatus, hplace.trans hplace'.symm⟩
      · have henter : ∀ P, Reports P (pSaveCallback task taskId s)
            ((pSaveCallback task taskId s).enter
              (.settleOnly taskId (s.tasks.cell task).finishCallback)) :=
          fun P => of_leaves (Leaves.refl _) rfl
        apply ((hsave _).trans (henter _)).trans
        apply (pNotifyFinish task (some taskError) _).mono
        rintro r ⟨⟨⟩, -⟩

/-- `lc_resumTask:queue:` tells no success. -/
theorem lcResumTask (hwf : WellFormed s.toCore) (taskId : String) :
  Reports P s (LCFileNetService.lcResumTask (quiet md5) taskId s)
  := by
  rw [LCFileNetService.lcResumTask]
  cases hcached : s.cache.lookup taskId with
  | none => apply refl
  | some task =>
      simp only
      split
      · apply refl
      · next hstatus =>
          apply (lcStartTask task s).mono
          rintro r ⟨taskId', t, htaskId, hfound, hfinish, -⟩
          rw [(hwf.cached taskId task hcached).1] at htaskId
          obtain rfl := Option.some.inj htaskId
          rw [Core.foundTask, hcached] at hfound
          obtain rfl := Option.some.inj hfound
          apply absurd hfinish hstatus

/-- A step tells successes only at the end of a transfer, and when a finished task is started; and
only the application edits files and sets what transfers are about. -/
theorem step (hwf : WellFormed s.toCore) {e : Event} (hrestart : e ≠ .restart)
    (hset : ∀ task t, e = .set task t → t.place = (s.tasks.cell task).place)
    (hedit : ∀ path content, e ≠ .edit path content) (hstart : ∀ task, e ≠ .startTask task)
    (hfinish : ∀ r error, e = .finish r error →
      P (s.taskOf (s.calls.cell r).op) ∨ error.isSome) :
  Reports P s (LCCFileService.step (quiet md5) s e)
  := by
  cases e with
  | create t => apply mapCore (Leaves.allocTask t s.toCore)
  | set task t =>
      rw [LCCFileService.step]
      split
      · apply mapCore (Leaves.setTask task (hset task t rfl))
      · apply refl
  | startTask task => apply absurd rfl (hstart task)
  | resumTask taskId => apply lcResumTask hwf taskId
  | pauseTask taskId => apply pauseTasks
  | pauseAllTask => apply pauseTasks
  | cancelTask taskId => apply lcCancelTask
  | getTask taskId => apply mapCore (Leaves.lcGetTask taskId s.toCore)
  | updatetask key filePath => apply mapCore (Leaves.of_eq rfl rfl)
  | opStart o =>
      rw [LCCFileService.step]
      split
      · have hstarted : Reports P s
            (s.mapCore (·.setOp o (fun op => { op with started := true }))) :=
          mapCore (Leaves.of_eq rfl rfl)
        apply hstarted.trans (start o _)
      · apply refl
  | opCancel o =>
      rw [LCCFileService.step]
      split
      · apply stop _ _ _ _ (fun s' => refl s') s
      · apply refl
  | opPause o =>
      rw [LCCFileService.step]
      split
      · apply stop _ _ _ _ (fun s' => refl s') s
      · apply refl
  | returns i =>
      rw [LCCFileService.step]
      split
      · next t _ =>
          have hdrop : Reports P s (s.mapCore (·.dropTail i)) := mapCore (Leaves.of_eq rfl rfl)
          apply hdrop.trans (runTail t _)
      · apply refl
  | progress r =>
      rw [LCCFileService.step]
      split
      · apply progressBlock
      · apply refl
  | finish r error =>
      rw [LCCFileService.step]
      split
      · have hanswer : Reports P s (s.mapCore (·.answer r)) := mapCore (Leaves.of_eq rfl rfl)
        apply hanswer.trans
        apply (finishBlock _ _ error _).mono
        rintro task ⟨rfl, rfl⟩
        rcases hfinish r none rfl with hP | hsome
        · apply hP
        · cases hsome
      · apply refl
  | addHander h => exact of_leaves (Leaves.of_eq rfl rfl) rfl
  | deallocHander h => exact of_leaves (Leaves.of_eq rfl rfl) rfl
  | addObserver o => exact of_leaves (Leaves.refl s.toCore) rfl
  | find finder => exact of_leaves (Leaves.refl s.toCore) rfl
  | edit path content => apply absurd rfl (hedit path content)
  | restart => apply absurd rfl hrestart

end Reports

/-! ### Calls -/

/-- The calls of a method with a finish block are calls of operations. -/
def CallsOwned (c : Core) : Prop :=
  ∀ r < c.calls.next, (c.calls.cell r).method.transfers → (c.calls.cell r).op < c.ops.next

theorem CallsOwned.step {md5 : Bytes → String} {s : State} (h : CallsOwned s.toCore) {e : Event}
    (hrestart : e ≠ .restart) :
  CallsOwned (LCCFileService.step (quiet md5) s e).toCore
  := by
  have hadvance := @Advance.step md5 s e hrestart
  intro r hr hmethod
  by_cases hlt : r < s.calls.next
  · rw [hadvance.method r hlt] at hmethod
    rw [hadvance.op r hlt]
    apply Nat.lt_of_lt_of_le (h r hlt hmethod) hadvance.ops_le
  · have hbegins := hadvance.begun r hr (Nat.le_of_not_lt hlt) hmethod
    apply Nat.lt_of_lt_of_le _ hadvance.ops_le
    cases e with
    | opStart o =>
        rw [hbegins.1]
        by_contra ho
        rw [LCCFileService.step, if_neg (fun hguard => ho hguard.1)] at hr
        apply hlt hr
    | finish r' error =>
        obtain ⟨heq, hr', hresumes, -⟩ := hbegins
        rw [heq]
        apply h r' hr'
        cases hmethod' : (s.calls.cell r').method with
        | resumUpload => rfl
        | resumDownload => rfl
        | _ => simp [hmethod', HanderMethod.resumes] at hresumes
    | _ => apply hbegins.elim

end LCCFileService
