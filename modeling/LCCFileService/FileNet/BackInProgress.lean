import LCCFileService.FileNet.Tables

/-!
# Back in progress

A paused or cancelled task is not to be set to Progress again before it is started or
resumed.  `main` notifies the start of its operation after the handler was called, and does
not ask whether the operation has been cancelled in between: so no such notification may
find the task out of progress.
-/

namespace LCCFileService

open LCFileNetService LCFileNetOperation

/-- The row of the task id is in progress. -/
def RowInProgress (k : String) (c : Core) : Prop := (c.db.get k).map (·.status) = some .progress

instance (k : String) (c : Core) : Decidable (RowInProgress k c) :=
  inferInstanceAs (Decidable (_ = _))

/-- The task object is in progress. -/
def ObjectInProgress (r : TaskRef) (c : Core) : Prop := (c.tasks.cell r).status = .progress

instance (r : TaskRef) (c : Core) : Decidable (ObjectInProgress r c) :=
  inferInstanceAs (Decidable (_ = _))

/-- There is a row of the task id, and it is not in progress. -/
def RowOutOfProgress (k : String) (c : Core) : Prop := (c.db.get k).isSome ∧ ¬ RowInProgress k c

/-- There is the task object, and it is not in progress. -/
def ObjectOutOfProgress (r : TaskRef) (c : Core) : Prop :=
  r < c.tasks.next ∧ ¬ ObjectInProgress r c

/-- From `c` to `c'` the row of the task id is set to Progress. -/
def SetsRow (k : String) (c c' : Core) : Prop := ¬ RowInProgress k c ∧ RowInProgress k c'

/-- From `c` to `c'` the task object is set to Progress. -/
def SetsObject (r : TaskRef) (c c' : Core) : Prop :=
  ObjectOutOfProgress r c ∧ ObjectInProgress r c'

/-- What was not in progress in `c₀`, of the row of the task id and of the task object, is not
in progress in `c`. -/
structure Calm (k : String) (r : TaskRef) (c₀ c : Core) : Prop where
  le : c₀.tasks.next ≤ c.tasks.next
  row : RowInProgress k c → RowInProgress k c₀
  object : r < c₀.tasks.next → ObjectInProgress r c → ObjectInProgress r c₀

namespace Calm

variable {k : String} {r : TaskRef} {c₀ c : Core}

theorem refl (c : Core) :
  Calm k r c c
  := ⟨Nat.le_refl _, id, fun _ => id⟩

/-- Nothing is set to Progress on the way to a calm core. -/
theorem not_sets (h : Calm k r c₀ c) :
  ¬ SetsRow k c₀ c ∧ ¬ SetsObject r c₀ c
  := by
  constructor
  · rintro ⟨hnot, hrow⟩
    apply hnot (h.row hrow)
  · rintro ⟨⟨hlt, hnot⟩, hobject⟩
    apply hnot (h.object hlt hobject)

/-- Changes of other parts of the core do not matter. -/
theorem congr {c' : Core} (h : Calm k r c₀ c) (htasks : c'.tasks = c.tasks)
    (hdb : c'.db = c.db) :
  Calm k r c₀ c'
  := by
  constructor
  · rw [htasks]
    apply h.le
  · rw [RowInProgress, hdb]
    apply h.row
  · rw [ObjectInProgress, htasks]
    apply h.object

/-! ### Primitive changes -/

/-- Setting properties of a task other than to the status Progress. -/
theorem setTask (h : Calm k r c₀ c) {r' : TaskRef} {f : LCFileNetTask → LCFileNetTask}
    (hf : r' = r → (f (c.tasks.cell r')).status = .progress → ObjectInProgress r c) :
  Calm k r c₀ (c.setTask r' f)
  := by
  refine ⟨h.le, h.row, ?_⟩
  intro hlt hobject
  apply h.object hlt
  rw [ObjectInProgress, Core.setTask, Heap.cell_modify] at hobject
  split at hobject
  · next heq =>
      subst heq
      apply hf rfl hobject
  · apply hobject

theorem setStatus (h : Calm k r c₀ c) (r' : TaskRef) {status : LCFileNetTaskStatus}
    (hstatus : status ≠ .progress) :
  Calm k r c₀ (c.setStatus r' status)
  := h.setTask (fun _ heq => absurd heq hstatus)

/-- A table operation under which the row of the task id does not come to be in progress. -/
theorem setDb (h : Calm k r c₀ c) {f : TaskTable → TaskTable}
    (hf : RowInProgress k (c.setDb f) → RowInProgress k c) :
  Calm k r c₀ (c.setDb f)
  := ⟨h.le, fun hrow => h.row (hf hrow), h.object⟩

/-- An update after which no row is in progress that was not before. -/
theorem updateTask (h : Calm k r c₀ c) (taskId : Option String)
    {f : LCFileNetTaskFields → LCFileNetTaskFields}
    (hf : ∀ row, (f row).status = .progress → row.status = .progress) :
  Calm k r c₀ (c.setDb (LCFileTaskDB.updateTask taskId f))
  := by
  apply h.setDb
  intro hrow
  rw [RowInProgress, Core.setDb, LCFileTaskDB.get_updateTask] at hrow
  split at hrow
  · rw [Option.map_map, Option.map_eq_some_iff] at hrow
    obtain ⟨row, hget, hstatus⟩ := hrow
    rw [RowInProgress, hget, Option.map_some, hf row.toLCFileNetTaskFields hstatus]
  · apply hrow

/-- Saving a task of another task id, or one that is not in progress. -/
theorem saveTask (h : Calm k r c₀ c) {t : LCFileNetTask}
    (ht : t.taskId = some k → t.status ≠ .progress) :
  Calm k r c₀ (c.setDb (LCFileTaskDB.lcSaveTask t))
  := by
  apply h.setDb
  intro hrow
  rw [RowInProgress, Core.setDb, LCFileTaskDB.get_lcSaveTask] at hrow
  split at hrow
  · next hid => exact absurd (Option.some.inj hrow) (ht hid)
  · apply hrow

theorem allocTask (h : Calm k r c₀ c) (t : LCFileNetTask) :
  Calm k r c₀ (c.allocTask t)
  := by
  refine ⟨Nat.le_succ_of_le h.le, h.row, ?_⟩
  intro hlt hobject
  apply h.object hlt
  rw [ObjectInProgress, Core.allocTask,
    Heap.cell_alloc_of_lt t (Nat.lt_of_lt_of_le hlt h.le)] at hobject
  apply hobject

theorem forget (h : Calm k r c₀ c) (taskId : String) :
  Calm k r c₀ (c.forget taskId)
  := by
  refine ⟨h.le, ?_, h.object⟩
  intro hrow
  apply h.row
  rw [RowInProgress, Core.forget, LCFileTaskDB.get_lcDeleteTaskByTaskId] at hrow
  split at hrow
  · cases hrow
  · apply hrow

/-! ### Operations -/

variable {s : State} {md5 : Bytes → String}

theorem recordStatus (h : Calm k r c₀ c) (task : TaskRef) {status : LCFileNetTaskStatus}
    (hstatus : status ≠ .progress) :
  Calm k r c₀ (c.recordStatus task status)
  := (h.setStatus task hstatus).updateTask _ (fun _ heq => absurd heq hstatus)

theorem recordSizes (h : Calm k r c₀ c) (task : TaskRef) :
  Calm k r c₀ (c.recordSizes task)
  := h.updateTask _ (fun _ => id)

/-- A change of calls and operations only. -/
theorem sameTables {c' : Core} (h : Calm k r c₀ c) (hsame : SameTables c c') :
  Calm k r c₀ c'
  := by
  obtain ⟨ops, calls, rfl, -⟩ := hsame
  exact h.congr rfl rfl

theorem stopTail (h : Calm k r c₀ s.toCore) {status : LCFileNetTaskStatus}
    (hstatus : status ≠ .progress) (o : OpRef) :
  Calm k r c₀ (LCFileNetOperation.stopTail (quiet md5) status o s).toCore
  := by
  rw [toCore_stopTail]
  exact (h.recordStatus (s.taskOf o) hstatus).congr rfl rfl

/-- Stopping an operation is calm if what follows is. -/
theorem stop (h : Calm k r c₀ s.toCore) (method : HanderMethod) {status : LCFileNetTaskStatus}
    (hstatus : status ≠ .progress) (o : OpRef) (t : Tail) {rest : State → State}
    (hrest : ∀ s, Calm k r c₀ s.toCore → Calm k r c₀ (rest s).toCore) :
  Calm k r c₀ (LCFileNetOperation.stop (quiet md5) method status o t rest s).toCore
  := by
  rw [LCFileNetOperation.stop]
  split
  · exact h.congr rfl rfl
  · split
    · apply hrest
      apply h.stopTail hstatus
    · apply hrest
      exact h.congr rfl rfl

theorem progressBlock (h : Calm k r c₀ s.toCore) (o : OpRef) :
  Calm k r c₀ (LCFileNetOperation.progressBlock (quiet md5) o s).toCore
  := by
  have hsizes := h.recordSizes (s.taskOf o)
  rw [toCore_progressBlock]
  split
  · exact hsizes.congr rfl rfl
  · apply hsizes

theorem ended (h : Calm k r c₀ s.toCore) (o : OpRef) (error : Option NSError) :
  Calm k r c₀ (LCFileNetOperation.ended (quiet md5) o error s).toCore
  := by
  have houtcome : outcome error ≠ .progress := by
    cases error with
    | none => apply LCFileNetTaskStatus.noConfusion
    | some error => apply LCFileNetTaskStatus.noConfusion
  have hsaved := (h.recordStatus (s.taskOf o) houtcome).saveTask
    (t := { s.tasks.cell (s.taskOf o) with status := outcome error }) (fun _ => houtcome)
  rw [toCore_ended_outcome]
  exact hsaved.congr rfl rfl

theorem finishBlock (h : Calm k r c₀ s.toCore) (method : HanderMethod) (o : OpRef)
    (error : Option NSError) :
  Calm k r c₀ (LCFileNetOperation.finishBlock (quiet md5) method o error s).toCore
  := by
  by_cases hends : method.Ends error
  · rw [finishBlock_ends hends]
    apply h.ended
  · apply h.sameTables
    apply finishBlock_not_ends hends

/-! ### The service -/

theorem pAddTask (h : Calm k r c₀ c) (task : TaskRef) :
  Calm k r c₀ (LCFileNetService.pAddTask task c)
  := by
  rw [LCFileNetService.pAddTask]
  split
  · apply h
  · exact h.congr rfl rfl
  · apply h

theorem pSetMd5 (h : Calm k r c₀ c) (task : TaskRef) :
  Calm k r c₀ (LCFileNetService.pSetMd5 md5 task c)
  := by
  rw [LCFileNetService.pSetMd5]
  split
  · split
    · apply h.setTask
      rintro rfl hstatus
      apply hstatus
    · apply h
  · apply h

/-- Caching a task read from a row. -/
theorem pSetTask_object (h : Calm k r c₀ c) (row : LCFileNetTaskRow) :
  Calm k r c₀ (LCFileNetService.pSetTask c.tasks.next row.taskId (c.allocTask row.object))
  := (h.allocTask row.object).congr rfl rfl

/-- Starting a task of another task id. -/
theorem startChecked (h : Calm k r c₀ c) {task : TaskRef} {taskId : String}
    (hid : (c.tasks.cell task).taskId ≠ some k) :
  Calm k r c₀ (c.startChecked task taskId)
  := by
  have hinterrupt : LCFileNetTaskStatus.interrupt ≠ .progress := LCFileNetTaskStatus.noConfusion
  rw [Core.startChecked]
  split
  · split
    · apply h.pAddTask
    · apply h
  · split
    · next row hrow =>
        have hset := h.pSetTask_object row
        simp only
        split
        · apply hset
        · apply (hset.setStatus c.tasks.next hinterrupt).pAddTask
        · apply (hset.setStatus c.tasks.next hinterrupt).pAddTask
        · apply hset.pAddTask
    · apply pAddTask
      apply saveTask
      · exact h.congr rfl rfl
      · exact fun heq => absurd heq hid

theorem startTask (h : Calm k r c₀ c) {task : TaskRef}
    (hid : (c.tasks.cell task).taskId ≠ some k) :
  Calm k r c₀ (c.startTask md5 task)
  := by
  rw [Core.startTask]
  split
  · split
    · apply (h.pSetMd5 task).startChecked
      rw [taskId_pSetMd5]
      apply hid
    · apply h
  · apply h

/-- Resuming a task of another task id. -/
theorem lcResumTask (h : Calm k r c₀ s.toCore) (hwf : WellFormed s.toCore) {taskId : String}
    (hne : taskId ≠ k) :
  Calm k r c₀ (LCFileNetService.lcResumTask (quiet md5) taskId s).toCore
  := by
  rw [LCFileNetService.lcResumTask]
  split
  · next task hcached =>
      split
      · apply h
      · rw [toCore_lcStartTask]
        apply h.startTask
        rw [(hwf.cached taskId task hcached).1]
        rintro ⟨⟩
        apply hne rfl
  · apply h

theorem cancelTail (h : Calm k r c₀ s.toCore) (taskId : String) (cacheTask : TaskRef) :
  Calm k r c₀ (LCFileNetService.cancelTail (quiet md5) taskId cacheTask s).toCore
  := by
  rw [toCore_cancelTail]
  apply (h.setStatus cacheTask LCFileNetTaskStatus.noConfusion).forget taskId

theorem pauseTail (h : Calm k r c₀ s.toCore) (cacheTask : TaskRef) :
  Calm k r c₀ (LCFileNetService.pauseTail (quiet md5) cacheTask s).toCore
  := by
  rw [toCore_pauseTail]
  apply h.setStatus cacheTask LCFileNetTaskStatus.noConfusion

theorem lcCancelTask (h : Calm k r c₀ s.toCore) (taskId : String) :
  Calm k r c₀ (LCFileNetService.lcCancelTask (quiet md5) taskId s).toCore
  := by
  rw [LCFileNetService.lcCancelTask]
  split
  · apply h
  · split
    · apply h
    · split
      · apply h.stop _ LCFileNetTaskStatus.noConfusion
        intro s hs
        apply hs.cancelTail
      · apply h.cancelTail

theorem pauseTasks (h : Calm k r c₀ s.toCore) (taskIds : List String) :
  Calm k r c₀ (LCFileNetService.pauseTasks (quiet md5) taskIds s).toCore
  := by
  induction taskIds generalizing s with
  | nil => apply h
  | cons taskId taskIds ih =>
      rw [LCFileNetService.pauseTasks]
      split
      · apply ih h
      · split
        · apply ih h
        · split
          · apply h.stop _ LCFileNetTaskStatus.noConfusion
            intro s hs
            apply ih
            apply hs.pauseTail
          · apply ih
            apply h.pauseTail

/-- What follows the return of a handler method, but for a start notification. -/
theorem runTail (h : Calm k r c₀ s.toCore) {t : Tail} (ht : ∀ o, t ≠ .main o) :
  Calm k r c₀ (LCFileNetService.runTail (quiet md5) t s).toCore
  := by
  cases t with
  | main o => apply absurd rfl (ht o)
  | cancel o => apply h.stopTail LCFileNetTaskStatus.noConfusion
  | pause o => apply h.stopTail LCFileNetTaskStatus.noConfusion
  | lcCancelTask o taskId cacheTask =>
      apply cancelTail
      apply h.stopTail LCFileNetTaskStatus.noConfusion
  | lcPauseTask o cacheTask taskIds =>
      apply pauseTasks
      apply pauseTail
      apply h.stopTail LCFileNetTaskStatus.noConfusion

theorem lcGetTask (h : Calm k r c₀ c) (taskId : String) :
  Calm k r c₀ (LCFileNetService.lcGetTask taskId c)
  := by
  rw [LCFileNetService.lcGetTask]
  split
  · apply h
  · split
    · next row _ =>
        have hset := h.pSetTask_object row
        simp only
        split
        · apply hset.setStatus c.tasks.next LCFileNetTaskStatus.noConfusion
        · apply hset.setStatus c.tasks.next LCFileNetTaskStatus.noConfusion
        · apply hset
    · apply h

end Calm

/-! ### Steps -/

/-- The event tells the start of the operation: `main` goes on after its call of the handler, or
it calls no handler. -/
def NotifiesStart (o : OpRef) (s : State) : Event → Prop
  | .returns i => s.pending[i]? = some (.main o)
  | .opStart o' =>
      o' = o ∧ (o < s.ops.next ∧ (s.ops.cell o).started = false) ∧
        (s.ops.cell o).cancelled = false ∧
        (s.handerOf o = none ∨ (s.tasks.cell (s.taskOf o)).type = .unknown)
  | _ => False

/-- The event is neither a start nor a resumption of the task id, and no one sets the status of
the task object to Progress by it. -/
def Otherwise (k : String) (r : TaskRef) (s : State) : Event → Prop
  | .startTask task => (s.tasks.cell task).taskId ≠ some k
  | .resumTask taskId => taskId ≠ k
  | .set task t => task = r → t.status ≠ .progress
  | _ => True

section

variable {s : State} {md5 : Bytes → String} {o : OpRef}

/-- Starting an operation that is cancelled or calls the handler sets nothing to Progress. -/
theorem Calm.start {k : String} {r : TaskRef} {c₀ : Core} (h : Calm k r c₀ s.toCore)
    (ho : (s.ops.cell o).cancelled = false →
      (s.handerOf o).isSome ∧ (s.tasks.cell (s.taskOf o)).type ≠ .unknown) :
  Calm k r c₀ (LCFileNetOperation.start (quiet md5) o s).toCore
  := by
  rw [LCFileNetOperation.start]
  split
  · exact h.congr rfl rfl
  · next hcancelled =>
      rw [Bool.not_eq_true] at hcancelled
      obtain ⟨hhander, htype⟩ := ho hcancelled
      have hexecuting : Calm k r c₀
          (s.toCore.setOp o (fun op => { op with executing := true })) := h.congr rfl rfl
      rw [toCore_main, if_pos]
      · exact (hexecuting.sameTables (SameTables.mainTransfer o _)).congr rfl rfl
      · apply calls_mainTransfer
        · rw [State.toCore_mapCore, Core.handerOf_setOp rfl]
          apply hhander
        · rw [State.toCore_mapCore, Core.taskOf_setOp rfl]
          apply htype

/-- An event that tells no start, and is no start of the task id, sets neither its row nor the
task object to Progress. -/
theorem Calm.step {k : String} {r : TaskRef} (hwf : WellFormed s.toCore) {e : Event}
    (hrestart : e ≠ .restart) (he : Otherwise k r s e) (hnone : ∀ o, ¬ NotifiesStart o s e) :
  Calm k r s.toCore (LCCFileService.step (quiet md5) s e).toCore
  := by
  have hrefl : Calm k r s.toCore s.toCore := Calm.refl s.toCore
  cases e with
  | create t => apply hrefl.allocTask
  | set task t =>
      rw [LCCFileService.step]
      split
      · apply hrefl.setTask
        intro heq hstatus
        apply absurd hstatus (he heq)
      · apply hrefl
  | startTask task =>
      rw [LCCFileService.step]
      split
      · rw [toCore_lcStartTask]
        apply hrefl.startTask he
      · apply hrefl
  | resumTask taskId => apply hrefl.lcResumTask hwf he
  | pauseTask taskId => apply hrefl.pauseTasks
  | pauseAllTask => apply hrefl.pauseTasks
  | cancelTask taskId => apply hrefl.lcCancelTask
  | getTask taskId => apply hrefl.lcGetTask
  | updatetask key filePath =>
      apply hrefl.updateTask
      intro row hstatus
      apply hstatus
  | opStart o =>
      rw [LCCFileService.step]
      split
      · next ho =>
          have hstarted : Calm k r s.toCore
              (s.mapCore (·.setOp o (fun op => { op with started := true }))).toCore :=
            hrefl.congr rfl rfl
          apply hstarted.start
          intro hcancelled
          rw [State.toCore_mapCore, Core.setOp, Heap.cell_modify_self] at hcancelled
          rw [State.toCore_mapCore, Core.handerOf_setOp rfl, Core.taskOf_setOp rfl]
          by_contra hnot
          rw [not_and_or, Option.not_isSome_iff_eq_none, not_not] at hnot
          apply hnone o ⟨rfl, ho, hcancelled, hnot⟩
      · apply hrefl
  | opCancel o =>
      rw [LCCFileService.step]
      split
      · apply hrefl.stop _ LCFileNetTaskStatus.noConfusion _ _ (fun _ hs => hs)
      · apply hrefl
  | opPause o =>
      rw [LCCFileService.step]
      split
      · apply hrefl.stop _ LCFileNetTaskStatus.noConfusion _ _ (fun _ hs => hs)
      · apply hrefl
  | returns i =>
      rw [LCCFileService.step]
      split
      · next t ht =>
          apply Calm.runTail
          · exact hrefl.congr rfl rfl
          · rintro o rfl
            apply hnone o ht
      · apply hrefl
  | progress r =>
      rw [LCCFileService.step]
      split
      · apply hrefl.progressBlock
      · apply hrefl
  | finish r error =>
      rw [LCCFileService.step]
      split
      · apply Calm.finishBlock
        exact hrefl.congr rfl rfl
      · apply hrefl
  | addHander hander => exact hrefl.congr rfl rfl
  | deallocHander hander => exact hrefl.congr rfl rfl
  | addObserver o => apply hrefl
  | find finder => apply hrefl
  | edit path content => exact hrefl.congr rfl rfl
  | restart => apply absurd rfl hrestart

/-- `main` of an operation without a handler, or of a task of unknown type, calls nobody. -/
theorem not_calls_mainTransfer {c : Core}
    (h : c.handerOf o = none ∨ (c.tasks.cell (c.taskOf o)).type = .unknown) :
  (mainTransfer o c).calls = c.calls
  := by
  rw [mainTransfer]
  rcases h with hhander | htype
  · simp only [pResumUpload, pStartUpload, pResumDownLoad, pStartDownload, hhander,
      Option.isSome_none, Bool.false_eq_true, if_false]
    split
    · split
      · rfl
      · rfl
    · split
      · rfl
      · rfl
    · rfl
  · rw [htype]

/-- A start notification records the status Progress, and changes nothing else of tasks and
rows. -/
theorem toCore_notifiesStart {e : Event} (he : NotifiesStart o s e) :
  ∃ c : Core, c.tasks = s.tasks ∧ c.db = s.db ∧
    (LCCFileService.step (quiet md5) s e).toCore = c.recordStatus (s.taskOf o) .progress
  := by
  cases e with
  | returns i =>
      have hi : s.pending[i]? = some (.main o) := he
      refine ⟨s.toCore.dropTail i, rfl, rfl, ?_⟩
      simp only [LCCFileService.step, hi, runTail, toCore_pNotifyStart]
      rfl
  | opStart o' =>
      obtain ⟨rfl, hallocated, hcancelled, hnone⟩ := he
      have hnot : ¬ ((s.toCore.setOp o' (fun op => { op with started := true })).ops.cell
          o').cancelled = true := by
        rw [Core.setOp, Heap.cell_modify_self]
        simpa using hcancelled
      have hexecuting : SameTables s.toCore
          ((s.toCore.setOp o' (fun op => { op with started := true })).setOp o'
            (fun op => { op with executing := true })) :=
        (SameTables.setOp rfl).trans (SameTables.setOp rfl)
      have hmain := hexecuting.trans (SameTables.mainTransfer o' _)
      rw [LCCFileService.step, if_pos hallocated, start, State.toCore_mapCore, if_neg hnot,
        toCore_main, State.toCore_mapCore, State.toCore_mapCore, if_neg, hmain.taskOf]
      · obtain ⟨ops, calls, heq, -⟩ := hmain
        exact ⟨{ s.toCore with ops := ops, calls := calls }, rfl, rfl, by rw [heq]⟩
      · intro hlt
        rw [not_calls_mainTransfer] at hlt
        · apply Nat.lt_irrefl _ hlt
        · rw [hexecuting.taskOf, Core.handerOf_setOp rfl, Core.handerOf_setOp rfl]
          apply hnone
  | _ => cases he

/-- A start notification sets the row to Progress exactly if it is of an operation of the task id
and there is a row that is not in progress. -/
theorem setsRow_notifiesStart {k : String} {e : Event} (he : NotifiesStart o s e) :
  SetsRow k s.toCore (step (quiet md5) s e).toCore
    ↔ s.taskIdOf o = some k ∧ RowOutOfProgress k s.toCore
  := by
  obtain ⟨c, htasks, hdb, hcore⟩ := @toCore_notifiesStart s md5 o e he
  have hrow : RowInProgress k (step (quiet md5) s e).toCore
      ↔ if s.taskIdOf o = some k then (s.db.get k).isSome = true
        else RowInProgress k s.toCore := by
    rw [RowInProgress, hcore, Core.recordStatus, Core.setDb, LCFileTaskDB.lcUpdateTaskStatus,
      LCFileTaskDB.get_updateTask, htasks]
    simp only [Core.setStatus, Core.setTask, hdb]
    rw [← Core.taskIdOf]
    split
    · cases s.db.get k with
      | none => simp
      | some row => simp
    · rfl
  rw [SetsRow, hrow, RowOutOfProgress]
  split
  · next hid =>
      rw [and_comm]
      apply (and_iff_right hid).symm
  · next hid =>
      apply iff_of_false
      · rintro ⟨hnot, hrow⟩
        apply hnot hrow
      · rintro ⟨hid', -⟩
        apply hid hid'

/-- A start notification sets the task object to Progress exactly if it is of an operation of the
object, which is not in progress. -/
theorem setsObject_notifiesStart {r : TaskRef} {e : Event} (he : NotifiesStart o s e) :
  SetsObject r s.toCore (step (quiet md5) s e).toCore
    ↔ s.taskOf o = r ∧ ObjectOutOfProgress r s.toCore
  := by
  obtain ⟨c, htasks, hdb, hcore⟩ := @toCore_notifiesStart s md5 o e he
  have hobject : ObjectInProgress r (step (quiet md5) s e).toCore
      ↔ s.taskOf o = r ∨ ObjectInProgress r s.toCore := by
    rw [ObjectInProgress, hcore, Core.recordStatus, Core.setDb, Core.cell_setStatus, htasks]
    split
    · next hr => exact iff_of_true rfl (Or.inl hr.symm)
    · next hr => exact ⟨Or.inr, fun h => h.resolve_left (Ne.symm hr)⟩
  rw [SetsObject, hobject, and_comm]
  constructor
  · rintro ⟨htask | hin, hout⟩
    · exact ⟨htask, hout⟩
    · apply absurd hin hout.2
  · rintro ⟨htask, hout⟩
    exact ⟨Or.inl htask, hout⟩

/-- The end of the process sets nothing to Progress. -/
theorem not_sets_restart (k : String) (r : TaskRef) :
  ¬ SetsRow k s.toCore (step (quiet md5) s .restart).toCore ∧
    ¬ SetsObject r s.toCore (step (quiet md5) s .restart).toCore
  := by
  constructor
  · rintro ⟨hnot, hrow⟩
    apply hnot hrow
  · rintro ⟨-, hobject⟩
    cases hobject

/-- An event other than a start sets the row to Progress exactly if it tells a start of an
operation of the task id and there is a row that is not in progress. -/
theorem setsRow_iff {k : String} {r : TaskRef} (hwf : WellFormed s.toCore) {e : Event}
    (he : Otherwise k r s e) :
  SetsRow k s.toCore (step (quiet md5) s e).toCore
    ↔ ∃ o, NotifiesStart o s e ∧ s.taskIdOf o = some k ∧ RowOutOfProgress k s.toCore
  := by
  constructor
  · intro hsets
    by_cases hnone : ∃ o, NotifiesStart o s e
    · obtain ⟨o, ho⟩ := hnone
      exact ⟨o, ho, (setsRow_notifiesStart ho).mp hsets⟩
    · by_cases hrestart : e = .restart
      · subst hrestart
        apply absurd hsets (not_sets_restart k r).1
      · rw [not_exists] at hnone
        apply absurd hsets (Calm.step hwf hrestart he hnone).not_sets.1
  · rintro ⟨o, ho, hout⟩
    apply (setsRow_notifiesStart ho).mpr hout

/-- An event other than a start sets the task object to Progress exactly if it tells a start of
an operation of the object, which is not in progress. -/
theorem setsObject_iff {k : String} {r : TaskRef} (hwf : WellFormed s.toCore) {e : Event}
    (he : Otherwise k r s e) :
  SetsObject r s.toCore (step (quiet md5) s e).toCore
    ↔ ∃ o, NotifiesStart o s e ∧ s.taskOf o = r ∧ ObjectOutOfProgress r s.toCore
  := by
  constructor
  · intro hsets
    by_cases hnone : ∃ o, NotifiesStart o s e
    · obtain ⟨o, ho⟩ := hnone
      exact ⟨o, ho, (setsObject_notifiesStart ho).mp hsets⟩
    · by_cases hrestart : e = .restart
      · subst hrestart
        apply absurd hsets (not_sets_restart k r).2
      · rw [not_exists] at hnone
        apply absurd hsets (Calm.step hwf hrestart he hnone).not_sets.2
  · rintro ⟨o, ho, hout⟩
    apply (setsObject_notifiesStart ho).mpr hout

end

/-! ### Runs -/

/-- The loop over the task ids calls `lc_pauseTask:` for `k`, and the call sets the status of the
task object and returns. -/
def PausesIn (md5 : Bytes → String) (k : String) (r : TaskRef) : List String → State → Prop
  | [], _ => False
  | taskId :: taskIds, s =>
      match s.cache.lookup taskId with
      | none => PausesIn md5 k r taskIds s
      | some cacheTask =>
          if (s.tasks.cell cacheTask).status = .finish then PausesIn md5 k r taskIds s
          else
            (∀ o ∈ s.taskOperationDic.lookup taskId, callsHander o s.toCore = false) ∧
              (taskId = k ∧ cacheTask = r ∨
                PausesIn md5 k r taskIds (lcPauseTask (quiet md5) taskId s))

/-- A call of `lc_pauseTask:` or `lc_cancelTask:` for `k` sets the status of the task object and
returns with the event. -/
def StopReturns (md5 : Bytes → String) (k : String) (r : TaskRef) (s : State) : Event → Prop
  | .pauseTask taskId => PausesIn md5 k r [taskId] s
  | .pauseAllTask => PausesIn md5 k r s.taskOperationDic.keys s
  | .cancelTask taskId =>
      taskId = k ∧ s.cache.lookup k = some r ∧ (s.tasks.cell r).status ≠ .finish ∧
        ∀ o ∈ s.taskOperationDic.lookup k, callsHander o s.toCore = false
  | .returns i =>
      ∃ o, s.pending[i]? = some (.lcCancelTask o k r) ∨
        ∃ cacheTask taskIds, s.pending[i]? = some (.lcPauseTask o cacheTask taskIds) ∧
          (cacheTask = r ∧ (s.tasks.cell r).taskId = some k ∨
            PausesIn md5 k r taskIds (pauseTail (quiet md5) cacheTask
              (stopTail (quiet md5) .pause o (s.mapCore (·.dropTail i)))))
  | _ => False

/-- In the run over `es` from `s`, whatever happens after a call of `lc_pauseTask:` or
`lc_cancelTask:` for a task, and before the task is started or resumed, has the property `R` of
the row, and as long as the process lives `O` of the task object. -/
def AfterStop (md5 : Bytes → String) (R : String → State → Event → Prop)
    (O : TaskRef → State → Event → Prop) (s : State) (es : List Event) : Prop :=
  ∀ pre c mid e k r, pre ++ c :: mid ++ [e] <+: es →
    StopReturns md5 k r (Run.final (step (quiet md5)) s pre) c →
    Run.Along (step (quiet md5)) (Otherwise k r) (Run.final (step (quiet md5)) s (pre ++ [c]))
      (mid ++ [e]) →
    R k (Run.final (step (quiet md5)) s (pre ++ c :: mid)) e ∧
      (.restart ∉ mid → O r (Run.final (step (quiet md5)) s (pre ++ c :: mid)) e)

/-- In the run over `es` from `s` no paused or cancelled task turns back to Progress by itself. -/
def StaysOutOfProgress (md5 : Bytes → String) : State → List Event → Prop :=
  AfterStop md5 (fun k s e => ¬ SetsRow k s.toCore (step (quiet md5) s e).toCore)
    (fun r s e => ¬ SetsObject r s.toCore (step (quiet md5) s e).toCore)

/-- In the run over `es` from `s` no start told after a pause or cancellation is that of an
operation whose row or task object is not in progress. -/
def NoLateStart (md5 : Bytes → String) : State → List Event → Prop :=
  AfterStop md5
    (fun k s e => ∀ o, NotifiesStart o s e → s.taskIdOf o = some k →
      ¬ RowOutOfProgress k s.toCore)
    (fun r s e => ∀ o, NotifiesStart o s e → s.taskOf o = r → ¬ ObjectOutOfProgress r s.toCore)

/-- What follows a pause or cancellation in a run of the system has the properties `R` and `O`
exactly if it has `R'` and `O'`, if these are the same for every event that is no start. -/
theorem afterStop_congr (md5 : Bytes → String) (db : TaskTable) (disk : Disk String Bytes)
    (es : List Event) {R R' : String → State → Event → Prop}
    {O O' : TaskRef → State → Event → Prop}
    (h : ∀ {s k r e}, WellFormed s.toCore → Otherwise k r s e →
      (R k s e ↔ R' k s e) ∧ (O r s e ↔ O' r s e)) :
  AfterStop md5 R O (State.initial db disk) es ↔ AfterStop md5 R' O' (State.initial db disk) es
  := by
  have hwf : ∀ es, WellFormed (Run.final (step (quiet md5)) (State.initial db disk) es).toCore :=
    fun es => (WellFormed.throughout db disk es).final
  have hlast : ∀ {pre c mid e k r},
      Run.Along (step (quiet md5)) (Otherwise k r)
        (Run.final (step (quiet md5)) (State.initial db disk) (pre ++ [c])) (mid ++ [e]) →
      Otherwise k r (Run.final (step (quiet md5)) (State.initial db disk) (pre ++ c :: mid))
        e := by
    intro pre c mid e k r halong
    rw [Run.along_append, ← Run.final_append] at halong
    have he := halong.2.1
    rw [List.append_assoc, List.singleton_append] at he
    apply he
  constructor
  · intro hafter pre c mid e k r hes hstop halong
    obtain ⟨hR, hO⟩ := h (hwf (pre ++ c :: mid)) (hlast halong)
    rw [← hR, ← hO]
    apply hafter pre c mid e k r hes hstop halong
  · intro hafter pre c mid e k r hes hstop halong
    obtain ⟨hR, hO⟩ := h (hwf (pre ++ c :: mid)) (hlast halong)
    rw [hR, hO]
    apply hafter pre c mid e k r hes hstop halong

/-- In a run of the system no paused or cancelled task turns back to Progress exactly if no start
told late finds it out of progress. -/
theorem staysOutOfProgress_iff (md5 : Bytes → String) (db : TaskTable)
    (disk : Disk String Bytes) (es : List Event) :
  StaysOutOfProgress md5 (State.initial db disk) es ↔ NoLateStart md5 (State.initial db disk) es
  := by
  apply afterStop_congr
  intro s k r e hwf he
  constructor
  · rw [setsRow_iff hwf he]
    simp only [not_exists, not_and]
  · rw [setsObject_iff hwf he]
    simp only [not_exists, not_and]

/-- A download that is paused after its operation has called the handler and before the call
returns. -/
def pausedInCall : List Event :=
  [.create { taskId := "k", type := .download }, .addHander 0, .startTask 0, .opStart 0,
    .pauseTask "k"]

/-- The return of the transfer call sets the paused download back to Progress. -/
theorem not_staysOutOfProgress_pausedInCall :
  ¬ StaysOutOfProgress (fun _ => "") (State.initial ∅ (fun _ => none))
      (pausedInCall ++ .returns 1 :: [.returns 0])
  := by
  intro h
  have hstop : StopReturns (fun _ => "") "k" 0 (Run.final (step (quiet (fun _ => "")))
      (State.initial ∅ (fun _ => none)) pausedInCall) (.returns 1) := by
    refine ⟨0, Or.inr ⟨0, [], ?_, Or.inl ⟨rfl, ?_⟩⟩⟩
    · decide +kernel
    · decide +kernel
  have hnot := (h pausedInCall (.returns 1) [] (.returns 0) "k" 0 List.prefix_rfl hstop
    ⟨trivial, trivial⟩).2 (by simp)
  apply hnot
  refine ⟨⟨?_, ?_⟩, ?_⟩
  · decide +kernel
  · decide +kernel
  · decide +kernel

end LCCFileService
