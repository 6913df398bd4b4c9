import LCCFileService.FileNet.Operations
import LCCFileService.FileNet.Tables

/-!
# Statuses in memory and in the table

The status of a cached task is to be that of its row, where a row that still says Create or
Progress may belong to a task that is interrupted.  Operations record a status in memory and
in the row of the task id, which is in order if it is their task that is cached.
`lc_pauseTask:` by itself sets the status in memory only, which is in order if its operation
has recorded it before, or if the row says Pause already.
-/

namespace LCCFileService

open LCFileNetService LCFileNetOperation

/-- The status of a cached task agrees with that of its row. -/
def Matches (cached row : LCFileNetTaskStatus) : Prop :=
  cached = row ∨ cached = .interrupt ∧ (row = .create ∨ row = .progress)

instance (cached row : LCFileNetTaskStatus) : Decidable (Matches cached row) :=
  inferInstanceAs (Decidable (_ ∨ _))

/-- The status in the row of a task id. -/
def rowStatus (k : String) (c : Core) : Option LCFileNetTaskStatus :=
  (c.db.get k).map (fun row => row.status)

/-- The status of every cached task agrees with that of its row. -/
def StatusesAgree (c : Core) : Prop :=
  ∀ k r, c.cache.lookup k = some r →
    ∃ status, rowStatus k c = some status ∧ Matches (c.tasks.cell r).status status

/-- What is cached under the task id of the task object is the object itself, or a task whose
status agrees with the given one. -/
def CachedTakes (status : LCFileNetTaskStatus) (r : TaskRef) (c : Core) : Prop :=
  ∀ k ∈ (c.tasks.cell r).taskId, ∀ r' ∈ c.cache.lookup k,
    r' = r ∨ Matches (c.tasks.cell r').status status

instance (status : LCFileNetTaskStatus) (r : TaskRef) (c : Core) :
    Decidable (CachedTakes status r c) :=
  inferInstanceAs (Decidable (∀ k ∈ (c.tasks.cell r).taskId, _))

/-! ### Pending calls -/

/-- The operation a call of the service waits for is an operation of its task. -/
def Tail.Owned (c : Core) : Tail → Prop
  | .lcCancelTask o taskId cacheTask =>
      o < c.ops.next ∧ c.taskOf o = cacheTask ∧ c.taskIdOf o = some taskId
  | .lcPauseTask o cacheTask _ => o < c.ops.next ∧ c.taskOf o = cacheTask
  | _ => True

/-- The operations the pending calls wait for are operations of their tasks. -/
def TailsOwned (c : Core) : Prop := ∀ t ∈ c.pending, t.Owned c

/-- A pending call keeps its operation. -/
theorem Tail.Owned.advance {B : OpRef → Prop} {c c' : Core} (hwf : WellFormed c)
    (h : Advance B c c') {t : Tail} (ht : t.Owned c) :
  t.Owned c'
  := by
  cases t with
  | lcCancelTask o taskId cacheTask =>
      obtain ⟨ho, htask, hid⟩ := ht
      refine ⟨Nat.lt_of_lt_of_le ho h.ops_le, ?_, ?_⟩
      · rw [h.task o ho]
        apply htask
      · rw [Core.taskIdOf, h.task o ho, h.taskId _ (hwf.owned o ho)]
        apply hid
  | lcPauseTask o cacheTask taskIds =>
      obtain ⟨ho, htask⟩ := ht
      refine ⟨Nat.lt_of_lt_of_le ho h.ops_le, ?_⟩
      rw [h.task o ho]
      apply htask
  | main o => trivial
  | cancel o => trivial
  | pause o => trivial

/-- Every call pending in `c'` is pending in `c`, or waits for an operation of its task. -/
def Pends (c c' : Core) : Prop := ∀ t ∈ c'.pending, t ∈ c.pending ∨ t.Owned c'

namespace Pends

variable {c c' : Core} {s : State} {md5 : Bytes → String}

theorem of_eq (h : c'.pending = c.pending) :
  Pends c c'
  := by
  intro t ht
  rw [h] at ht
  apply Or.inl ht

/-- What comes before may change anything but the pending calls. -/
theorem before {c'' : Core} (h' : Pends c' c'') (h : c'.pending = c.pending) :
  Pends c c''
  := by
  intro t ht
  rw [← h]
  apply h' t ht

theorem await {t : Tail} (h : c'.pending = c.pending ++ [t]) (ht : t.Owned c') :
  Pends c c'
  := by
  intro t' ht'
  rw [h, List.mem_append, List.mem_singleton] at ht'
  rcases ht' with hmem | rfl
  · apply Or.inl hmem
  · apply Or.inr ht

/-- Stopping an operation, where the caller does nothing more. -/
theorem stop (method : HanderMethod) (status : LCFileNetTaskStatus) (o : OpRef) {t : Tail}
    (ht : ∀ c, t.Owned c) :
  Pends s.toCore (LCFileNetOperation.stop (quiet md5) method status o t id s).toCore
  := by
  rw [LCFileNetOperation.stop]
  split
  · apply await rfl (ht _)
  · split
    · apply of_eq
      rw [id, toCore_stopTail]
      rfl
    · apply of_eq rfl

theorem start (o : OpRef) :
  Pends s.toCore (LCFileNetOperation.start (quiet md5) o s).toCore
  := by
  rw [LCFileNetOperation.start]
  split
  · apply of_eq rfl
  · obtain ⟨ops, calls, heq, -⟩ := SameTables.mainTransfer o
      (s.mapCore (·.setOp o (fun op => { op with executing := true }))).toCore
    rw [toCore_main, heq]
    split
    · exact await rfl trivial
    · apply of_eq rfl

theorem finishBlock (method : HanderMethod) (o : OpRef) (error : Option NSError) :
  Pends s.toCore (LCFileNetOperation.finishBlock (quiet md5) method o error s).toCore
  := by
  apply of_eq
  by_cases hends : method.Ends error
  · rw [finishBlock_ends hends, toCore_ended_outcome]
    rfl
  · obtain ⟨ops, calls, heq, -⟩ := finishBlock_not_ends hends (quiet md5) o s
    rw [heq]

theorem pAddTask (task : TaskRef) :
  (LCFileNetService.pAddTask task c).pending = c.pending
  := by
  rw [LCFileNetService.pAddTask]
  split
  · rfl
  · rfl
  · rfl

theorem startTask (task : TaskRef) :
  Pends c (c.startTask md5 task)
  := by
  have hmd5 : (LCFileNetService.pSetMd5 md5 task c).pending = c.pending := by
    rw [LCFileNetService.pSetMd5]
    split
    · split
      · rfl
      · rfl
    · rfl
  apply of_eq
  rw [Core.startTask]
  split
  · split
    · rw [Core.startChecked]
      split
      · split
        · rw [pAddTask, hmd5]
        · apply hmd5
      · split
        · simp only
          split
          · apply hmd5
          · rw [pAddTask]
            apply hmd5
          · rw [pAddTask]
            apply hmd5
          · rw [pAddTask]
            apply hmd5
        · rw [startNew, pAddTask]
          apply hmd5
    · rfl
  · rfl

theorem lcResumTask (taskId : String) :
  Pends s.toCore (LCFileNetService.lcResumTask (quiet md5) taskId s).toCore
  := by
  rw [LCFileNetService.lcResumTask]
  split
  · split
    · apply of_eq rfl
    · rw [toCore_lcStartTask]
      apply startTask
  · apply of_eq rfl

theorem lcCancelTask (hwf : WellFormed s.toCore) (taskId : String) :
  Pends s.toCore (LCFileNetService.lcCancelTask (quiet md5) taskId s).toCore
  := by
  have htail : ∀ s cacheTask,
      (cancelTail (quiet md5) taskId cacheTask s).pending = s.pending := by
    intro s cacheTask
    rw [toCore_cancelTail]
    rfl
  rw [LCFileNetService.lcCancelTask]
  split
  · exact of_eq rfl
  · next cacheTask hcached =>
      split
      · exact of_eq rfl
      · split
        · next operaton hstored =>
            have htask : s.taskOf operaton = cacheTask := hwf.taskOf_eq hstored hcached
            rw [LCFileNetOperation.cancel, LCFileNetOperation.stop]
            split
            · obtain ⟨ho, hid⟩ := hwf.taskIdOf hstored
              exact await rfl ⟨ho, htask, hid⟩
            · split
              · apply of_eq
                rw [htail, toCore_stopTail]
                rfl
              · exact of_eq (htail _ _)
        · exact of_eq (htail _ _)

theorem pauseTasks (hwf : WellFormed s.toCore) (taskIds : List String) :
  Pends s.toCore (LCFileNetService.pauseTasks (quiet md5) taskIds s).toCore
  := by
  have hpause : ∀ s cacheTask, (pauseTail (quiet md5) cacheTask s).pending = s.pending := by
    intro s cacheTask
    rw [toCore_pauseTail]
    rfl
  induction taskIds generalizing s with
  | nil => apply of_eq rfl
  | cons taskId taskIds ih =>
      rw [LCFileNetService.pauseTasks]
      split
      · apply ih hwf
      · next cacheTask hcached =>
          split
          · apply ih hwf
          · split
            · next operaton hstored =>
                have htask : s.taskOf operaton = cacheTask := hwf.taskOf_eq hstored hcached
                rw [LCFileNetOperation.pause, LCFileNetOperation.stop]
                split
                · exact await rfl ⟨hwf.enqueued taskId operaton hstored, htask⟩
                · split
                  · refine before (ih ?_) ?_
                    · apply (hwf.stopTail .pause operaton).pauseTail
                    · rw [hpause, toCore_stopTail]
                      rfl
                  · refine before (ih ?_) (hpause _ _)
                    apply WellFormed.pauseTail
                    apply hwf.superCancel operaton
            · refine before (ih ?_) (hpause _ _)
              apply hwf.pauseTail

theorem runTail (hwf : WellFormed s.toCore) (t : Tail) :
  Pends s.toCore (LCFileNetService.runTail (quiet md5) t s).toCore
  := by
  cases t with
  | main o =>
      apply of_eq
      rw [LCFileNetService.runTail, toCore_pNotifyStart]
      rfl
  | cancel o =>
      apply of_eq
      rw [LCFileNetService.runTail, toCore_stopTail]
      rfl
  | pause o =>
      apply of_eq
      rw [LCFileNetService.runTail, toCore_stopTail]
      rfl
  | lcCancelTask o taskId cacheTask =>
      apply of_eq
      rw [LCFileNetService.runTail, toCore_cancelTail, toCore_stopTail]
      rfl
  | lcPauseTask o cacheTask taskIds =>
      refine before (pauseTasks ?_ taskIds) ?_
      · apply (hwf.stopTail .pause o).pauseTail
      · rw [toCore_pauseTail, toCore_stopTail]
        rfl

end Pends

/-- The tails that get pending by an event wait for an operation of their task. -/
theorem Pends.step {md5 : Bytes → String} {s : State} (hwf : WellFormed s.toCore) (e : Event) :
  Pends s.toCore (LCCFileService.step (quiet md5) s e).toCore
  := by
  have hrefl : Pends s.toCore s.toCore := of_eq rfl
  cases e with
  | create t => apply of_eq rfl
  | set task t =>
      rw [LCCFileService.step]
      split
      · apply of_eq rfl
      · apply hrefl
  | startTask task =>
      rw [LCCFileService.step]
      split
      · rw [toCore_lcStartTask]
        apply startTask
      · apply hrefl
  | resumTask taskId => apply lcResumTask
  | pauseTask taskId => apply pauseTasks hwf
  | pauseAllTask => apply pauseTasks hwf
  | cancelTask taskId => apply lcCancelTask hwf
  | getTask taskId =>
      apply of_eq
      rw [LCCFileService.step, State.toCore_mapCore, lcGetTask]
      split
      · rfl
      · split
        · simp only
          split
          · rfl
          · rfl
          · rfl
        · rfl
  | updatetask key filePath => apply of_eq rfl
  | opStart o =>
      rw [LCCFileService.step]
      split
      · apply (start o).before rfl
      · apply hrefl
  | opCancel o =>
      rw [LCCFileService.step]
      split
      · exact stop _ _ o (fun _ => trivial)
      · apply hrefl
  | opPause o =>
      rw [LCCFileService.step]
      split
      · exact stop _ _ o (fun _ => trivial)
      · apply hrefl
  | returns i =>
      rw [LCCFileService.step]
      split
      · next tail _ =>
          have hdrop : WellFormed (s.mapCore (·.dropTail i)).toCore :=
            hwf.congr rfl rfl rfl rfl rfl
          intro t ht
          rcases runTail hdrop tail t ht with hmem | howned
          · apply Or.inl (List.mem_of_mem_eraseIdx hmem)
          · apply Or.inr howned
      · apply hrefl
  | progress r =>
      rw [LCCFileService.step]
      split
      · apply of_eq
        rw [toCore_progressBlock]
        split
        · rfl
        · rfl
      · apply hrefl
  | finish r error =>
      rw [LCCFileService.step]
      split
      · exact (finishBlock _ _ error).before rfl
      · apply hrefl
  | addHander hander => apply of_eq rfl
  | deallocHander hander => apply of_eq rfl
  | addObserver o => apply hrefl
  | find finder => apply hrefl
  | edit path content => apply of_eq rfl
  | restart =>
      rintro t ⟨⟩

/-- The pending calls keep waiting for operations of their tasks. -/
theorem TailsOwned.step {md5 : Bytes → String} {s : State} (h : TailsOwned s.toCore)
    (hwf : WellFormed s.toCore) (e : Event) :
  TailsOwned (LCCFileService.step (quiet md5) s e).toCore
  := by
  by_cases hrestart : e = .restart
  · subst hrestart
    rintro t ⟨⟩
  · intro t ht
    rcases Pends.step hwf e t ht with hmem | howned
    · exact (h t hmem).advance hwf (Advance.step s hrestart)
    · exact howned

/-! ### Changes that keep the statuses in agreement -/

namespace StatusesAgree

variable {c : Core}

/-- The core at the start of a process. -/
theorem initial (db : TaskTable) (disk : Disk String Bytes) :
  StatusesAgree (State.initial db disk).toCore
  := by
  rintro k r ⟨⟩

/-- Changes of other parts of the core do not matter. -/
theorem congr {c' : Core} (h : StatusesAgree c) (htasks : c'.tasks = c.tasks)
    (hdb : c'.db = c.db) (hcache : c'.cache = c.cache) :
  StatusesAgree c'
  := by
  rw [StatusesAgree, hcache, htasks]
  intro k r hr
  rw [rowStatus, hdb]
  apply h k r hr

/-- Setting properties of a task to ones with a status that agrees with the row. -/
theorem setTask (h : StatusesAgree c) {r : TaskRef} {f : LCFileNetTask → LCFileNetTask}
    (hf : ∀ k, c.cache.lookup k = some r →
      ∃ status, rowStatus k c = some status ∧ Matches (f (c.tasks.cell r)).status status) :
  StatusesAgree (c.setTask r f)
  := by
  intro k r' hr'
  rw [Core.setTask, Heap.cell_modify]
  split
  · next hr =>
      subst hr
      apply hf k hr'
  · apply h k r' hr'

/-- An update that keeps the statuses of rows. -/
theorem updateTask (h : StatusesAgree c) (taskId : Option String)
    {f : LCFileNetTaskFields → LCFileNetTaskFields} (hf : ∀ row, (f row).status = row.status) :
  StatusesAgree (c.setDb (LCFileTaskDB.updateTask taskId f))
  := by
  intro k r hr
  have hrow : rowStatus k (c.setDb (LCFileTaskDB.updateTask taskId f)) = rowStatus k c := by
    rw [rowStatus, Core.setDb, LCFileTaskDB.get_updateTask]
    split
    · rw [Option.map_map]
      apply Option.map_congr
      intro row _
      apply hf row.toLCFileNetTaskFields
    · rfl
  rw [hrow]
  apply h k r hr

theorem allocTask (h : StatusesAgree c) (hwf : WellFormed c) (t : LCFileNetTask) :
  StatusesAgree (c.allocTask t)
  := by
  intro k r hr
  rw [Core.allocTask, Heap.cell_alloc_of_lt t (hwf.allocated k r hr)]
  apply h k r hr

/-- Caching a task whose status agrees with its row. -/
theorem pSetTask (h : StatusesAgree c) {task : TaskRef} {key : String}
    (hkey : ∃ status, rowStatus key c = some status ∧
      Matches (c.tasks.cell task).status status) :
  StatusesAgree (LCFileNetService.pSetTask task key c)
  := by
  intro k r hr
  rw [LCFileNetService.pSetTask, Dictionary.lookup_insert] at hr
  split at hr
  · next hk =>
      obtain rfl := Option.some.inj hr
      rw [hk]
      apply hkey
  · apply h k r hr

/-- Saving a task that agrees with what is cached under its task id. -/
theorem saveTask (h : StatusesAgree c) {t : LCFileNetTask}
    (ht : ∀ k r, t.taskId = some k → c.cache.lookup k = some r →
      Matches (c.tasks.cell r).status t.status) :
  StatusesAgree (c.setDb (LCFileTaskDB.lcSaveTask t))
  := by
  intro k r hr
  rw [rowStatus, Core.setDb, LCFileTaskDB.get_lcSaveTask]
  split
  · next hid => exact ⟨t.status, rfl, ht k r hid hr⟩
  · apply h k r hr

/-! ### Operations -/

/-- Recording a status for a task, if what is cached under its task id takes it. -/
theorem recordStatus (h : StatusesAgree c) (hwf : WellFormed c) {r : TaskRef}
    {status : LCFileNetTaskStatus} (htakes : CachedTakes status r c) :
  StatusesAgree (c.recordStatus r status)
  := by
  intro k r' hr'
  obtain ⟨hid, hsome⟩ := hwf.cached k r' hr'
  rw [rowStatus, Core.recordStatus, Core.setDb, LCFileTaskDB.lcUpdateTaskStatus,
    LCFileTaskDB.get_updateTask, Core.cell_setStatus]
  split
  · next hk =>
      obtain ⟨row, hrow⟩ := Option.isSome_iff_exists.mp hsome
      refine ⟨status, ?_, ?_⟩
      · rw [Core.setStatus, Core.setTask, hrow]
        rfl
      · split
        · apply Or.inl rfl
        · next hne => exact (htakes k hk r' hr').resolve_left hne
  · next hk =>
      rw [if_neg]
      · apply h k r' hr'
      · rintro rfl
        apply hk hid

theorem superCancel (h : StatusesAgree c) (o : OpRef) :
  StatusesAgree (LCFileNetOperation.superCancel o c)
  := h.congr rfl rfl rfl

/-- A change of calls and operations only. -/
theorem sameTables {c' : Core} (h : StatusesAgree c) (hsame : SameTables c c') :
  StatusesAgree c'
  := by
  obtain ⟨ops, calls, rfl, -⟩ := hsame
  apply h.congr rfl rfl rfl

variable {s : State} {md5 : Bytes → String}

theorem stopTail (h : StatusesAgree s.toCore) (hwf : WellFormed s.toCore) {o : OpRef}
    {status : LCFileNetTaskStatus} (htakes : CachedTakes status (s.taskOf o) s.toCore) :
  StatusesAgree (LCFileNetOperation.stopTail (quiet md5) status o s).toCore
  := by
  rw [toCore_stopTail]
  apply (h.recordStatus hwf htakes).superCancel o

theorem progressBlock (h : StatusesAgree s.toCore) (o : OpRef) :
  StatusesAgree (LCFileNetOperation.progressBlock (quiet md5) o s).toCore
  := by
  have hsizes : StatusesAgree (s.toCore.recordSizes (s.taskOf o)) :=
    h.updateTask _ (fun _ => rfl)
  rw [toCore_progressBlock]
  split
  · apply hsizes.congr rfl rfl rfl
  · apply hsizes

theorem ended (h : StatusesAgree s.toCore) (hwf : WellFormed s.toCore) {o : OpRef}
    {error : Option NSError} (htakes : CachedTakes (outcome error) (s.taskOf o) s.toCore) :
  StatusesAgree (LCFileNetOperation.ended (quiet md5) o error s).toCore
  := by
  have hsaved := (h.recordStatus hwf htakes).saveTask
    (t := { s.tasks.cell (s.taskOf o) with status := outcome error })
  rw [toCore_ended_outcome]
  apply (hsaved ?_).congr rfl rfl rfl
  intro k r hid hr
  rw [Core.recordStatus, Core.setDb, Core.cell_setStatus]
  split
  · apply Or.inl rfl
  · next hne => exact (htakes k hid r hr).resolve_left hne

theorem finishBlock (h : StatusesAgree s.toCore) (hwf : WellFormed s.toCore)
    {method : HanderMethod} {o : OpRef} {error : Option NSError}
    (htakes : method.Ends error → CachedTakes (outcome error) (s.taskOf o) s.toCore) :
  StatusesAgree (LCFileNetOperation.finishBlock (quiet md5) method o error s).toCore
  := by
  by_cases hends : method.Ends error
  · rw [finishBlock_ends hends]
    apply h.ended hwf (htakes hends)
  · apply h.sameTables
    apply finishBlock_not_ends hends

/-- Stopping an operation from outside the service. -/
theorem stop (h : StatusesAgree s.toCore) (hwf : WellFormed s.toCore) {method : HanderMethod}
    {status : LCFileNetTaskStatus} {o : OpRef} {t : Tail}
    (htakes : callsHander o s.toCore = false → stoppable o s.toCore →
      CachedTakes status (s.taskOf o) s.toCore) :
  StatusesAgree (LCFileNetOperation.stop (quiet md5) method status o t id s).toCore
  := by
  rw [LCFileNetOperation.stop]
  split
  · apply h.congr rfl rfl rfl
  · next hcalls =>
      split
      · next hstoppable =>
          apply h.stopTail hwf
          exact htakes (Bool.not_eq_true _ ▸ hcalls) hstoppable
      · apply h.superCancel o

/-! ### The service -/

theorem pAddTask (h : StatusesAgree c) (task : TaskRef) :
  StatusesAgree (LCFileNetService.pAddTask task c)
  := by
  rw [LCFileNetService.pAddTask]
  split
  · apply h
  · apply h.congr rfl rfl rfl
  · apply h

theorem pSetMd5 (h : StatusesAgree c) (task : TaskRef) :
  StatusesAgree (LCFileNetService.pSetMd5 md5 task c)
  := by
  rw [LCFileNetService.pSetMd5]
  split
  · split
    · apply h.setTask
      intro k hk
      apply h k task hk
    · apply h
  · apply h

/-- Caching a task read from its row. -/
theorem pSetTask_object (h : StatusesAgree c) (hwf : WellFormed c) {row : LCFileNetTaskRow}
    {taskId : String} (hrow : c.db.get taskId = some row) :
  StatusesAgree (LCFileNetService.pSetTask c.tasks.next row.taskId (c.allocTask row.object))
  := by
  apply (h.allocTask hwf row.object).pSetTask
  refine ⟨row.status, ?_, Or.inl ?_⟩
  · rw [rowStatus, Core.allocTask, LCFileTaskDB.taskId_of_get hrow, hrow]
    rfl
  · rw [Core.allocTask, Heap.cell_alloc_next]
    rfl

/-- The task read from a row that says Create or Progress becomes interrupted. -/
theorem interrupt (h : StatusesAgree c) (hwf : WellFormed c) {row : LCFileNetTaskRow}
    {taskId : String} (hrow : c.db.get taskId = some row)
    (hstatus : row.status = .create ∨ row.status = .progress) :
  StatusesAgree ((LCFileNetService.pSetTask c.tasks.next row.taskId
    (c.allocTask row.object)).setStatus c.tasks.next .interrupt)
  := by
  apply (h.pSetTask_object hwf hrow).setTask
  intro k hk
  rw [LCFileNetService.pSetTask, Dictionary.lookup_insert] at hk
  split at hk
  · next hid =>
      refine ⟨row.status, ?_, Or.inr ⟨rfl, hstatus⟩⟩
      rw [hid, rowStatus, LCFileNetService.pSetTask, Core.allocTask,
        LCFileTaskDB.taskId_of_get hrow, hrow]
      rfl
  · apply absurd (hwf.allocated k _ hk) (Nat.lt_irrefl _)

theorem startChecked (h : StatusesAgree c) (hwf : WellFormed c) {task : TaskRef}
    {taskId : String} (hid : (c.tasks.cell task).taskId = some taskId) :
  StatusesAgree (c.startChecked task taskId)
  := by
  rw [Core.startChecked]
  split
  · split
    · apply h.pAddTask
    · apply h
  · next hcache =>
    split
    · next row hrow =>
        simp only
        split
        · apply h.pSetTask_object hwf hrow
        · next hstatus => exact (h.interrupt hwf hrow (Or.inr hstatus)).pAddTask _
        · next hstatus => exact (h.interrupt hwf hrow (Or.inl hstatus)).pAddTask _
        · apply (h.pSetTask_object hwf hrow).pAddTask _
    · have hsaved : StatusesAgree (c.setDb (LCFileTaskDB.lcSaveTask (c.tasks.cell task))) := by
        apply h.saveTask
        intro k r hk hr
        obtain rfl := Option.some.inj (hid.symm.trans hk)
        cases hcache.symm.trans hr
      have hset : StatusesAgree (LCFileNetService.pSetTask task taskId
          (c.setDb (LCFileTaskDB.lcSaveTask (c.tasks.cell task)))) := by
        apply hsaved.pSetTask
        refine ⟨(c.tasks.cell task).status, ?_, Or.inl rfl⟩
        rw [rowStatus, Core.setDb, LCFileTaskDB.get_lcSaveTask, if_pos hid]
        rfl
      apply hset.pAddTask task

theorem startTask (h : StatusesAgree c) (hwf : WellFormed c) (task : TaskRef) :
  StatusesAgree (c.startTask md5 task)
  := by
  rw [Core.startTask]
  split
  · next taskId hid =>
      split
      · apply (h.pSetMd5 task).startChecked (hwf.pSetMd5 task)
        rw [taskId_pSetMd5]
        apply hid
      · apply h
  · apply h

theorem lcResumTask (h : StatusesAgree s.toCore) (hwf : WellFormed s.toCore) (taskId : String) :
  StatusesAgree (LCFileNetService.lcResumTask (quiet md5) taskId s).toCore
  := by
  rw [LCFileNetService.lcResumTask]
  split
  · split
    · apply h
    · rw [toCore_lcStartTask]
      apply h.startTask hwf _
  · apply h

theorem lcGetTask (h : StatusesAgree c) (hwf : WellFormed c) (taskId : String) :
  StatusesAgree (LCFileNetService.lcGetTask taskId c)
  := by
  rw [LCFileNetService.lcGetTask]
  split
  · apply h
  · split
    · next row hrow =>
        simp only
        split
        · next hstatus => exact h.interrupt hwf hrow (Or.inl hstatus)
        · next hstatus => exact h.interrupt hwf hrow (Or.inr hstatus)
        · apply h.pSetTask_object hwf hrow
    · apply h

/-! ### Cancelling -/

/-- When a task id is forgotten, what happened to its row and its task objects does not matter. -/
theorem forget_of_changed (h : StatusesAgree c) (hwf : WellFormed c) {c' : Core} {taskId : String}
    (hcache : c'.cache = c.cache) (hrows : ∀ k, k ≠ taskId → c'.db.get k = c.db.get k)
    (hcells : ∀ r, (c.tasks.cell r).taskId ≠ some taskId →
      c'.tasks.cell r = c.tasks.cell r) :
  StatusesAgree (c'.forget taskId)
  := by
  intro k r hr
  rw [Core.forget, Dictionary.lookup_erase, hcache] at hr
  split at hr
  · cases hr
  · next hk =>
      have hid : (c.tasks.cell r).taskId ≠ some taskId := by
        rw [(hwf.cached k r hr).1]
        rintro ⟨⟩
        apply hk rfl
      have hrow : rowStatus k (c'.forget taskId) = rowStatus k c := by
        rw [rowStatus, Core.forget, LCFileTaskDB.get_lcDeleteTaskByTaskId, if_neg (Ne.symm hk),
          hrows k hk]
        rfl
      have hcell : (c'.forget taskId).tasks.cell r = c.tasks.cell r := hcells r hid
      rw [hrow, hcell]
      apply h k r hr

theorem cancelTail (h : StatusesAgree s.toCore) (hwf : WellFormed s.toCore) {taskId : String}
    {cacheTask : TaskRef} (hid : (s.tasks.cell cacheTask).taskId = some taskId) :
  StatusesAgree (LCFileNetService.cancelTail (quiet md5) taskId cacheTask s).toCore
  := by
  rw [toCore_cancelTail]
  apply h.forget_of_changed hwf
  · rfl
  · intro k _
    rfl
  · intro r hne
    rw [Core.cell_setStatus, if_neg]
    rintro rfl
    apply hne hid

/-- A cancellation whose operation has called the handler. -/
theorem cancelTail_stopTail (h : StatusesAgree s.toCore) (hwf : WellFormed s.toCore)
    {taskId : String} {o : OpRef} (hid : s.taskIdOf o = some taskId) :
  StatusesAgree (LCFileNetService.cancelTail (quiet md5) taskId (s.taskOf o)
    (LCFileNetOperation.stopTail (quiet md5) .canceled o s)).toCore
  := by
  rw [toCore_cancelTail, toCore_stopTail]
  apply h.forget_of_changed hwf
  · rfl
  · intro k hk
    have hrow := LCFileTaskDB.get_updateTask (s.taskIdOf o)
      (fun row => { row with status := .canceled }) s.db k
    rw [if_neg] at hrow
    · apply hrow
    · rw [hid]
      rintro ⟨⟩
      apply hk rfl
  · intro r hne
    have hr : r ≠ s.taskOf o := by
      rintro rfl
      apply hne hid
    rw [Core.cell_setStatus, if_neg hr]
    apply (Core.cell_setStatus (s.taskOf o) .canceled s.toCore r).trans (if_neg hr)

end StatusesAgree

/-- Calls and operations do not matter for what is cached. -/
theorem CachedTakes.sameTables {c c' : Core} (hsame : SameTables c c')
    {status : LCFileNetTaskStatus} {r : TaskRef} (h : CachedTakes status r c) :
  CachedTakes status r c'
  := by
  obtain ⟨ops, calls, rfl, -⟩ := hsame
  apply h

/-- What is cached takes every status recorded for it. -/
theorem CachedTakes.of_cached {c : Core} (hwf : WellFormed c) {k : String} {r : TaskRef}
    (h : c.cache.lookup k = some r) (status : LCFileNetTaskStatus) :
  CachedTakes status r c
  := by
  intro k' hk' r' hr'
  left
  obtain rfl := Option.some.inj ((hwf.cached k r h).1.symm.trans hk')
  apply Option.some.inj (hr'.symm.trans h)

/-- The task of a stored operation takes every status recorded for it. -/
theorem CachedTakes.of_stored {c : Core} (hwf : WellFormed c) {k : String} {o : OpRef}
    (h : c.taskOperationDic.lookup k = some o) (status : LCFileNetTaskStatus) :
  CachedTakes status (c.taskOf o) c
  := CachedTakes.of_cached hwf (hwf.stored k o h) status

namespace StatusesAgree

variable {s : State} {md5 : Bytes → String}

theorem lcCancelTask (h : StatusesAgree s.toCore) (hwf : WellFormed s.toCore) (taskId : String) :
  StatusesAgree (LCFileNetService.lcCancelTask (quiet md5) taskId s).toCore
  := by
  rw [LCFileNetService.lcCancelTask]
  split
  · apply h
  · next cacheTask hcached =>
      have hid := (hwf.cached taskId cacheTask hcached).1
      split
      · apply h
      · split
        · next operaton hstored =>
            rw [LCFileNetOperation.cancel, LCFileNetOperation.stop]
            split
            · apply h.congr rfl rfl rfl
            · split
              · have hstopped := @stopTail s md5 h hwf operaton .canceled
                  (CachedTakes.of_stored hwf hstored .canceled)
                apply hstopped.cancelTail (hwf.stopTail .canceled operaton)
                rw [toCore_stopTail]
                apply (Core.taskId_recordStatus _ _ _ _).trans hid
              · have hstopped : StatusesAgree
                    (s.mapCore (LCFileNetOperation.superCancel operaton)).toCore :=
                  h.superCancel operaton
                apply hstopped.cancelTail (hwf.superCancel operaton) hid
        · apply h.cancelTail hwf hid

end StatusesAgree

/-! ### Pausing -/

/-- A pause of the task id is recorded in its row: by the operation stored for it, or before. -/
def PauseRecorded (k : String) (c : Core) : Prop :=
  ∀ r ∈ c.cache.lookup k, (c.tasks.cell r).status = .finish ∨ rowStatus k c = some .pause ∨
    ∃ o ∈ c.taskOperationDic.lookup k, stoppable o c

/-- A pause of the task id calls the handler, and does not return at once. -/
def PauseWaits (k : String) (c : Core) : Prop :=
  ∃ r ∈ c.cache.lookup k, (c.tasks.cell r).status ≠ .finish ∧
    ∃ o ∈ c.taskOperationDic.lookup k, callsHander o c

instance (k : String) (c : Core) : Decidable (PauseRecorded k c) :=
  inferInstanceAs (Decidable (∀ r ∈ c.cache.lookup k, _))

instance (k : String) (c : Core) : Decidable (PauseWaits k c) :=
  inferInstanceAs (Decidable (∃ r ∈ c.cache.lookup k, _))

/-- The pauses of the task ids one after another are recorded, up to one that does not return at
once. -/
def PausesRecorded (md5 : Bytes → String) : List String → State → Prop
  | [], _ => True
  | taskId :: taskIds, s =>
      PauseRecorded taskId s.toCore ∧
        (¬ PauseWaits taskId s.toCore →
          PausesRecorded md5 taskIds (lcPauseTask (quiet md5) taskId s))

section

variable {s : State} {md5 : Bytes → String}

/-- The loop over task ids goes on after a pause that returns at once. -/
theorem pauseTasks_cons {E : Env} {taskId : String} {taskIds : List String}
    (h : ¬ PauseWaits taskId s.toCore) :
  pauseTasks E (taskId :: taskIds) s = pauseTasks E taskIds (lcPauseTask E taskId s)
  := by
  rw [lcPauseTask, pauseTasks, pauseTasks]
  split
  · rfl
  · next cacheTask hcached =>
      split
      · rfl
      · next hstatus =>
          split
          · next operaton hstored =>
              have hcalls : ¬ callsHander operaton s.toCore = true :=
                fun hcalls => h ⟨cacheTask, hcached, hstatus, operaton, hstored, hcalls⟩
              simp only [LCFileNetOperation.pause, LCFileNetOperation.stop, if_neg hcalls]
              split
              · rfl
              · rfl
          · rfl

/-- The loop over task ids stops at a pause that calls the handler. -/
theorem pauseTasks_waits {E : Env} {taskId : String} {taskIds : List String}
    (h : PauseWaits taskId s.toCore) :
  ∃ o t, pauseTasks E (taskId :: taskIds) s = s.mapCore (fun c => (c.call o .pause).await t)
  := by
  obtain ⟨cacheTask, hcached, hstatus, o, hstored, hcalls⟩ := h
  rw [Option.mem_def] at hcached hstored
  refine ⟨o, .lcPauseTask o cacheTask taskIds, ?_⟩
  simp only [pauseTasks, hcached, if_neg hstatus, hstored, LCFileNetOperation.pause,
    LCFileNetOperation.stop, if_pos hcalls]

namespace StatusesAgree

/-- The end of the pause of a task whose row says Pause already. -/
theorem pauseTail (h : StatusesAgree s.toCore) (hwf : WellFormed s.toCore) {k : String}
    {r : TaskRef} (hcached : s.cache.lookup k = some r)
    (hrow : rowStatus k s.toCore = some .pause) :
  StatusesAgree (LCFileNetService.pauseTail (quiet md5) r s).toCore
  := by
  rw [toCore_pauseTail]
  apply h.setTask
  intro k' hk'
  obtain rfl := Option.some.inj ((hwf.cached k r hcached).1.symm.trans (hwf.cached k' r hk').1)
  exact ⟨.pause, hrow, Or.inl rfl⟩

/-- The end of the pause of a task whose operation has recorded the pause. -/
theorem pauseTail_stopTail (h : StatusesAgree s.toCore) (hwf : WellFormed s.toCore) {o : OpRef}
    (htakes : CachedTakes .pause (s.taskOf o) s.toCore) :
  StatusesAgree (LCFileNetService.pauseTail (quiet md5) (s.taskOf o)
    (LCFileNetOperation.stopTail (quiet md5) .pause o s)).toCore
  := by
  have hstatus : ((LCFileNetOperation.stopTail (quiet md5) .pause o s).tasks.cell
      (s.taskOf o)).status = .pause := by
    have hcell := Core.cell_setStatus (s.taskOf o) .pause s.toCore (s.taskOf o)
    rw [if_pos rfl] at hcell
    rw [toCore_stopTail]
    apply congrArg (fun t => t.status) hcell
  rw [toCore_pauseTail, Core.setStatus_eq_self hstatus]
  apply h.stopTail hwf htakes

theorem lcPauseTask (h : StatusesAgree s.toCore) (hwf : WellFormed s.toCore) {taskId : String}
    (hrecorded : PauseRecorded taskId s.toCore) :
  StatusesAgree (LCFileNetService.lcPauseTask (quiet md5) taskId s).toCore
  := by
  rw [LCFileNetService.lcPauseTask, LCFileNetService.pauseTasks]
  split
  · apply h
  · next cacheTask hcached =>
      split
      · apply h
      · next hstatus =>
          have hrow := (hrecorded cacheTask hcached).resolve_left hstatus
          split
          · next operaton hstored =>
              have htask : s.taskOf operaton = cacheTask := hwf.taskOf_eq hstored hcached
              rw [LCFileNetOperation.pause, LCFileNetOperation.stop]
              split
              · apply h.congr rfl rfl rfl
              · split
                · subst htask
                  apply h.pauseTail_stopTail hwf (CachedTakes.of_stored hwf hstored .pause)
                · next hstoppable =>
                    have hstopped : StatusesAgree
                        (s.mapCore (LCFileNetOperation.superCancel operaton)).toCore :=
                      h.superCancel operaton
                    apply hstopped.pauseTail (hwf.superCancel operaton) hcached
                    rcases hrow with hrow | ⟨o, ho, hstop⟩
                    · apply hrow
                    · obtain rfl := Option.some.inj (hstored.symm.trans ho)
                      apply absurd hstop hstoppable
          · next hstored =>
              apply h.pauseTail hwf hcached
              rcases hrow with hrow | ⟨o, ho, -⟩
              · apply hrow
              · cases hstored.symm.trans ho

theorem pauseTasks (h : StatusesAgree s.toCore) (hwf : WellFormed s.toCore)
    {taskIds : List String} (hrecorded : PausesRecorded md5 taskIds s) :
  StatusesAgree (LCFileNetService.pauseTasks (quiet md5) taskIds s).toCore
  := by
  induction taskIds generalizing s with
  | nil => apply h
  | cons taskId taskIds ih =>
      by_cases hwaits : PauseWaits taskId s.toCore
      · obtain ⟨o, t, heq⟩ := @pauseTasks_waits s (quiet md5) taskId taskIds hwaits
        rw [heq]
        apply h.congr rfl rfl rfl
      · rw [pauseTasks_cons hwaits]
        apply ih
        · apply h.lcPauseTask hwf hrecorded.1
        · apply hwf.pauseTasks
        · apply hrecorded.2 hwaits

end StatusesAgree

end

/-! ### Steps -/

/-- What follows the return of a handler method keeps the statuses in agreement: what is cached
takes the status the operation records, and further pauses are recorded. -/
def Tail.KeepsStatuses (md5 : Bytes → String) (s : State) : Tail → Prop
  | .main o => CachedTakes .progress (s.taskOf o) s.toCore
  | .cancel o => CachedTakes .canceled (s.taskOf o) s.toCore
  | .pause o => CachedTakes .pause (s.taskOf o) s.toCore
  | .lcCancelTask _ _ _ => True
  | .lcPauseTask o cacheTask taskIds =>
      CachedTakes .pause (s.taskOf o) s.toCore ∧
        PausesRecorded md5 taskIds
          (pauseTail (quiet md5) cacheTask (stopTail (quiet md5) .pause o s))

/-- The event keeps the statuses in agreement: what is cached takes every status an operation
records, pauses are recorded, and the application sets no other status of a cached task. -/
def KeepsStatuses (md5 : Bytes → String) (s : State) : Event → Prop
  | .set r t =>
      ∀ k, s.cache.lookup k = some r →
        ∃ status, rowStatus k s.toCore = some status ∧ Matches t.status status
  | .pauseTask taskId => PauseRecorded taskId s.toCore
  | .pauseAllTask => PausesRecorded md5 s.taskOperationDic.keys s
  | .opStart o =>
      o < s.ops.next ∧ (s.ops.cell o).started = false ∧ (s.ops.cell o).cancelled = false ∧
          (s.handerOf o = none ∨ (s.tasks.cell (s.taskOf o)).type = .unknown) →
        CachedTakes .progress (s.taskOf o) s.toCore
  | .opCancel o =>
      o < s.ops.next ∧ callsHander o s.toCore = false ∧ stoppable o s.toCore →
        CachedTakes .canceled (s.taskOf o) s.toCore
  | .opPause o =>
      o < s.ops.next ∧ callsHander o s.toCore = false ∧ stoppable o s.toCore →
        CachedTakes .pause (s.taskOf o) s.toCore
  | .returns i => ∀ t ∈ s.pending[i]?, t.KeepsStatuses md5 (s.mapCore (·.dropTail i))
  | .finish r error =>
      r < s.calls.next ∧ (s.calls.cell r).method.Ends error →
        CachedTakes (outcome error) (s.taskOf (s.calls.cell r).op) s.toCore
  | _ => True

namespace StatusesAgree

variable {s : State} {md5 : Bytes → String}

theorem runTail (h : StatusesAgree s.toCore) (hwf : WellFormed s.toCore) {t : Tail}
    (howned : t.Owned s.toCore) (ht : t.KeepsStatuses md5 s) :
  StatusesAgree (LCFileNetService.runTail (quiet md5) t s).toCore
  := by
  cases t with
  | main o =>
      rw [LCFileNetService.runTail, toCore_pNotifyStart]
      apply h.recordStatus hwf ht
  | cancel o => apply h.stopTail hwf ht
  | pause o => apply h.stopTail hwf ht
  | lcCancelTask o taskId cacheTask =>
      obtain ⟨-, rfl, hid⟩ := howned
      apply h.cancelTail_stopTail hwf hid
  | lcPauseTask o cacheTask taskIds =>
      obtain ⟨-, rfl⟩ := howned
      apply (h.pauseTail_stopTail hwf ht.1).pauseTasks
      · apply (hwf.stopTail .pause o).pauseTail
      · apply ht.2

/-- Starting an operation whose status can be recorded, or that is cancelled or calls the
handler. -/
theorem start (h : StatusesAgree s.toCore) (hwf : WellFormed s.toCore) {o : OpRef}
    (ho : (s.ops.cell o).cancelled = false ∧
        (s.handerOf o = none ∨ (s.tasks.cell (s.taskOf o)).type = .unknown) →
      CachedTakes .progress (s.taskOf o) s.toCore) :
  StatusesAgree (LCFileNetOperation.start (quiet md5) o s).toCore
  := by
  rw [LCFileNetOperation.start]
  split
  · apply h.congr rfl rfl rfl
  · next hcancelled =>
      have hexecuting : SameTables s.toCore
          (s.toCore.setOp o (fun op => { op with executing := true })) :=
        SameTables.setOp rfl
      have hsame := hexecuting.trans (SameTables.mainTransfer o _)
      rw [toCore_main]
      split
      · apply (h.sameTables hsame).congr rfl rfl rfl
      · next hcalls =>
          have hwf' := (hwf.setOp (o := o) (f := fun op => { op with executing := true })
            (fun _ => rfl)).mainTransfer o
          apply (h.sameTables hsame).recordStatus hwf'
          apply CachedTakes.sameTables hsame
          rw [State.toCore_mapCore, hsame.taskOf]
          apply ho
          refine ⟨by simpa using hcancelled, ?_⟩
          by_contra hnot
          rw [not_or, ← Option.not_isSome_iff_eq_none, not_not] at hnot
          apply hcalls
          apply calls_mainTransfer
          · rw [State.toCore_mapCore, Core.handerOf_setOp rfl]
            apply hnot.1
          · rw [State.toCore_mapCore, hexecuting.taskOf]
            apply hnot.2

/-- Every event that keeps the statuses in agreement does so. -/
theorem step (h : StatusesAgree s.toCore) (hwf : WellFormed s.toCore) (howned : TailsOwned s.toCore)
    {e : Event} (he : KeepsStatuses md5 s e) :
  StatusesAgree (LCCFileService.step (quiet md5) s e).toCore
  := by
  cases e with
  | create t => apply h.allocTask hwf t
  | set r t =>
      rw [LCCFileService.step]
      split
      · exact h.setTask he
      · apply h
  | startTask task =>
      rw [LCCFileService.step]
      split
      · rw [toCore_lcStartTask]
        apply h.startTask hwf task
      · apply h
  | resumTask taskId => apply h.lcResumTask hwf taskId
  | pauseTask taskId => apply h.lcPauseTask hwf he
  | pauseAllTask => apply h.pauseTasks hwf he
  | cancelTask taskId => apply h.lcCancelTask hwf taskId
  | getTask taskId => apply h.lcGetTask hwf taskId
  | updatetask key filePath =>
      apply h.updateTask
      intro row
      rfl
  | opStart o =>
      rw [LCCFileService.step]
      split
      · next ho =>
          have hstarted : SameTables s.toCore
              (s.toCore.setOp o (fun op => { op with started := true })) :=
            SameTables.setOp rfl
          have hagree : StatusesAgree
              (s.mapCore (·.setOp o (fun op => { op with started := true }))).toCore :=
            h.sameTables hstarted
          apply hagree.start (hwf.setOp (fun _ => rfl))
          rintro ⟨hcancelled, hnone⟩
          apply CachedTakes.sameTables hstarted
          rw [State.toCore_mapCore, hstarted.taskOf]
          apply he
          refine ⟨ho.1, ho.2, ?_, ?_⟩
          · rw [State.toCore_mapCore, Core.setOp, Heap.cell_modify_self] at hcancelled
            apply hcancelled
          · rw [State.toCore_mapCore, Core.handerOf_setOp rfl, hstarted.taskOf] at hnone
            apply hnone
      · apply h
  | opCancel o =>
      rw [LCCFileService.step]
      split
      · next ho =>
          apply h.stop hwf
          intro hcalls hstoppable
          apply he ⟨ho, hcalls, hstoppable⟩
      · apply h
  | opPause o =>
      rw [LCCFileService.step]
      split
      · next ho =>
          apply h.stop hwf
          intro hcalls hstoppable
          apply he ⟨ho, hcalls, hstoppable⟩
      · apply h
  | returns i =>
      rw [LCCFileService.step]
      split
      · next t ht =>
          have hdrop : StatusesAgree (s.mapCore (·.dropTail i)).toCore := h.congr rfl rfl rfl
          apply hdrop.runTail
          · exact hwf.congr rfl rfl rfl rfl rfl
          · apply howned t (List.mem_of_getElem? ht)
          · apply he t ht
      · apply h
  | progress r =>
      rw [LCCFileService.step]
      split
      · apply h.progressBlock
      · apply h
  | finish r error =>
      rw [LCCFileService.step]
      split
      · next hr =>
          have hanswered : StatusesAgree (s.mapCore (·.answer r)).toCore := h.congr rfl rfl rfl
          apply hanswered.finishBlock
          · exact hwf.congr rfl rfl rfl rfl rfl
          · intro hends
            apply he ⟨hr, hends⟩
      · apply h
  | addHander hander => apply h.congr rfl rfl rfl
  | deallocHander hander => apply h.congr rfl rfl rfl
  | addObserver o => apply h
  | find finder => apply h
  | edit path content => apply h.congr rfl rfl rfl
  | restart => apply initial

end StatusesAgree

/-! ### Runs -/

/-- In a run of the system whose events keep the statuses in agreement, the status of every
cached task agrees with that of its row in every state. -/
theorem throughout_statusesAgree (md5 : Bytes → String) (db : TaskTable)
    (disk : Disk String Bytes) (es : List Event)
    (hes : Run.Along (step (quiet md5)) (KeepsStatuses md5) (State.initial db disk) es) :
  Run.Throughout (step (quiet md5)) (fun s => StatusesAgree s.toCore) (State.initial db disk) es
  := by
  have hall : Run.Throughout (step (quiet md5))
      (fun s => StatusesAgree s.toCore ∧ WellFormed s.toCore ∧ TailsOwned s.toCore)
      (State.initial db disk) es := by
    apply Run.throughout_of_step _ _ hes
    · rintro s e ⟨hagree, hwf, howned⟩ he
      exact ⟨hagree.step hwf howned he, hwf.step e, howned.step hwf e⟩
    · refine ⟨StatusesAgree.initial db disk, WellFormed.initial db disk, ?_⟩
      rintro t ⟨⟩
  apply hall.imp
  rintro s ⟨hagree, -⟩
  apply hagree

/-- A download that is paused in its transfer, and found again after a restart. -/
def pausedAndFound : List Event :=
  [.create { taskId := "k", type := .download }, .addHander 0, .startTask 0, .opStart 0,
    .returns 0, .pauseTask "k", .returns 0, .restart, .getTask "k"]

/-- The statuses agree while the download is transferred, paused and found again. -/
theorem statusesAgree_pausedAndFound :
  Run.Throughout (step (quiet (fun _ => ""))) (fun s => StatusesAgree s.toCore)
    (State.initial ∅ (fun _ => none)) pausedAndFound
  := by
  apply throughout_statusesAgree (fun _ => "")
  refine ⟨trivial, trivial, trivial, ?_, ?_, ?_, ?_, trivial, trivial, trivial⟩
  · intro _
    decide +kernel
  · intro t ht
    have hmain : t = .main 0 := Option.some.inj (ht.symm.trans (by decide +kernel))
    subst hmain
    show CachedTakes _ _ _
    decide +kernel
  · show PauseRecorded _ _
    decide +kernel
  · intro t ht
    have htail : t = .lcPauseTask 0 0 [] := Option.some.inj (ht.symm.trans (by decide +kernel))
    subst htail
    refine ⟨?_, trivial⟩
    decide +kernel

/-- A new download is found again after a restart and paused: no operation records the pause. -/
theorem not_throughout_statusesAgree_unrecorded :
  ¬ Run.Throughout (step (quiet (fun _ => ""))) (fun s => StatusesAgree s.toCore)
      (State.initial ∅ (fun _ => none))
      [.create { taskId := "k", type := .download }, .startTask 0, .restart, .getTask "k",
        .pauseTask "k"]
  := by
  intro h
  obtain ⟨status, hrow, hmatches⟩ := h.final "k" 0 (by decide +kernel)
  have hcreate : status = .create := Option.some.inj (hrow.symm.trans (by decide +kernel))
  subst hcreate
  revert hmatches
  decide +kernel

end LCCFileService
