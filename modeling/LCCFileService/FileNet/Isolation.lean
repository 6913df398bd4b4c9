import LCCFileService.FileNet.Outcome
import LCCFileService.FileNet.Successes

/-!
# Task ids do not interfere

What the service holds of a task id is its row, its entries in the cache and in
`taskOperationDic`, its callbacks, the tasks with the task id with their operations and the calls
of the handler for them, and what was told about these tasks.  An event that is not about the task
id leaves all of it as it was, and so does every run of such events.
-/

namespace LCCFileService

open LCFileNetService LCFileNetOperation

/-! ### What is held of a task id -/

/-- The reference is one of a task with the task id. -/
def Core.TaskWith (k : String) (c : Core) (r : TaskRef) : Prop :=
  r < c.tasks.next ∧ (c.tasks.cell r).taskId = some k

instance (k : String) (c : Core) (r : TaskRef) : Decidable (c.TaskWith k r) :=
  inferInstanceAs (Decidable (_ ∧ _))

/-- The reference is one of an operation of a task with the task id. -/
def Core.OpWith (k : String) (c : Core) (o : OpRef) : Prop :=
  o < c.ops.next ∧ c.taskIdOf o = some k

instance (k : String) (c : Core) (o : OpRef) : Decidable (c.OpWith k o) :=
  inferInstanceAs (Decidable (_ ∧ _))

/-- What the core holds of a task id. -/
structure CoreView where
  row : Option LCFileNetTaskRow
  cached : Option TaskRef
  stored : Option OpRef
  tasks : TaskRef → Option LCFileNetTask
  ops : OpRef → Option LCFileNetOperation
  calls : CallRef → Option HanderCall

/-- The row and the entries of the task id, its tasks, their operations, and the calls of the
handler by these. -/
def Core.view (k : String) (c : Core) : CoreView where
  row := c.db.get k
  cached := c.cache.lookup k
  stored := c.taskOperationDic.lookup k
  tasks r := if c.TaskWith k r then some (c.tasks.cell r) else none
  ops o := if c.OpWith k o then some (c.ops.cell o) else none
  calls r :=
    if r < c.calls.next ∧ c.OpWith k (c.calls.cell r).op then some (c.calls.cell r) else none

/-- What the service holds of a task id. -/
structure View extends CoreView where
  callbacks : NoteKind → Option CallbackArray
  told : List Note

/-- What the core holds of the task id, its callbacks, and the notes about its tasks. -/
def State.view (k : String) (s : State) : View where
  toCoreView := s.toCore.view k
  callbacks kind := (s.callbackCache kind).lookup k
  told := s.notes.filter (fun n => s.TaskWith k n.task)

namespace Core

variable {k : String} {c c' : Core}

/-- The tasks held of a task id are those with the task id. -/
theorem taskWith_iff (h : c'.view k = c.view k) (r : TaskRef) :
  c'.TaskWith k r ↔ c.TaskWith k r
  := by
  have hsome := congrArg (fun v => (v.tasks r).isSome) h
  simp only [view] at hsome
  split at hsome
  · next hwith' =>
      split at hsome
      · next hwith => exact iff_of_true hwith' hwith
      · cases hsome
  · next hwith' =>
      split at hsome
      · cases hsome
      · next hwith => exact iff_of_false hwith' hwith

/-! ### Primitive changes -/

/-- Neither tasks, operations nor calls change, and the tables do at other task ids. -/
theorem view_of_eq (htasks : c'.tasks = c.tasks) (hops : c'.ops = c.ops)
    (hcalls : c'.calls = c.calls) (hrow : c'.db.get k = c.db.get k)
    (hcached : c'.cache.lookup k = c.cache.lookup k)
    (hstored : c'.taskOperationDic.lookup k = c.taskOperationDic.lookup k) :
  c'.view k = c.view k
  := by
  cases c
  cases c'
  simp only at htasks hops hcalls
  subst htasks hops hcalls
  rw [view, view, CoreView.mk.injEq]
  exact ⟨hrow, hcached, hstored, rfl, rfl, rfl⟩

/-- The properties of a task with another task id are set. -/
theorem view_setTask {r : TaskRef} (f : LCFileNetTask → LCFileNetTask)
    (hid : (c.tasks.cell r).taskId ≠ some k) :
  (c.setTask r f).view k = c.view k
  := by
  have htask : ∀ r', (c.setTask r f).TaskWith k r' ↔ c.TaskWith k r' := by
    intro r'
    rw [TaskWith, TaskWith, taskId_setTask]
    rfl
  have hop : ∀ o, (c.setTask r f).OpWith k o ↔ c.OpWith k o := by
    intro o
    rw [OpWith, OpWith, taskIdOf, taskId_setTask]
    rfl
  rw [view, view, CoreView.mk.injEq]
  refine ⟨rfl, rfl, rfl, ?_, ?_, ?_⟩
  · funext r'
    simp only [htask]
    apply ite_congr rfl _ (fun _ => rfl)
    rintro ⟨-, hr'⟩
    rw [setTask, Heap.cell_modify, if_neg]
    rintro rfl
    apply hid hr'
  · simp only [hop]
    rfl
  · simp only [hop]
    rfl

theorem view_setStatus {r : TaskRef} (status : LCFileNetTaskStatus)
    (hid : (c.tasks.cell r).taskId ≠ some k) :
  (c.setStatus r status).view k = c.view k
  := view_setTask (fun t => { t with status }) hid

/-- A task with another task id is made. -/
theorem view_allocTask (h : WellFormed c) {t : LCFileNetTask} (hid : t.taskId ≠ some k) :
  (c.allocTask t).view k = c.view k
  := by
  have htask : ∀ r, (c.allocTask t).TaskWith k r ↔ c.TaskWith k r := by
    intro r
    by_cases hr : r < c.tasks.next
    · have hcell := Heap.cell_alloc_of_lt t hr
      have hlt : r < (c.allocTask t).tasks.next := Nat.lt_succ_of_lt hr
      rw [TaskWith, TaskWith, allocTask, hcell]
      apply and_congr_left' (iff_of_true hlt hr)
    · apply iff_of_false _ (fun hwith => hr hwith.1)
      rintro ⟨hlt, hwith⟩
      obtain rfl : r = c.tasks.next :=
        Nat.le_antisymm (Nat.lt_succ_iff.mp hlt) (Nat.le_of_not_lt hr)
      rw [allocTask, Heap.cell_alloc_next] at hwith
      apply hid hwith
  have hop : ∀ o, (c.allocTask t).OpWith k o ↔ c.OpWith k o := by
    intro o
    apply and_congr_right
    intro ho
    have hcell := Heap.cell_alloc_of_lt t (h.owned o ho)
    have htaskIdOf : (c.allocTask t).taskIdOf o = c.taskIdOf o := congrArg (·.taskId) hcell
    rw [htaskIdOf]
  rw [view, view, CoreView.mk.injEq]
  refine ⟨rfl, rfl, rfl, ?_, ?_, ?_⟩
  · funext r
    simp only [htask]
    apply ite_congr rfl _ (fun _ => rfl)
    rintro ⟨hr, -⟩
    rw [allocTask, Heap.cell_alloc_of_lt t hr]
  · simp only [hop]
    rfl
  · simp only [hop]
    rfl

/-- Flags of an operation for another task id are set. -/
theorem view_setOp {o : OpRef} {f : LCFileNetOperation → LCFileNetOperation}
    (htask : ∀ op, (f op).task = op.task) (hid : c.taskIdOf o ≠ some k) :
  (c.setOp o f).view k = c.view k
  := by
  have hop : ∀ o', (c.setOp o f).OpWith k o' ↔ c.OpWith k o' := by
    intro o'
    rw [OpWith, OpWith, taskIdOf, taskOf_setOp (htask _)]
    rfl
  rw [view, view, CoreView.mk.injEq]
  refine ⟨rfl, rfl, rfl, rfl, ?_, ?_⟩
  · funext o'
    simp only [hop]
    apply ite_congr rfl _ (fun _ => rfl)
    rintro ⟨-, ho'⟩
    rw [setOp, Heap.cell_modify, if_neg]
    rintro rfl
    apply hid ho'
  · simp only [hop]
    rfl

/-- An operation for a task with another task id is added, under another task id. -/
theorem view_addOperation {task : TaskRef} {taskId : String}
    (hid : (c.tasks.cell task).taskId ≠ some k) (hne : taskId ≠ k) :
  (addOperation task taskId c).view k = c.view k
  := by
  have hop : ∀ o, (addOperation task taskId c).OpWith k o ↔ c.OpWith k o := by
    intro o
    by_cases ho : o < c.ops.next
    · have hlt : o < (addOperation task taskId c).ops.next := Nat.lt_succ_of_lt ho
      rw [OpWith, OpWith, taskIdOf, taskOf, addOperation, Heap.cell_alloc_of_lt _ ho]
      apply and_congr_left' (iff_of_true hlt ho)
    · apply iff_of_false _ (fun hwith => ho hwith.1)
      rintro ⟨hlt, hwith⟩
      obtain rfl : o = c.ops.next :=
        Nat.le_antisymm (Nat.lt_succ_iff.mp hlt) (Nat.le_of_not_lt ho)
      rw [taskIdOf, taskOf, addOperation, Heap.cell_alloc_next] at hwith
      apply hid hwith
  rw [view, view, CoreView.mk.injEq]
  refine ⟨rfl, rfl, ?_, rfl, ?_, ?_⟩
  · rw [addOperation, Dictionary.lookup_insert, if_neg hne.symm]
  · funext o
    simp only [hop]
    apply ite_congr rfl _ (fun _ => rfl)
    rintro ⟨ho, -⟩
    rw [addOperation, Heap.cell_alloc_of_lt _ ho]
  · simp only [hop]
    rfl

/-- An operation for another task id calls the handler. -/
theorem view_call {o : OpRef} (method : HanderMethod) (hid : c.taskIdOf o ≠ some k) :
  (c.call o method).view k = c.view k
  := by
  rw [view, view, CoreView.mk.injEq]
  refine ⟨rfl, rfl, rfl, rfl, rfl, ?_⟩
  funext r
  by_cases hr : r < c.calls.next
  · have hcell : (c.call o method).calls.cell r = c.calls.cell r := Heap.cell_alloc_of_lt _ hr
    have hlt : r < (c.call o method).calls.next := Nat.lt_succ_of_lt hr
    simp only [hcell, hr, hlt]
    rfl
  · apply (if_neg _).trans (if_neg (fun h => hr h.1)).symm
    rintro ⟨hlt, -, hwith⟩
    obtain rfl : r = c.calls.next :=
      Nat.le_antisymm (Nat.lt_succ_iff.mp hlt) (Nat.le_of_not_lt hr)
    rw [call, Heap.cell_alloc_next] at hwith
    apply hid hwith

/-- A call for another task id is answered. -/
theorem view_answer {r : CallRef} (hid : c.taskIdOf (c.calls.cell r).op ≠ some k) :
  (c.answer r).view k = c.view k
  := by
  have hop : ∀ r', ((c.answer r).calls.cell r').op = (c.calls.cell r').op := by
    intro r'
    apply Heap.map_cell_modify HanderCall.op (f := fun call => { call with answered := true }) rfl
  rw [view, view, CoreView.mk.injEq]
  refine ⟨rfl, rfl, rfl, rfl, rfl, ?_⟩
  funext r'
  simp only [hop]
  apply ite_congr rfl _ (fun _ => rfl)
  rintro ⟨-, -, hr'⟩
  rw [answer, Heap.cell_modify, if_neg]
  rintro rfl
  apply hid hr'

/-- Rows are written of other task ids. -/
theorem view_setDb {f : TaskTable → TaskTable} (hrow : (f c.db).get k = c.db.get k) :
  (c.setDb f).view k = c.view k
  := view_of_eq rfl rfl rfl hrow rfl rfl

/-! ### Operations -/

theorem view_recordStatus {r : TaskRef} (status : LCFileNetTaskStatus)
    (hid : (c.tasks.cell r).taskId ≠ some k) :
  (c.recordStatus r status).view k = c.view k
  := by
  apply (view_setDb _).trans (view_setStatus status hid)
  apply (LCFileTaskDB.get_updateTask _ _ _ k).trans (if_neg hid)

theorem view_recordSizes {r : TaskRef} (hid : (c.tasks.cell r).taskId ≠ some k) :
  (c.recordSizes r).view k = c.view k
  := by
  apply view_setDb
  apply (LCFileTaskDB.get_updateTask _ _ _ k).trans (if_neg hid)

theorem view_saveTask {t : LCFileNetTask} (hid : t.taskId ≠ some k) :
  (c.setDb (LCFileTaskDB.lcSaveTask t)).view k = c.view k
  := by
  apply view_setDb
  rw [LCFileTaskDB.get_lcSaveTask, if_neg hid]

/-- Recording a finish keeps all task ids. -/
theorem taskId_recordFinish (r : TaskRef) (error : Option NSError) (c : Core) (r' : TaskRef) :
  ((c.recordFinish r error).tasks.cell r').taskId = (c.tasks.cell r').taskId
  := by
  rw [recordFinish]
  split
  · exact taskId_setTask r (fun t => { t with status := .failed }) c r'
  · rfl

/-- Recording a finish keeps the task ids of all operations. -/
theorem taskIdOf_recordFinish (r : TaskRef) (error : Option NSError) (c : Core) (o : OpRef) :
  (c.recordFinish r error).taskIdOf o = c.taskIdOf o
  := by
  have htaskOf : (c.recordFinish r error).taskOf o = c.taskOf o := by
    rw [recordFinish]
    split
    · rfl
    · rfl
  rw [taskIdOf, htaskOf, taskId_recordFinish]
  rfl

theorem view_recordFinish {r : TaskRef} (error : Option NSError)
    (hid : (c.tasks.cell r).taskId ≠ some k) :
  (c.recordFinish r error).view k = c.view k
  := by
  rw [recordFinish]
  split
  · rw [view_saveTask, view_setStatus .failed hid]
    apply ne_of_eq_of_ne _ hid
    apply taskId_setTask
  · apply view_saveTask hid

theorem view_pFinishOperatioin {o : OpRef} (hid : c.taskIdOf o ≠ some k) :
  (pFinishOperatioin o c).view k = c.view k
  := view_setOp (fun _ => rfl) hid

theorem view_superCancel {o : OpRef} (hid : c.taskIdOf o ≠ some k) :
  (superCancel o c).view k = c.view k
  := by
  have hcancelled : (c.setOp o (fun op => { op with
      cancelled := op.cancelled || !op.finished })).view k = c.view k := by
    apply view_setOp _ hid
    intro op
    rfl
  have hrecord : ∀ c' : Core, (c'.recordStop o).view k = c'.view k := fun _ => rfl
  rw [superCancel, hrecord, view_pFinishOperatioin, hcancelled]
  rw [taskIdOf, taskOf_setOp rfl]
  apply hid

theorem view_pStartUpload {o : OpRef} (hid : c.taskIdOf o ≠ some k) :
  (pStartUpload o c).view k = c.view k
  := by
  rw [pStartUpload]
  split
  · apply view_call _ hid
  · apply view_pFinishOperatioin hid

theorem view_pStartDownload {o : OpRef} (hid : c.taskIdOf o ≠ some k) :
  (pStartDownload o c).view k = c.view k
  := by
  rw [pStartDownload]
  split
  · apply view_call _ hid
  · apply view_pFinishOperatioin hid

theorem view_mainTransfer {o : OpRef} (hid : c.taskIdOf o ≠ some k) :
  (mainTransfer o c).view k = c.view k
  := by
  rw [mainTransfer]
  split
  · split
    · rw [pResumUpload]
      split
      · apply view_call _ hid
      · rfl
    · apply view_pStartUpload hid
  · split
    · rw [pResumDownLoad]
      split
      · apply view_call _ hid
      · rfl
    · apply view_pStartDownload hid
  · rfl

/-! ### Starting tasks -/

theorem view_pSetMd5 {md5 : Bytes → String} {task : TaskRef}
    (hid : (c.tasks.cell task).taskId ≠ some k) :
  (pSetMd5 md5 task c).view k = c.view k
  := by
  rw [pSetMd5]
  split
  · split
    · apply view_setTask _ hid
    · rfl
  · rfl

theorem view_pSetTask {task : TaskRef} {taskId : String} (hne : taskId ≠ k) :
  (pSetTask task taskId c).view k = c.view k
  := by
  apply view_of_eq
  · rfl
  · rfl
  · rfl
  · rfl
  · rw [pSetTask, Dictionary.lookup_insert, if_neg hne.symm]
  · rfl

theorem view_pAddTask {task : TaskRef} (hid : (c.tasks.cell task).taskId ≠ some k) :
  (pAddTask task c).view k = c.view k
  := by
  obtain heq | ⟨taskId, -, htask, heq⟩ := pAddTask_cases task c
  · rw [heq]
  · rw [heq]
    apply view_addOperation hid
    rintro rfl
    apply hid htask

/-- A task with another task id is read from its row, and cached. -/
theorem view_load (h : WellFormed c) {row : LCFileNetTaskRow} (hne : row.taskId ≠ k) :
  (pSetTask c.tasks.next row.taskId (c.allocTask row.object)).view k = c.view k
  := by
  rw [view_pSetTask hne]
  apply view_allocTask h
  rintro heq
  apply hne (Option.some.inj heq)

/-- The task that was read from the row has another task id. -/
theorem taskId_load {row : LCFileNetTaskRow} (hne : row.taskId ≠ k) :
  ((pSetTask c.tasks.next row.taskId (c.allocTask row.object)).tasks.cell c.tasks.next).taskId
    ≠ some k
  := by
  rw [pSetTask, allocTask, Heap.cell_alloc_next]
  rintro heq
  apply hne (Option.some.inj heq)

theorem view_startNew {task : TaskRef} {taskId : String}
    (hid : (c.tasks.cell task).taskId ≠ some k) (hne : taskId ≠ k) :
  (startNew task taskId c).view k = c.view k
  := by
  rw [startNew, view_pAddTask, view_saveTask hid, view_pSetTask hne]
  apply hid

theorem view_lcGetTask (h : WellFormed c) {taskId : String} (hne : taskId ≠ k) :
  (lcGetTask taskId c).view k = c.view k
  := by
  rw [lcGetTask]
  split
  · rfl
  · split
    · next row hrow =>
        have hne' : row.taskId ≠ k := by
          rw [LCFileTaskDB.taskId_of_get hrow]
          apply hne
        have hload := view_load h hne'
        have hinterrupt := view_setStatus .interrupt (taskId_load (c := c) hne')
        simp only
        split
        · apply hinterrupt.trans hload
        · apply hinterrupt.trans hload
        · apply hload
    · rfl

end Core

namespace State

variable {k : String} {s s' : State} {md5 : Bytes → String}

/-! ### Notifications -/

/-- What is held stays if the core holds the same, the callbacks stay, and what is told is not
about the task id. -/
theorem view_of_notes {ns : List Note} (hcore : s'.toCore.view k = s.toCore.view k)
    (hcallbacks : ∀ kind, (s'.callbackCache kind).lookup k = (s.callbackCache kind).lookup k)
    (hnotes : s'.notes = s.notes ++ ns)
    (hns : ∀ n ∈ ns, (s.tasks.cell n.task).taskId ≠ some k) :
  s'.view k = s.view k
  := by
  have htold : s'.notes.filter (fun n => s'.TaskWith k n.task)
      = s.notes.filter (fun n => s.TaskWith k n.task) := by
    have hnone : ns.filter (fun n => s.TaskWith k n.task) = [] := by
      rw [List.filter_eq_nil_iff]
      intro n hn hwith
      apply hns n hn (of_decide_eq_true hwith).2
    simp only [Core.taskWith_iff hcore]
    rw [hnotes, List.filter_append, hnone, List.append_nil]
  rw [view, view, View.mk.injEq]
  exact ⟨hcore, funext hcallbacks, htold⟩

theorem view_mapCore {f : Core → Core} (h : (f s.toCore).view k = s.toCore.view k) :
  (s.mapCore f).view k = s.view k
  := by
  apply @view_of_notes k s _ [] h
  · intro kind
    rfl
  · rw [List.append_nil]
    rfl
  · rintro n ⟨⟩

/-- The callbacks of a task with another task id are saved. -/
theorem view_pSaveCallback (task : TaskRef) {taskId : String} (hne : taskId ≠ k) :
  (pSaveCallback task taskId s).view k = s.view k
  := by
  have hsave : ∀ kind cb (s : State), (saveCallback kind cb taskId s).view k = s.view k := by
    intro kind cb s
    apply @view_of_notes k s _ []
    · rfl
    · intro kind'
      simp only [saveCallback]
      by_cases hkind : kind' = kind
      · rw [hkind, Function.update_self, Dictionary.lookup_insert, if_neg hne.symm]
      · rw [Function.update_of_ne hkind]
    · rw [List.append_nil]
      rfl
    · rintro n ⟨⟩
  rw [pSaveCallback, hsave, hsave, hsave]

theorem view_enterFinish (task : TaskRef) (taskId : String) :
  (enterFinish task taskId s).view k = s.view k
  := by
  rw [enterFinish]
  split
  · rfl
  · rfl

theorem view_pNotifyStatusChange {task : TaskRef} (hid : (s.tasks.cell task).taskId ≠ some k) :
  (pNotifyStatusChange (quiet md5) task s).view k = s.view k
  := by
  rw [pNotifyStatusChange_quiet]
  apply view_of_notes
  · rfl
  · intro kind
    rfl
  · rfl
  · intro n hn
    rw [(Reports.mem_notesOf hn).2.1]
    apply hid

theorem view_pNotifyProgress {task : TaskRef} (hid : (s.tasks.cell task).taskId ≠ some k) :
  (pNotifyProgress (quiet md5) task s).view k = s.view k
  := by
  by_cases hsilent : Silent (s.tasks.cell task)
  · rw [pNotifyProgress_silent hsilent]
  · rw [pNotifyProgress_told hsilent]
    apply view_of_notes
    · rfl
    · intro kind
      rfl
    · rfl
    · intro n hn
      rw [(Reports.mem_notesOf hn).2.1]
      apply hid

theorem view_pNotifyFinish {task : TaskRef} (error : Option NSError)
    (hid : (s.tasks.cell task).taskId ≠ some k) :
  (LCFileNetService.pNotifyFinish (quiet md5) task error s).view k = s.view k
  := by
  cases htask : (s.tasks.cell task).taskId with
  | none =>
      rw [LCFileNetService.pNotifyFinish, tellObservers_quiet, pExecuteFinishTaskCallback]
      simp only [htask]
      apply view_of_notes
      · rfl
      · intro kind
        rfl
      · rfl
      · intro n hn
        have hn' : n ∈ notesOf .finish task error s := List.mem_append_left _ hn
        rw [(Reports.mem_notesOf hn').2.1]
        apply hid
  | some taskId =>
      obtain ⟨hnotes, hcallbacks⟩ :=
        @LCFileNetService.pNotifyFinish_quiet md5 task taskId error s htask
      apply view_of_notes _ _ hnotes
      · intro n hn
        rw [(Reports.mem_notesOf hn).2.1]
        apply hid
      · rw [LCFileNetService.toCore_pNotifyFinish]
      · intro kind
        rw [hcallbacks, Dictionary.lookup_erase, if_neg]
        rintro rfl
        apply hid htask

/-! ### Operations -/

theorem view_pNotifyStart {o : OpRef} (hid : s.taskIdOf o ≠ some k) :
  (pNotifyStart (quiet md5) o s).view k = s.view k
  := by
  have heq : pNotifyStart (quiet md5) o s = pNotifyStatusChange (quiet md5) (s.taskOf o)
      (s.mapCore (·.recordStatus (s.taskOf o) .progress)) := rfl
  rw [heq, view_pNotifyStatusChange]
  · apply view_mapCore (Core.view_recordStatus .progress hid)
  · apply ne_of_eq_of_ne _ hid
    apply Core.taskId_recordStatus

theorem view_pNotifyStatusUpadte {o : OpRef} (status : LCFileNetTaskStatus)
    (hid : s.taskIdOf o ≠ some k) :
  (pNotifyStatusUpadte (quiet md5) o status s).view k = s.view k
  := by
  have hnotifier := @pNotifyStatusUpadte_quiet md5 o status s
  apply @view_of_notes k s _ (notesOf .status (s.taskOf o) none s)
  · rw [toCore_pNotifyStatusUpadte, Core.view_recordStatus status hid]
  · intro kind
    rw [hnotifier]
  · rw [hnotifier]
  · intro n hn
    rw [(Reports.mem_notesOf hn).2.1]
    apply hid

/-- Recording a status keeps the task id of every operation. -/
theorem taskIdOf_pNotifyStatusUpadte (o : OpRef) (status : LCFileNetTaskStatus) (o' : OpRef) :
  (pNotifyStatusUpadte (quiet md5) o status s).taskIdOf o' = s.taskIdOf o'
  := by
  rw [toCore_pNotifyStatusUpadte]
  apply Core.taskId_recordStatus

theorem view_progressBlock {o : OpRef} (hid : s.taskIdOf o ≠ some k) :
  (progressBlock (quiet md5) o s).view k = s.view k
  := by
  have heq : pNotifyProgressUpdate (quiet md5) o s = pNotifyProgress (quiet md5) (s.taskOf o)
      (s.mapCore (·.recordSizes (s.taskOf o))) := rfl
  have hnotify : (pNotifyProgressUpdate (quiet md5) o s).view k = s.view k := by
    rw [heq, view_pNotifyProgress]
    · apply view_mapCore (Core.view_recordSizes hid)
    · apply hid
  rw [progressBlock, view_mapCore, hnotify]
  split
  · apply Core.view_pFinishOperatioin
    rw [toCore_pNotifyProgressUpdate]
    apply hid
  · rfl

theorem view_ended {o : OpRef} (error : Option NSError) (hid : s.taskIdOf o ≠ some k) :
  (ended (quiet md5) o error s).view k = s.view k
  := by
  have henter : (enterEnd o s).view k = s.view k := by
    rw [enterEnd]
    split
    · split
      · rfl
      · rfl
    · rfl
  have hid₀ : (enterEnd o s).taskIdOf o ≠ some k := by
    rw [toCore_enterEnd]
    apply hid
  have hstatus := @view_pNotifyStatusUpadte k _ md5 o (outcome error) hid₀
  have hid₁ := ne_of_eq_of_ne (@taskIdOf_pNotifyStatusUpadte _ md5 o (outcome error) o) hid₀
  have heq : ended (quiet md5) o error s
      = (LCFileNetOperation.pNotifyFinish (quiet md5) o error
          (pNotifyStatusUpadte (quiet md5) o (outcome error) (enterEnd o s))).mapCore
        (pFinishOperatioin o) := rfl
  generalize pNotifyStatusUpadte (quiet md5) o (outcome error) (enterEnd o s) = s₁
    at hstatus hid₁ heq
  have hfinish : LCFileNetOperation.pNotifyFinish (quiet md5) o error s₁
      = LCFileNetService.pNotifyFinish (quiet md5) (s₁.taskOf o) error
          (s₁.mapCore (·.recordFinish (s₁.taskOf o) error)) := rfl
  have hid₂ := ne_of_eq_of_ne
    (Core.taskId_recordFinish (s₁.taskOf o) error s₁.toCore (s₁.taskOf o)) hid₁
  rw [heq, view_mapCore, hfinish, view_pNotifyFinish error hid₂,
    view_mapCore (Core.view_recordFinish error hid₁), hstatus, henter]
  apply Core.view_pFinishOperatioin
  rw [LCFileNetOperation.toCore_pNotifyFinish]
  rw [Core.taskIdOf_recordFinish]
  apply hid₁

theorem view_finishBlock {method : HanderMethod} {o : OpRef} (error : Option NSError)
    (hid : s.taskIdOf o ≠ some k) :
  (finishBlock (quiet md5) method o error s).view k = s.view k
  := by
  by_cases hends : method.Ends error
  · rw [finishBlock_ends hends]
    apply view_ended error hid
  · obtain heq | heq | heq := finishBlock_of_not_ends hends (quiet md5) o s
    · rw [heq]
    · rw [heq]
      apply view_mapCore (Core.view_pStartUpload hid)
    · rw [heq]
      apply view_mapCore (Core.view_pStartDownload hid)

theorem view_start {o : OpRef} (hid : s.taskIdOf o ≠ some k) :
  (start (quiet md5) o s).view k = s.view k
  := by
  rw [start]
  split
  · apply view_mapCore
    apply Core.view_setOp _ hid
    intro op
    rfl
  · have hexecuting : (s.mapCore (·.setOp o (fun op => { op with executing := true }))).view k
        = s.view k := by
      apply view_mapCore
      apply Core.view_setOp _ hid
      intro op
      rfl
    have hid' : (s.mapCore (·.setOp o (fun op => { op with executing := true }))).taskIdOf o
        ≠ some k := by
      rw [State.toCore_mapCore, Core.taskIdOf, Core.taskOf_setOp rfl]
      apply hid
    rw [← hexecuting]
    generalize s.mapCore (·.setOp o (fun op => { op with executing := true })) = s₁ at hid'
    have htransfer := Core.view_mainTransfer hid'
    rw [main]
    split
    · apply view_mapCore htransfer
    · rw [view_pNotifyStart]
      · apply view_mapCore htransfer
      · obtain ⟨ops, calls, heq, hops⟩ := SameTables.mainTransfer o s₁.toCore
        rw [State.toCore_mapCore, heq, Core.taskIdOf, Core.taskOf, hops]
        apply hid'

theorem view_stopTail (status : LCFileNetTaskStatus) {o : OpRef} (hid : s.taskIdOf o ≠ some k) :
  (stopTail (quiet md5) status o s).view k = s.view k
  := by
  rw [stopTail, view_mapCore, view_pNotifyStatusUpadte status hid]
  apply Core.view_superCancel
  rw [taskIdOf_pNotifyStatusUpadte]
  apply hid

/-- Stopping an operation for another task id, where the caller goes on with what leaves the task
id alone. -/
theorem view_stop (hwf : WellFormed s.toCore) (method : HanderMethod)
    (status : LCFileNetTaskStatus) {o : OpRef} (t : Tail) {rest : State → State}
    (hid : s.taskIdOf o ≠ some k)
    (hrest : ∀ s' : State, WellFormed s'.toCore →
      (∀ r, (s'.tasks.cell r).taskId = (s.tasks.cell r).taskId) → (rest s').view k = s'.view k) :
  (stop (quiet md5) method status o t rest s).view k = s.view k
  := by
  rw [stop]
  split
  · apply view_mapCore (Core.view_call method hid)
  · split
    · rw [hrest, view_stopTail status hid]
      · apply hwf.stopTail
      · intro r
        rw [toCore_stopTail]
        apply Core.taskId_recordStatus
    · rw [hrest, view_mapCore (Core.view_superCancel hid)]
      · apply hwf.superCancel
      · intro r
        rfl

/-! ### The service -/

theorem view_alreadyFinished {task : TaskRef} (taskId : String)
    (hid : (s.tasks.cell task).taskId ≠ some k) :
  (alreadyFinished (quiet md5) task taskId s).view k = s.view k
  := by
  rw [alreadyFinished, view_pNotifyFinish]
  · rfl
  · apply hid

theorem view_startChecked (hwf : WellFormed s.toCore) {task : TaskRef} {taskId : String}
    (hid : (s.tasks.cell task).taskId ≠ some k) (hne : taskId ≠ k) :
  (startChecked (quiet md5) task taskId s).view k = s.view k
  := by
  rw [startChecked]
  split
  · next oldTask hcache =>
      have hold : (s.tasks.cell oldTask).taskId ≠ some k := by
        rw [(hwf.cached taskId oldTask hcache).1]
        rintro ⟨⟩
        apply hne rfl
      rw [startCached]
      split
      · apply view_alreadyFinished taskId hold
      · apply view_mapCore (Core.view_pAddTask hold)
      · apply view_mapCore (Core.view_pAddTask hold)
      · apply view_mapCore (Core.view_pAddTask hold)
      · rfl
  · split
    · next row hrow =>
        have hne' : row.taskId ≠ k := by
          rw [LCFileTaskDB.taskId_of_get hrow]
          apply hne
        have hload := view_mapCore (s := s) (f := fun c =>
          pSetTask s.tasks.next row.taskId (c.allocTask row.object)) (Core.view_load hwf hne')
        have hid' : ((s.mapCore (fun c => pSetTask s.tasks.next row.taskId
            (c.allocTask row.object))).tasks.cell s.tasks.next).taskId ≠ some k :=
          Core.taskId_load hne'
        rw [startStored, ← hload]
        generalize s.mapCore (fun c => pSetTask s.tasks.next row.taskId (c.allocTask row.object))
          = s₁ at hid'
        have hinterrupt : (s₁.mapCore (fun c => pAddTask s.tasks.next
            (c.setStatus s.tasks.next .interrupt))).view k = s₁.view k := by
          apply view_mapCore
          rw [Core.view_pAddTask, Core.view_setStatus .interrupt hid']
          apply ne_of_eq_of_ne _ hid'
          apply Core.taskId_setTask
        split
        · apply view_alreadyFinished taskId hid'
        · apply hinterrupt
        · apply hinterrupt
        · apply view_mapCore (Core.view_pAddTask hid')
    · apply view_mapCore (Core.view_startNew hid hne)

theorem view_lcStartTask (hwf : WellFormed s.toCore) {task : TaskRef}
    (hid : (s.tasks.cell task).taskId ≠ some k) :
  (lcStartTask (quiet md5) task s).view k = s.view k
  := by
  rw [lcStartTask]
  split
  · rfl
  · next taskId htask =>
      have hne : taskId ≠ k := by
        rintro rfl
        apply hid htask
      simp only
      split
      · rw [view_startChecked _ _ hne, view_mapCore, view_enterFinish, view_pSaveCallback task hne]
        · apply Core.view_pSetMd5
          rw [toCore_enterFinish]
          apply hid
        · rw [State.toCore_mapCore, toCore_enterFinish]
          apply hwf.pSetMd5
        · rw [State.toCore_mapCore, taskId_pSetMd5, toCore_enterFinish]
          apply hid
      · rw [view_pNotifyFinish]
        · exact view_pSaveCallback (s := s) task hne
        · apply hid

theorem view_lcResumTask (hwf : WellFormed s.toCore) {taskId : String} (hne : taskId ≠ k) :
  (lcResumTask (quiet md5) taskId s).view k = s.view k
  := by
  rw [lcResumTask]
  split
  · next task hcache =>
      split
      · rfl
      · apply view_lcStartTask hwf
        rw [(hwf.cached taskId task hcache).1]
        rintro ⟨⟩
        apply hne rfl
  · rfl

/-- Another task id is cancelled, with a task of it. -/
theorem view_cancelTail {taskId : String} {cacheTask : TaskRef}
    (hid : (s.tasks.cell cacheTask).taskId ≠ some k) (hne : taskId ≠ k) :
  (cancelTail (quiet md5) taskId cacheTask s).view k = s.view k
  := by
  have hdeleted : (s.mapCore (fun c => { c with
        taskOperationDic := c.taskOperationDic.erase taskId
        db := LCFileTaskDB.lcDeleteTaskByTaskId taskId c.db })).view k = s.view k := by
    apply view_mapCore
    apply Core.view_of_eq
    · rfl
    · rfl
    · rfl
    · rw [LCFileTaskDB.get_lcDeleteTaskByTaskId, if_neg hne]
    · rfl
    · rw [Dictionary.lookup_erase, if_neg hne.symm]
  have hforgotten : ∀ s : State,
      (s.mapCore (fun c => { c with cache := c.cache.erase taskId })).view k = s.view k := by
    intro s
    apply view_mapCore
    apply Core.view_of_eq
    · rfl
    · rfl
    · rfl
    · rfl
    · rw [Dictionary.lookup_erase, if_neg hne.symm]
    · rfl
  have hcanceled : ∀ r, ((s.toCore.setStatus cacheTask .canceled).tasks.cell r).taskId
      = (s.tasks.cell r).taskId := fun r => Core.taskId_setTask cacheTask _ s.toCore r
  rw [cancelTail, hforgotten, view_pNotifyFinish, view_pNotifyStatusChange, view_mapCore]
  · exact hdeleted
  · apply Core.view_setStatus
    exact hid
  · exact ne_of_eq_of_ne (hcanceled cacheTask) hid
  · rw [toCore_pNotifyStatusChange]
    exact ne_of_eq_of_ne (hcanceled cacheTask) hid

theorem view_lcCancelTask (hwf : WellFormed s.toCore) {taskId : String} (hne : taskId ≠ k) :
  (lcCancelTask (quiet md5) taskId s).view k = s.view k
  := by
  rw [lcCancelTask]
  split
  · rfl
  · next cacheTask hcache =>
      have hid : (s.tasks.cell cacheTask).taskId ≠ some k := by
        rw [(hwf.cached taskId cacheTask hcache).1]
        rintro ⟨⟩
        apply hne rfl
      split
      · rfl
      · split
        · next o ho =>
            have ho' := RecordedAt.taskIdOf_stored hwf hne ho
            apply view_stop hwf .cancel .canceled _ ho'
            intro s' _ hids
            apply view_cancelTail _ hne
            rw [hids]
            apply hid
        · apply view_cancelTail hid hne

theorem view_pauseTail {cacheTask : TaskRef} (hid : (s.tasks.cell cacheTask).taskId ≠ some k) :
  (pauseTail (quiet md5) cacheTask s).view k = s.view k
  := by
  rw [pauseTail, view_pNotifyStatusChange]
  · apply view_mapCore (Core.view_setStatus .pause hid)
  · apply ne_of_eq_of_ne _ hid
    apply Core.taskId_setTask

/-- Pausing other task ids. -/
theorem view_pauseTasks (hwf : WellFormed s.toCore) {taskIds : List String} (hk : k ∉ taskIds) :
  (pauseTasks (quiet md5) taskIds s).view k = s.view k
  := by
  induction taskIds generalizing s with
  | nil => rfl
  | cons taskId taskIds ih =>
      rw [List.mem_cons, not_or] at hk
      obtain ⟨hne, hk⟩ := hk
      have ih' : ∀ s : State, WellFormed s.toCore →
          (pauseTasks (quiet md5) taskIds s).view k = s.view k := fun s hwf => ih hwf hk
      rw [pauseTasks]
      split
      · apply ih' s hwf
      · next cacheTask hcache =>
          have hid : (s.tasks.cell cacheTask).taskId ≠ some k := by
            rw [(hwf.cached taskId cacheTask hcache).1]
            rintro ⟨⟩
            apply hne rfl
          split
          · apply ih' s hwf
          · split
            · next o ho =>
                have ho' := RecordedAt.taskIdOf_stored hwf (Ne.symm hne) ho
                apply view_stop hwf .pause .pause _ ho'
                intro s' hwf' hids
                rw [ih' _ (hwf'.pauseTail cacheTask), view_pauseTail]
                rw [hids]
                apply hid
            · rw [ih' _ (hwf.pauseTail cacheTask), view_pauseTail hid]

end State

/-! ### Events -/

/-- The tail goes on with an operation or a task of the task id, or with the task id itself. -/
def Tail.About (k : String) (c : Core) : Tail → Prop
  | .main o | .cancel o | .pause o => c.taskIdOf o = some k
  | .lcCancelTask o taskId cacheTask =>
      c.taskIdOf o = some k ∨ (c.tasks.cell cacheTask).taskId = some k ∨ taskId = k
  | .lcPauseTask o cacheTask taskIds =>
      c.taskIdOf o = some k ∨ (c.tasks.cell cacheTask).taskId = some k ∨ k ∈ taskIds

instance (k : String) (c : Core) : (t : Tail) → Decidable (t.About k c)
  | .main o | .cancel o | .pause o => inferInstanceAs (Decidable (c.taskIdOf o = some k))
  | .lcCancelTask _ _ _ | .lcPauseTask _ _ _ => inferInstanceAs (Decidable (_ ∨ _ ∨ _))

/-- The event calls the service for the task id, touches one of its task objects, their operations
or their calls of the handler, or ends the process. -/
def Event.About (k : String) (s : State) : Event → Prop
  | .create t => t.taskId = some k
  | .set task _ | .startTask task => (s.tasks.cell task).taskId = some k
  | .resumTask taskId | .pauseTask taskId | .cancelTask taskId | .getTask taskId => taskId = k
  | .updatetask key _ => key = k
  | .pauseAllTask => k ∈ s.taskOperationDic.keys
  | .opStart o | .opCancel o | .opPause o => s.taskIdOf o = some k
  | .returns i => ∃ t ∈ s.pending[i]?, t.About k s.toCore
  | .progress r | .finish r _ => s.taskIdOf (s.calls.cell r).op = some k
  | .addHander _ | .deallocHander _ | .addObserver _ | .find _ | .edit _ _ => False
  | .restart => True

instance (k : String) (s : State) : (e : Event) → Decidable (e.About k s)
  | .create t => inferInstanceAs (Decidable (t.taskId = some k))
  | .set task _ | .startTask task =>
      inferInstanceAs (Decidable ((s.tasks.cell task).taskId = some k))
  | .resumTask taskId | .pauseTask taskId | .cancelTask taskId | .getTask taskId =>
      inferInstanceAs (Decidable (taskId = k))
  | .updatetask key _ => inferInstanceAs (Decidable (key = k))
  | .pauseAllTask => inferInstanceAs (Decidable (k ∈ s.taskOperationDic.keys))
  | .opStart o | .opCancel o | .opPause o => inferInstanceAs (Decidable (s.taskIdOf o = some k))
  | .returns i => inferInstanceAs (Decidable (∃ t ∈ s.pending[i]?, t.About k s.toCore))
  | .progress r | .finish r _ =>
      inferInstanceAs (Decidable (s.taskIdOf (s.calls.cell r).op = some k))
  | .addHander _ | .deallocHander _ | .addObserver _ | .find _ | .edit _ _ =>
      inferInstanceAs (Decidable False)
  | .restart => inferInstanceAs (Decidable True)

namespace State

variable {k : String} {s : State} {md5 : Bytes → String}

theorem view_runTail (hwf : WellFormed s.toCore) {t : Tail} (ht : ¬ t.About k s.toCore) :
  (runTail (quiet md5) t s).view k = s.view k
  := by
  have htaskId : ∀ status o r, ((stopTail (quiet md5) status o s).tasks.cell r).taskId
      = (s.tasks.cell r).taskId := by
    intro status o r
    rw [toCore_stopTail]
    apply Core.taskId_recordStatus
  cases t with
  | main o => apply view_pNotifyStart ht
  | cancel o => apply view_stopTail .canceled ht
  | pause o => apply view_stopTail .pause ht
  | lcCancelTask o taskId cacheTask =>
      simp only [Tail.About, not_or] at ht
      obtain ⟨ho, hid, hne⟩ := ht
      rw [runTail, view_cancelTail _ hne, view_stopTail .canceled ho]
      rw [htaskId]
      apply hid
  | lcPauseTask o cacheTask taskIds =>
      simp only [Tail.About, not_or] at ht
      obtain ⟨ho, hid, hk⟩ := ht
      rw [runTail, view_pauseTasks _ hk, view_pauseTail, view_stopTail .pause ho]
      · rw [htaskId]
        apply hid
      · apply (hwf.stopTail .pause o).pauseTail

/-- An event that is not about the task id leaves what is held of it. -/
theorem view_step (hwf : WellFormed s.toCore) {e : Event} (he : ¬ e.About k s) :
  (step (quiet md5) s e).view k = s.view k
  := by
  cases e with
  | create t => apply view_mapCore (Core.view_allocTask hwf he)
  | set task t =>
      rw [step]
      split
      · apply view_mapCore (Core.view_setTask _ he)
      · rfl
  | startTask task =>
      rw [step]
      split
      · apply view_lcStartTask hwf he
      · rfl
  | resumTask taskId => apply view_lcResumTask hwf he
  | pauseTask taskId =>
      apply view_pauseTasks hwf
      rw [List.mem_singleton]
      apply Ne.symm he
  | pauseAllTask => apply view_pauseTasks hwf he
  | cancelTask taskId => apply view_lcCancelTask hwf he
  | getTask taskId => apply view_mapCore (Core.view_lcGetTask hwf he)
  | updatetask key filePath =>
      apply view_mapCore
      apply Core.view_setDb
      rw [LCFileTaskDB.lcUpdateTaskFilePath, LCFileTaskDB.get_updateTask, if_neg]
      rintro heq
      apply he (Option.some.inj heq)
  | opStart o =>
      rw [step]
      split
      · rw [view_start]
        · apply view_mapCore
          apply Core.view_setOp _ he
          intro op
          rfl
        · rw [State.toCore_mapCore, Core.taskIdOf, Core.taskOf_setOp rfl]
          apply he
      · rfl
  | opCancel o =>
      rw [step]
      split
      · apply view_stop hwf .cancel .canceled _ he
        intro s' _ _
        rfl
      · rfl
  | opPause o =>
      rw [step]
      split
      · apply view_stop hwf .pause .pause _ he
        intro s' _ _
        rfl
      · rfl
  | returns i =>
      rw [step]
      split
      · next t ht =>
          have hdropped : (s.mapCore (·.dropTail i)).view k = s.view k :=
            view_mapCore (Core.view_of_eq rfl rfl rfl rfl rfl rfl)
          rw [view_runTail, hdropped]
          · exact hwf.congr rfl rfl rfl rfl rfl
          · intro habout
            apply he ⟨t, ht, habout⟩
      · rfl
  | progress r =>
      rw [step]
      split
      · apply view_progressBlock he
      · rfl
  | finish r error =>
      rw [step]
      split
      · rw [view_finishBlock error]
        · apply view_mapCore (Core.view_answer he)
        · apply he
      · rfl
  | addHander hander => exact view_mapCore (Core.view_of_eq rfl rfl rfl rfl rfl rfl)
  | deallocHander hander => exact view_mapCore (Core.view_of_eq rfl rfl rfl rfl rfl rfl)
  | addObserver o => rfl
  | find finder => rfl
  | edit path content => exact view_mapCore (Core.view_of_eq rfl rfl rfl rfl rfl rfl)
  | restart => apply absurd trivial he

end State

/-! ### Runs -/

/-- After any run, a run of events that are not about a task id leaves all that is held of it. -/
theorem throughout_view (md5 : Bytes → String) (db : TaskTable) (disk : Disk String Bytes)
    (es es' : List Event) (k : String)
    (hes' : Run.Along (step (quiet md5)) (fun s e => ¬ e.About k s)
      (Run.final (step (quiet md5)) (State.initial db disk) es) es') :
  Run.Throughout (step (quiet md5))
    (fun s => s.view k = (Run.final (step (quiet md5)) (State.initial db disk) es).view k)
    (Run.final (step (quiet md5)) (State.initial db disk) es) es'
  := by
  set s₀ := Run.final (step (quiet md5)) (State.initial db disk) es with hs₀
  have hwf : WellFormed s₀.toCore := (@WellFormed.throughout md5 db disk es).final
  have hboth : Run.Throughout (step (quiet md5))
      (fun s => WellFormed s.toCore ∧ s.view k = s₀.view k) s₀ es' := by
    apply Run.throughout_of_step _ ⟨hwf, rfl⟩ hes'
    rintro s e ⟨hwf, hview⟩ he
    exact ⟨hwf.step e, (State.view_step hwf he).trans hview⟩
  apply hboth.imp
  intro s h
  apply h.2

/-- Two downloads of which the second is under way. -/
def besideDownload : List Event :=
  [.create { taskId := "j", type := .download, finishCallback := some 7 },
    .create { taskId := "k", type := .download, finishCallback := some 8 }, .addHander 0,
    .addObserver (some 3), .startTask 0, .startTask 1, .opStart 1, .returns 0]

/-- The first download is paused, resumed, fails and is cancelled beside the second. -/
theorem throughout_view_besideDownload :
  Run.Throughout (step (quiet fun _ => ""))
    (fun s => s.view "k" = (Run.final (step (quiet fun _ => ""))
      (State.initial ∅ (fun _ => none)) besideDownload).view "k")
    (Run.final (step (quiet fun _ => "")) (State.initial ∅ (fun _ => none)) besideDownload)
    [.opStart 0, .returns 0, .pauseTask "j", .returns 0, .resumTask "j", .opStart 2, .returns 0,
      .finish 3 (some {}), .finish 4 (some {}), .cancelTask "j", .returns 0, .getTask "j"]
  := by
  apply throughout_view
  decide +kernel

end LCCFileService
