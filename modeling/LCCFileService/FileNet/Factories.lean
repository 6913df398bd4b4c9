import LCCFileService.FileNet.Stalls

/-!
# Tasks made by the factories

A task made by `lc_uploadTask:fileKey:md5:filePath:` or `lc_downlaodTask:fileKey:filePath:url:`
and passed to `lc_startTask:queue:` is to be recorded with all that the factory was given, to
be put into a queue, and to be passed to the handler when it is started.  The factory of
uploads forgets the MD5, which `p_checkTask:` then computes from the file; that of downloads
forgets the type, without which `p_checkTask:` rejects the task.
-/

namespace LCCFileService

open LCFileNetService LCFileNetOperation

/-! ### The factories -/

/-- A call of one of the two factories. -/
inductive Factory where
  | uploadTask (taskId fileKey md5 filePath : String)
  | downlaodTask (taskId fileKey filePath url : String)

namespace Factory

/-- The task the factory makes. -/
def task : Factory → LCFileNetTask
  | uploadTask taskId fileKey md5 filePath => .lcUploadTask taskId fileKey md5 filePath
  | downlaodTask taskId fileKey filePath url => .lcDownlaodTask taskId fileKey filePath url

/-- The task the factory is asked for, with all that it is given. -/
def asked : Factory → LCFileNetTask
  | uploadTask taskId fileKey md5 filePath =>
      { taskId := taskId, fileKey := fileKey, md5 := md5, filePath := filePath, type := .upload }
  | downlaodTask taskId fileKey filePath url =>
      { taskId := taskId, fileKey := fileKey, filePath := filePath, url := url, type := .download }

/-- The task id the factory is given. -/
def taskId : Factory → String
  | uploadTask taskId _ _ _ | downlaodTask taskId _ _ _ => taskId

/-- The method of the handler that transfers the task. -/
def method : Factory → HanderMethod
  | uploadTask _ _ _ _ => .upload
  | downlaodTask _ _ _ _ => .download

/-- The file to be uploaded exists. -/
def FilePresent (disk : Disk String Bytes) : Factory → Prop
  | uploadTask _ _ _ filePath => disk.has filePath
  | downlaodTask _ _ _ _ => True

/-- What the factory forgets is what the service makes up for it: the MD5 of an upload is that of
its file.  The type of a download is not made up for. -/
def MadeUpFor (md5 : Bytes → String) (disk : Disk String Bytes) : Factory → Prop
  | uploadTask _ _ m filePath => m = Md5Tools.fileMD5WithPath md5 filePath disk
  | downlaodTask _ _ _ _ => False

instance (disk : Disk String Bytes) : (f : Factory) → Decidable (f.FilePresent disk)
  | uploadTask _ _ _ filePath => inferInstanceAs (Decidable (disk.has filePath = true))
  | downlaodTask _ _ _ _ => isTrue trivial

instance (md5 : Bytes → String) (disk : Disk String Bytes) :
    (f : Factory) → Decidable (f.MadeUpFor md5 disk)
  | uploadTask _ _ m filePath =>
      inferInstanceAs (Decidable (m = Md5Tools.fileMD5WithPath md5 filePath disk))
  | downlaodTask _ _ _ _ => isFalse id

end Factory

/-- The state after a task has been made by a factory and passed to `lc_startTask:queue:`. -/
def State.makeAndStart (md5 : Bytes → String) (f : Factory) (s : State) : State :=
  Run.final (step (quiet md5)) s [.create f.task, .startTask s.tasks.next]

/-- The task that the factory is asked for is recorded in a row, one operation is enqueued for it,
and when that is started, after the events `es`, it calls the method of the handler once, with the
task that the factory is asked for. -/
structure CarriedThrough (md5 : Bytes → String) (s : State) (f : Factory) (es : List Event) :
    Prop where
  persisted : (s.makeAndStart md5 f).db.get f.taskId =
    some ⟨f.asked.toLCFileNetTaskFields, f.taskId⟩
  enqueued : (s.makeAndStart md5 f).ops =
      s.ops.alloc { task := s.tasks.next, hander := s.hander } ∧
    (s.makeAndStart md5 f).taskOperationDic.lookup f.taskId = some s.ops.next
  called :
    let before := Run.final (step (quiet md5)) (s.makeAndStart md5 f) es
    let after := step (quiet md5) before (.opStart s.ops.next)
    after.calls = before.calls.alloc { op := s.ops.next, method := f.method } ∧
      after.tasks.cell (after.taskOf s.ops.next) = f.asked

/-- The operation has not been started or cancelled, its handler is there, and its task is the
given one. -/
structure Enqueued (o : OpRef) (t : LCFileNetTask) (c : Core) : Prop where
  lt : o < c.ops.next
  notStarted : (c.ops.cell o).started = false
  notCancelled : (c.ops.cell o).cancelled = false
  hander : (c.handerOf o).isSome
  task : c.tasks.cell (c.taskOf o) = t

instance (o : OpRef) (t : LCFileNetTask) (c : Core) : Decidable (Enqueued o t c) :=
  decidable_of_iff (o < c.ops.next ∧ (c.ops.cell o).started = false ∧
      (c.ops.cell o).cancelled = false ∧ (c.handerOf o).isSome ∧ c.tasks.cell (c.taskOf o) = t)
    ⟨fun h => ⟨h.1, h.2.1, h.2.2.1, h.2.2.2.1, h.2.2.2.2⟩,
      fun h => ⟨h.lt, h.notStarted, h.notCancelled, h.hander, h.task⟩⟩

section

variable {md5 : Bytes → String} {s : State}

/-! ### Starting the operation -/

/-- `main` of an operation with a handler calls the method for the task. -/
theorem Factory.mainTransfer_eq (f : Factory) {o : OpRef} {c : Core}
    (hhander : (c.handerOf o).isSome) (htask : c.tasks.cell (c.taskOf o) = f.asked) :
  mainTransfer o c = c.call o f.method
  := by
  rw [mainTransfer, htask]
  cases f with
  | uploadTask taskId fileKey m filePath =>
      simp only [Factory.asked, resumes, Bool.false_eq_true, if_false]
      rw [pStartUpload, if_pos hhander]
      rfl
  | downlaodTask taskId fileKey filePath url =>
      simp only [Factory.asked, resumes, Bool.false_eq_true, if_false]
      rw [pStartDownload, if_pos hhander]
      rfl

/-- Where `main` calls the handler, this is all it does before the handler returns. -/
theorem toCore_main_of_call {o : OpRef} {s : State} {method : HanderMethod}
    (h : mainTransfer o s.toCore = s.toCore.call o method) :
  (LCFileNetOperation.main (quiet md5) o s).toCore = (s.toCore.call o method).await (.main o)
  := by
  have hlt : s.calls.next < (s.toCore.call o method).calls.next := Nat.lt_succ_self _
  rw [toCore_main, h, if_pos hlt]

/-- The operation calls the method of the handler when it is started, with the task that the factory
is asked for, exactly if it is still as it has been enqueued, for this task. -/
theorem Factory.opStart_iff (f : Factory) (o : OpRef) (s : State) :
  ((step (quiet md5) s (.opStart o)).calls = s.calls.alloc { op := o, method := f.method } ∧
      (step (quiet md5) s (.opStart o)).tasks.cell
        ((step (quiet md5) s (.opStart o)).taskOf o) = f.asked) ↔
    Enqueued o f.asked s.toCore
  := by
  have hhander : (running o s.toCore).handerOf o = s.handerOf o := Core.handerOf_setOp rfl o
  have htask : (running o s.toCore).taskOf o = s.taskOf o := Core.taskOf_setOp rfl o
  have hcalled : ∀ {calls : Heap HanderCall}, calls = s.calls →
      calls ≠ s.calls.alloc { op := o, method := f.method } := by
    rintro calls rfl halloc
    apply absurd (congrArg Heap.next halloc) (Nat.ne_of_lt (Nat.lt_succ_self _))
  constructor
  · rintro ⟨hcalls, hasked⟩
    by_cases hguard : o < s.ops.next ∧ (s.ops.cell o).started = false
    · rw [step_opStart hguard] at hcalls hasked
      by_cases hcancelled : (s.ops.cell o).cancelled
      · rw [if_pos hcancelled] at hcalls
        apply absurd hcalls (hcalled rfl)
      · rw [if_neg hcancelled] at hcalls hasked
        obtain ⟨⟨hserved, -⟩, method, -, heq⟩ | ⟨-, heq⟩ :=
          mainTransfer_cases o (running o s.toCore)
        · rw [toCore_main_of_call heq] at hasked
          rw [hhander] at hserved
          refine ⟨hguard.1, hguard.2, by simpa using hcancelled, hserved, ?_⟩
          rw [← htask]
          apply hasked
        · rw [(main_ops_calls o (s.mapCore (running o))).2] at hcalls
          refine absurd hcalls (hcalled ?_)
          rw [State.toCore_mapCore]
          obtain heq | heq := heq
          · rw [heq]
            rfl
          · rw [heq]
            rfl
    · rw [step, if_neg hguard] at hcalls
      apply absurd hcalls (hcalled rfl)
  · intro h
    have hguard : o < s.ops.next ∧ (s.ops.cell o).started = false := ⟨h.lt, h.notStarted⟩
    have heq : mainTransfer o (running o s.toCore) = (running o s.toCore).call o f.method := by
      apply f.mainTransfer_eq
      · rw [hhander]
        apply h.hander
      · rw [htask]
        apply h.task
    have hmain := @toCore_main_of_call md5 o (s.mapCore (running o)) f.method heq
    rw [step_opStart hguard, if_neg (by rw [h.notCancelled]; exact Bool.false_ne_true), hmain]
    refine ⟨rfl, ?_⟩
    have htaskOf : (((running o s.toCore).call o f.method).await (.main o)).taskOf o = s.taskOf o :=
      htask
    apply (congrArg s.tasks.cell htaskOf).trans h.task

/-! ### Making and starting the task -/

/-- A task that is new to the service and passes `p_checkTask:`, after that. -/
theorem toCore_makeAndStart {f : Factory} (hcache : s.cache.lookup f.taskId = none)
    (hdb : s.db.get f.taskId = none) :
  (s.makeAndStart md5 f).toCore =
    if pCheckTask s.tasks.next (s.toCore.allocTask f.task) then
      startNew s.tasks.next f.taskId
        (pSetMd5 md5 s.tasks.next (s.toCore.allocTask f.task))
    else s.toCore.allocTask f.task
  := by
  have hstep : (s.makeAndStart md5 f).toCore =
      (s.toCore.allocTask f.task).startTask md5 s.tasks.next := by
    have hlt : s.tasks.next < (s.toCore.allocTask f.task).tasks.next := Nat.lt_succ_self _
    rw [State.makeAndStart, Run.final_cons, Run.final_cons, Run.final_nil, step, step,
      State.toCore_mapCore, if_pos hlt, toCore_lcStartTask]
    rfl
  have hcell : (s.toCore.allocTask f.task).tasks.cell s.tasks.next = f.task :=
    Heap.cell_alloc_next _ _
  have htaskId : f.task.taskId = some f.taskId := by
    cases f with
    | uploadTask taskId fileKey m filePath => rfl
    | downlaodTask taskId fileKey filePath url => rfl
  rw [hstep, Core.startTask, hcell, htaskId]
  dsimp only
  split
  · obtain ⟨hcache', -, -, hdb'⟩ :=
      @rest_pSetMd5 md5 s.tasks.next (s.toCore.allocTask f.task)
    have hlookup : (pSetMd5 md5 s.tasks.next (s.toCore.allocTask f.task)).cache.lookup f.taskId =
        none := by
      rw [hcache']
      apply hcache
    have hget : LCFileTaskDB.lcGetTaskByTaskId f.taskId
        (pSetMd5 md5 s.tasks.next (s.toCore.allocTask f.task)).db = none := by
      rw [hdb']
      apply hdb
    rw [Core.startChecked, hlookup]
    dsimp only
    rw [hget]
  · rfl

/-- A new task of known type is recorded, and an operation is enqueued for it. -/
theorem startNew_enqueues {task : TaskRef} {taskId : String} {c : Core}
    (htaskId : (c.tasks.cell task).taskId = some taskId)
    (htype : (c.tasks.cell task).type ≠ .unknown) :
  (startNew task taskId c).db.get taskId =
      some ⟨(c.tasks.cell task).toLCFileNetTaskFields, taskId⟩ ∧
    (startNew task taskId c).ops = c.ops.alloc { task, hander := c.hander } ∧
    (startNew task taskId c).taskOperationDic.lookup taskId = some c.ops.next
  := by
  have hadd : startNew task taskId c = addOperation task taskId
      ((pSetTask task taskId c).setDb (LCFileTaskDB.lcSaveTask (c.tasks.cell task))) := by
    rw [startNew, pAddTask]
    have hcell : ((pSetTask task taskId c).setDb
        (LCFileTaskDB.lcSaveTask (c.tasks.cell task))).tasks.cell task = c.tasks.cell task := rfl
    rw [hcell, htaskId]
    cases htype' : (c.tasks.cell task).type with
    | unknown => apply absurd htype' htype
    | upload => rfl
    | download => rfl
  rw [hadd]
  refine ⟨?_, rfl, AList.lookup_insert _⟩
  have hsaved := LCFileTaskDB.get_lcSaveTask (c.tasks.cell task) c.db taskId
  rw [if_pos htaskId] at hsaved
  apply hsaved

/-- A new upload is recorded with the MD5 of its file, and an operation is enqueued for it. -/
theorem makeAndStart_uploadTask {taskId fileKey m filePath : String}
    (hcache : s.cache.lookup taskId = none) (hdb : s.db.get taskId = none)
    (hfile : s.disk.has filePath) :
  (s.makeAndStart md5 (.uploadTask taskId fileKey m filePath)).db.get taskId =
      some ⟨(Factory.asked (.uploadTask taskId fileKey
        (Md5Tools.fileMD5WithPath md5 filePath s.disk) filePath)).toLCFileNetTaskFields, taskId⟩ ∧
    (s.makeAndStart md5 (.uploadTask taskId fileKey m filePath)).ops =
      s.ops.alloc { task := s.tasks.next, hander := s.hander } ∧
    (s.makeAndStart md5 (.uploadTask taskId fileKey m filePath)).taskOperationDic.lookup taskId =
      some s.ops.next
  := by
  have hcell : (s.toCore.allocTask (.lcUploadTask taskId fileKey m filePath)).tasks.cell
      s.tasks.next = .lcUploadTask taskId fileKey m filePath := Heap.cell_alloc_next _ _
  have hcheck : pCheckTask s.tasks.next
      (s.toCore.allocTask (.lcUploadTask taskId fileKey m filePath)) := by
    rw [pCheckTask, hcell]
    apply hfile
  have hset : pSetMd5 md5 s.tasks.next
      (s.toCore.allocTask (.lcUploadTask taskId fileKey m filePath)) =
        (s.toCore.allocTask (.lcUploadTask taskId fileKey m filePath)).setTask s.tasks.next
          (fun t => { t with md5 := some (Md5Tools.fileMD5WithPath md5 filePath s.disk) }) := by
    rw [pSetMd5, hcell]
    rfl
  have hmade : ((s.toCore.allocTask (.lcUploadTask taskId fileKey m filePath)).setTask s.tasks.next
      (fun t => { t with md5 := some (Md5Tools.fileMD5WithPath md5 filePath s.disk) })).tasks.cell
        s.tasks.next = Factory.asked (.uploadTask taskId fileKey
          (Md5Tools.fileMD5WithPath md5 filePath s.disk) filePath) := by
    rw [Core.setTask, Heap.cell_modify_self, hcell]
    rfl
  have hnew := @toCore_makeAndStart md5 s (.uploadTask taskId fileKey m filePath) hcache hdb
  rw [Factory.task, if_pos hcheck, hset] at hnew
  have henqueued := startNew_enqueues (congrArg LCFileNetTask.taskId hmade)
    (by rw [hmade]; rintro ⟨⟩)
  rw [hmade] at henqueued
  rw [hnew]
  apply henqueued

/-- A new download is rejected, and nothing is recorded. -/
theorem makeAndStart_downlaodTask {taskId fileKey filePath url : String}
    (hcache : s.cache.lookup taskId = none) (hdb : s.db.get taskId = none) :
  (s.makeAndStart md5 (.downlaodTask taskId fileKey filePath url)).toCore =
    s.toCore.allocTask (.lcDownlaodTask taskId fileKey filePath url)
  := by
  have hcell : (s.toCore.allocTask (.lcDownlaodTask taskId fileKey filePath url)).tasks.cell
      s.tasks.next = .lcDownlaodTask taskId fileKey filePath url := Heap.cell_alloc_next _ _
  have hcheck : ¬ pCheckTask s.tasks.next
      (s.toCore.allocTask (.lcDownlaodTask taskId fileKey filePath url)) := by
    rw [pCheckTask, hcell]
    apply Bool.false_ne_true
  rw [@toCore_makeAndStart md5 s (.downlaodTask taskId fileKey filePath url) hcache hdb,
    Factory.task, if_neg hcheck]

end

/-- A task made by a factory for a new task id is carried through exactly if what the factory
forgets is made up for, and the operation is started as it has been enqueued. -/
theorem carriedThrough_iff (md5 : Bytes → String) (s : State) (f : Factory) (es : List Event)
    (hcache : s.cache.lookup f.taskId = none) (hdb : s.db.get f.taskId = none)
    (hfile : f.FilePresent s.disk) :
  CarriedThrough md5 s f es ↔
    f.MadeUpFor md5 s.disk ∧
      Enqueued s.ops.next f.asked
        (Run.final (step (quiet md5)) (s.makeAndStart md5 f) es).toCore
  := by
  cases f with
  | uploadTask taskId fileKey m filePath =>
      obtain ⟨hrow, hops⟩ :=
        @makeAndStart_uploadTask md5 s taskId fileKey m filePath hcache hdb hfile
      constructor
      · intro h
        refine ⟨?_, (Factory.opStart_iff _ _ _).mp h.called⟩
        have hasked := hrow.symm.trans h.persisted
        apply (congrArg (fun r => r.md5) (Option.some.inj hasked) |> Option.some.inj).symm
      · rintro ⟨rfl, henqueued⟩
        exact ⟨hrow, hops, (Factory.opStart_iff _ _ _).mpr henqueued⟩
  | downlaodTask taskId fileKey filePath url =>
      refine iff_of_false ?_ (fun h => h.1)
      intro h
      have hrow := h.persisted
      rw [@makeAndStart_downlaodTask md5 s taskId fileKey filePath url hcache hdb] at hrow
      have hnone := hdb.symm.trans hrow
      cases hnone

/-- The service when the process has started and a handler been added, with a file at `"/a"`. -/
def handerAdded : State :=
  step (quiet (fun _ => "m"))
    (State.initial (Table.empty _) (fun path => if path = "/a" then some [1] else none))
    (.addHander 0)

/-- An upload made with the MD5 of its file, for which another task is started first. -/
theorem carriedThrough_uploadTask :
  CarriedThrough (fun _ => "m") handerAdded (.uploadTask "a" "k" "m" "/a")
    [.create { taskId := "b", type := .download }, .startTask 1, .opStart 1]
  := (carriedThrough_iff (fun _ => "m") handerAdded (.uploadTask "a" "k" "m" "/a") _ (by decide)
    (by decide) (by decide)).mpr ⟨rfl, by decide +kernel⟩

/-- An upload made with another MD5 is recorded with that of its file, and a download is
rejected. -/
theorem not_carriedThrough_otherMd5 :
  ¬ CarriedThrough (fun _ => "m") handerAdded (.uploadTask "a" "k" "n" "/a") [] ∧
    ¬ CarriedThrough (fun _ => "m") handerAdded (.downlaodTask "a" "k" "/b" "u") []
  := by
  constructor
  · intro h
    have hrow := h.persisted
    revert hrow
    decide +kernel
  · intro h
    have hrow := h.persisted
    revert hrow
    decide +kernel

end LCCFileService
