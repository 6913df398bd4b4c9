import LCCFileService.FileNet.Rejection

/-!
# Resuming by the task id

`lc_resumTask:queue:` of an unfinished task is to do what `lc_startTask:queue:` does with the
cached task of the id, or with the task of its row.  It looks a task that is not cached up
by the task id of nil, so it does so exactly if the task is cached, or if its row's task is
rejected and nobody is told.
-/

namespace LCCFileService

open LCFileNetService

variable {md5 : Bytes → String}

/-- The task id has a cached task that has not finished, or only a row that has not. -/
def Unfinished (taskId : String) (s : State) : Prop :=
  (∃ task, s.cache.lookup taskId = some task ∧ (s.tasks.cell task).status ≠ .finish) ∨
    s.cache.lookup taskId = none ∧ ∃ row, s.db.get taskId = some row ∧ row.status ≠ .finish

/-- `lc_startTask:queue:` of the cached task, or else of the object read from the row. -/
def startTaskOf (E : Env) (taskId : String) (s : State) : State :=
  match s.cache.lookup taskId with
  | some task => lcStartTask E task s
  | none =>
      match LCFileTaskDB.lcGetTaskByTaskId taskId s.db with
      | some row => lcStartTask E s.tasks.next (s.mapCore (·.allocTask row.object))
      | none => s

/-- The cache, the rows, the stored and the enqueued operations, and the notes are the same. -/
structure SameOutcome (s s' : State) : Prop where
  cache : s'.cache = s.cache
  rows : s'.db = s.db
  operations : s'.taskOperationDic = s.taskOperationDic
  enqueued : s'.ops = s.ops
  notes : s'.notes = s.notes

theorem SameOutcome.refl (s : State) :
  SameOutcome s s
  := ⟨rfl, rfl, rfl, rfl, rfl⟩

/-- Resuming an unfinished task has the outcome of starting it. -/
def ResumesLikeStart (md5 : Bytes → String) (taskId : String) (s : State) : Prop :=
  Unfinished taskId s →
    SameOutcome (step (quiet md5) s (.resumTask taskId)) (startTaskOf (quiet md5) taskId s)

/-- An unfinished task is cached, or it is rejected by `p_checkTask:` and nobody is told. -/
def CachedOrRejected (taskId : String) (s : State) : Prop :=
  Unfinished taskId s → (s.cache.lookup taskId).isSome ∨
    (∀ row, s.db.get taskId = some row →
      pCheckTask s.tasks.next (s.toCore.allocTask row.object) = false) ∧
    ¬ Heard .finish taskId s

/-- A cached task that has not finished is resumed like it is started. -/
theorem lcResumTask_cached {E : Env} {taskId : String} {s : State} {task : TaskRef}
    (hcached : s.cache.lookup taskId = some task) (hstatus : (s.tasks.cell task).status ≠ .finish) :
  lcResumTask E taskId s = startTaskOf E taskId s
  := by
  rw [lcResumTask, startTaskOf]
  simp only [hcached, hstatus, if_false]

/-- Nothing is done to resume a task that is not cached. -/
theorem lcResumTask_not_cached {E : Env} {taskId : String} {s : State}
    (hcached : s.cache.lookup taskId = none) :
  lcResumTask E taskId s = s
  := by
  rw [lcResumTask]
  simp only [hcached]
  rfl

section Row

variable {taskId : String} {s : State} {row : LCFileNetTaskRow}

/-- The object read from the row of the task id has the task id. -/
theorem taskId_allocTask_object (hrow : s.db.get taskId = some row) :
  ((s.mapCore (·.allocTask row.object)).tasks.cell s.tasks.next).taskId = some taskId
  := by
  have hcell : (s.mapCore (·.allocTask row.object)).tasks.cell s.tasks.next = row.object :=
    Heap.cell_alloc_next row.object s.tasks
  rw [hcell, LCFileNetTaskRow.object, LCFileTaskDB.taskId_of_get hrow]

/-- Adding an operation keeps the cache. -/
theorem cache_pAddTask (task : TaskRef) (c : Core) :
  (pAddTask task c).cache = c.cache
  := by
  rcases pAddTask_cases task c with h | ⟨k, -, -, h⟩
  · rw [h]
  · rw [h]
    rfl

/-- Starting what has a row puts the row's task id into the cache. -/
theorem cache_startChecked (task : TaskRef) {c : Core} (hcached : c.cache.lookup taskId = none)
    (hrow : c.db.get taskId = some row) :
  (c.startChecked task taskId).cache = c.cache.insert taskId c.tasks.next
  := by
  have hid : row.taskId = taskId := LCFileTaskDB.taskId_of_get hrow
  have hget : LCFileTaskDB.lcGetTaskByTaskId taskId c.db = some row := hrow
  rw [Core.startChecked]
  simp only [hcached, hget, hid]
  split
  · rfl
  · rw [cache_pAddTask]
    rfl
  · rw [cache_pAddTask]
    rfl
  · rw [cache_pAddTask]
    rfl

/-- A row's task that passes `p_checkTask:` is cached by starting it. -/
theorem cache_startTask_of_check (hcached : s.cache.lookup taskId = none)
    (hrow : s.db.get taskId = some row)
    (hcheck : pCheckTask s.tasks.next (s.toCore.allocTask row.object) = true) :
  ((lcStartTask (quiet md5) s.tasks.next (s.mapCore (·.allocTask row.object))).cache.lookup
    taskId).isSome
  := by
  have hid := taskId_allocTask_object hrow
  rw [State.toCore_mapCore] at hid
  obtain ⟨hcache, -, -, hdb⟩ := @rest_pSetMd5 md5 s.tasks.next (s.toCore.allocTask row.object)
  rw [toCore_lcStartTask, State.toCore_mapCore, Core.startTask]
  simp only [hid, hcheck, if_true]
  have hcached' : (pSetMd5 md5 s.tasks.next (s.toCore.allocTask row.object)).cache.lookup taskId
      = none := by
    rw [hcache]
    apply hcached
  have hrow' : (pSetMd5 md5 s.tasks.next (s.toCore.allocTask row.object)).db.get taskId
      = some row := by
    rw [hdb]
    apply hrow
  rw [cache_startChecked s.tasks.next hcached' hrow', Dictionary.lookup_insert, if_pos rfl]
  rfl

/-- Before a rejected row's task is notified, as many callbacks are registered as before. -/
theorem heard_rejected (row : LCFileNetTaskRow) (taskId : String) (s : State) (kind : NoteKind)
    (e : Delivery.Entry String Block) :
  Heard kind taskId ((pSaveCallback s.tasks.next taskId
      (s.mapCore (·.allocTask row.object))).enter e) ↔ Heard kind taskId s
  := by
  have hcell : (s.mapCore (·.allocTask row.object)).tasks.cell s.tasks.next = row.object :=
    Heap.cell_alloc_next row.object s.tasks
  have hregistered := registered_pSaveCallback_kind kind s.tasks.next taskId
    (s.mapCore (·.allocTask row.object)) taskId
  rw [if_pos rfl, hcell] at hregistered
  have hnone : row.object.callback kind = none := by
    cases kind with
    | progress => rfl
    | status => rfl
    | finish => rfl
  rw [hnone] at hregistered
  apply or_congr_right
  apply or_congr_right
  apply not_congr
  apply Eq.congr_left hregistered

/-- A rejected row's task changes nothing but what is told. -/
theorem sameOutcome_of_rejected (hrow : s.db.get taskId = some row)
    (hcheck : pCheckTask s.tasks.next (s.toCore.allocTask row.object) = false) :
  SameOutcome s (lcStartTask (quiet md5) s.tasks.next (s.mapCore (·.allocTask row.object))) ↔
    ¬ Heard .finish taskId s
  := by
  have hid := taskId_allocTask_object hrow
  have hcore : (lcStartTask (quiet md5) s.tasks.next
      (s.mapCore (·.allocTask row.object))).toCore = s.toCore.allocTask row.object := by
    rw [State.toCore_mapCore] at hid
    rw [toCore_lcStartTask, State.toCore_mapCore, Core.startTask]
    simp only [hid, hcheck, Bool.false_eq_true, if_false]
  have hnotes : (lcStartTask (quiet md5) s.tasks.next (s.mapCore (·.allocTask row.object))).notes
      = s.notes ↔ ¬ Heard .finish taskId s := by
    have hcell : (s.mapCore (·.allocTask row.object)).tasks.cell s.tasks.next = row.object :=
      Heap.cell_alloc_next row.object s.tasks
    have hrejected := @lcStartTask_rejected md5 s.tasks.next taskId
      (s.mapCore (·.allocTask row.object)) hid hcheck
    rw [hcell] at hrejected
    set e : Delivery.Entry String Block := .settleOnly taskId row.object.finishCallback
    have hid' : (((pSaveCallback s.tasks.next taskId (s.mapCore (·.allocTask row.object))).enter
        e).tasks.cell s.tasks.next).taskId = some taskId := hid
    obtain ⟨hfinish, -⟩ :=
      @LCFileNetService.pNotifyFinish_quiet md5 _ _ (some taskError) _ hid'
    rw [hrejected, hfinish, ← heard_rejected row taskId s .finish e,
      ← @notesOf_eq_nil_iff _ _ (some taskError) _ _ hid']
    apply List.append_right_eq_self
  constructor
  · intro h
    apply hnotes.mp h.notes
  · intro h
    constructor
    · rw [hcore]
      rfl
    · rw [hcore]
      rfl
    · rw [hcore]
      rfl
    · rw [hcore]
      rfl
    · apply hnotes.mpr h

end Row

/-- Resuming an unfinished task has the outcome of starting it exactly if the task is cached, or
is rejected and nobody is told. -/
theorem resumesLikeStart_iff (taskId : String) (s : State) :
  ResumesLikeStart md5 taskId s ↔ CachedOrRejected taskId s
  := by
  apply forall_congr'
  intro hunfinished
  rw [step]
  rcases hunfinished with ⟨task, hcached, hstatus⟩ | ⟨hcached, row, hrow, -⟩
  · rw [lcResumTask_cached hcached hstatus]
    apply iff_of_true
    · apply SameOutcome.refl
    · left
      rw [hcached]
      rfl
  · have hget : LCFileTaskDB.lcGetTaskByTaskId taskId s.db = some row := hrow
    have hstart : startTaskOf (quiet md5) taskId s
        = lcStartTask (quiet md5) s.tasks.next (s.mapCore (·.allocTask row.object)) := by
      rw [startTaskOf]
      simp only [hcached, hget]
    rw [lcResumTask_not_cached hcached, hstart]
    simp only [hcached, Option.isSome_none, Bool.false_eq_true, false_or, hrow,
      Option.some.injEq, forall_eq']
    cases hcheck : pCheckTask s.tasks.next (s.toCore.allocTask row.object) with
    | false =>
        rw [sameOutcome_of_rejected hrow hcheck]
        simp
    | true =>
        apply iff_of_false
        · intro h
          have hsome := @cache_startTask_of_check md5 taskId s row hcached hrow hcheck
          rw [h.cache, hcached] at hsome
          cases hsome
        · rintro ⟨hfalse, -⟩
          cases hfalse

/-- In every state of a run of the system, resuming agrees with starting for all unfinished tasks
exactly if in every state all unfinished tasks are cached, or rejected with nobody told. -/
theorem throughout_resumesLikeStart_iff (md5 : Bytes → String) (db : TaskTable)
    (disk : Disk String Bytes) (es : List Event) :
  Run.Throughout (step (quiet md5)) (fun s => ∀ taskId, ResumesLikeStart md5 taskId s)
      (State.initial db disk) es ↔
    Run.Throughout (step (quiet md5)) (fun s => ∀ taskId, CachedOrRejected taskId s)
      (State.initial db disk) es
  := by
  simp only [resumesLikeStart_iff]

/-- A paused download after a restart. -/
def pausedThenRestarted : List Event :=
  [.create { taskId := "k", type := .download }, .addHander 0, .startTask 0, .opStart 0,
    .returns 0, .pauseTask "k", .returns 0, .restart]

/-- Resuming the paused download after the restart does nothing. -/
theorem not_throughout_resumesLikeStart_restarted :
  ¬ Run.Throughout (step (quiet (fun _ => "")))
      (fun s => ∀ taskId, ResumesLikeStart (fun _ => "") taskId s)
      (State.initial ∅ (fun _ => none)) pausedThenRestarted
  := by
  intro h
  have hunfinished : Unfinished "k" (Run.final (step (quiet (fun _ => "")))
      (State.initial ∅ (fun _ => none)) pausedThenRestarted) := by
    right
    refine ⟨by decide +kernel, ⟨{ type := .download, status := .pause }, "k"⟩, ?_, ?_⟩
    · decide +kernel
    · decide
  have hcache := (h.final "k" hunfinished).cache
  have hlookup := congrArg (fun cache => (cache.lookup "k").isSome) hcache
  revert hlookup
  decide +kernel

end LCCFileService
