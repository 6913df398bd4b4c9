import LCCFileService.FileNet.Isolation
import LCCFileService.FileNet.Statuses

/-!
# Pausing all tasks

`lc_pauseAllTask` calls `lc_pauseTask:` for one task id after the other, and stands still whenever
the handler is called, until it returns.  When the handler has returned often enough, the tasks of
all operations in `taskOperationDic` that had not finished are paused, their operations are
finished, and cancelled unless they had finished before, and nothing else has changed.
-/

namespace LCCFileService

open LCFileNetService LCFileNetOperation

/-! ### What is read off a view -/

section

variable {k : String} {c c' : Core}

/-- Where the same is held of a task id, its tasks are the same. -/
theorem Core.cell_task_of_view (h : c'.view k = c.view k) {r : TaskRef} (hr : c.TaskWith k r) :
  c'.tasks.cell r = c.tasks.cell r
  := by
  have htask := congrArg (fun v => v.tasks r) h
  simp only [Core.view, if_pos hr, if_pos ((Core.taskWith_iff h r).mpr hr)] at htask
  apply Option.some.inj htask

/-- Where the same is held of a task id, its operations are the same. -/
theorem Core.cell_op_of_view (h : c'.view k = c.view k) {o : OpRef} (ho : c.OpWith k o) :
  c'.ops.cell o = c.ops.cell o
  := by
  have hop := congrArg (fun v => v.ops o) h
  simp only [Core.view, if_pos ho] at hop
  split at hop
  · apply Option.some.inj hop
  · cases hop

/-- Where the same is held of a task id, its row is the same. -/
theorem rowStatus_of_view (h : c'.view k = c.view k) :
  rowStatus k c' = rowStatus k c
  := congrArg (fun v => v.row.map (fun row => row.status)) h

end

/-! ### Paused task ids -/

/-- The operation of the task id and its task were paused between the two states; the row says so
too unless the operation had been cancelled and finished before. -/
structure PausedFrom (k : String) (s s' : State) (o : OpRef) : Prop where
  status : (s'.tasks.cell (s.taskOf o)).status = .pause
  finished : (s'.ops.cell o).finished
  cancelled : (s.ops.cell o).finished = false → (s'.ops.cell o).cancelled
  row : stoppable o s.toCore → rowStatus k s'.toCore = some .pause

/-- The operation in `taskOperationDic`, and its task, were paused between the two states unless
the task had finished; of a task id that has none, or whose task had finished, the same is held. -/
def PausedOrLeft (s s' : State) (k : String) : Prop :=
  match s.taskOperationDic.lookup k with
  | some o =>
      if (s.tasks.cell (s.taskOf o)).status = .finish then s'.view k = s.view k
      else PausedFrom k s s' o
  | none => s'.view k = s.view k

section

variable {k : String} {s s' s'' : State}

theorem PausedFrom.of_view {o : OpRef} (h : PausedFrom k s s' o)
    (hview : s''.view k = s'.view k) (htask : s'.TaskWith k (s.taskOf o))
    (hop : s'.OpWith k o) :
  PausedFrom k s s'' o
  := by
  have hcore : s''.toCore.view k = s'.toCore.view k := congrArg View.toCoreView hview
  constructor
  · rw [Core.cell_task_of_view hcore htask]
    apply h.status
  · rw [Core.cell_op_of_view hcore hop]
    apply h.finished
  · rw [Core.cell_op_of_view hcore hop]
    apply h.cancelled
  · rw [rowStatus_of_view hcore]
    apply h.row

/-- The operation in `taskOperationDic` and its task are held of the task id. -/
theorem WellFormed.stored_with (h : WellFormed s.toCore) {o : OpRef}
    (ho : s.taskOperationDic.lookup k = some o) :
  s.OpWith k o ∧ s.TaskWith k (s.taskOf o)
  := ⟨h.taskIdOf ho, h.owned o (h.enqueued k o ho), (h.taskIdOf ho).2⟩

/-- What was paused depends on what was held of the task id. -/
theorem PausedOrLeft.congr (h : PausedOrLeft s' s'' k) (hwf : WellFormed s.toCore)
    (hview : s'.view k = s.view k) :
  PausedOrLeft s s'' k
  := by
  have hcore : s'.toCore.view k = s.toCore.view k := congrArg View.toCoreView hview
  have hstored : s'.taskOperationDic.lookup k = s.taskOperationDic.lookup k :=
    congrArg CoreView.stored hcore
  rw [PausedOrLeft, hstored] at h
  rw [PausedOrLeft]
  cases ho : s.taskOperationDic.lookup k with
  | none =>
      simp only [ho] at h
      rw [h, hview]
  | some o =>
      obtain ⟨hop, htask⟩ := hwf.stored_with ho
      have hcell := Core.cell_op_of_view hcore hop
      have htaskOf : s'.taskOf o = s.taskOf o := congrArg LCFileNetOperation.task hcell
      simp only [ho] at h
      rw [htaskOf, Core.cell_task_of_view hcore htask] at h
      simp only
      split
      · next hfinish =>
          rw [if_pos hfinish] at h
          rw [h, hview]
      · next hfinish =>
          rw [if_neg hfinish] at h
          constructor
          · rw [← htaskOf]
            apply h.status
          · apply h.finished
          · rw [← hcell]
            apply h.cancelled
          · intro hstoppable
            apply h.row
            rw [stoppable, hcell]
            apply hstoppable

end

/-! ### Pausing one after the other -/

section

variable {k : String} {s : State} {md5 : Bytes → String}

/-- From `s` to `s'` only the operation of the task id and its task were paused. -/
structure PausesOne (k : String) (s s' : State) (o : OpRef) : Prop where
  wellFormed : WellFormed s'.toCore
  pending : s'.pending = s.pending
  paused : PausedFrom k s s' o
  task : s'.TaskWith k (s.taskOf o)
  op : s'.OpWith k o
  others : ∀ k' ≠ k, s'.view k' = s.view k'

/-- The flags of an operation after `[super cancel]` and its finish. -/
theorem flags_superCancel (o : OpRef) (c : Core) :
  ((superCancel o c).ops.cell o).finished ∧
    ((c.ops.cell o).finished = false → ((superCancel o c).ops.cell o).cancelled)
  := by
  rw [superCancel_eq, Core.recordStop, Core.setOp, Heap.cell_modify_self]
  refine ⟨rfl, ?_⟩
  intro hfinished
  simp [hfinished]

/-- `lc_pauseTask:` goes on after an operation in `taskOperationDic` has been stopped. -/
theorem pausesOne_pauseTail (hwf : WellFormed s.toCore) {o : OpRef}
    (ho : s.taskOperationDic.lookup k = some o) {s₁ : State} (hwf₁ : WellFormed s₁.toCore)
    (hsteady : Steady (fun _ => True) s.toCore s₁.toCore) (hpending : s₁.pending = s.pending)
    (hflags : (s₁.ops.cell o).finished ∧
      ((s.ops.cell o).finished = false → (s₁.ops.cell o).cancelled))
    (hrow : stoppable o s.toCore → rowStatus k s₁.toCore = some .pause)
    (hothers : ∀ k' ≠ k, s₁.view k' = s.view k') :
  PausesOne k s (pauseTail (quiet md5) (s.taskOf o) s₁) o
  := by
  obtain ⟨⟨hlt, hid⟩, htask⟩ := hwf.stored_with ho
  have hid₁ := (hsteady.taskId _ htask.1).trans htask.2
  have hidOf₁ : s₁.taskIdOf o = some k := by
    rw [Core.taskIdOf, hsteady.task o hlt]
    apply hid₁
  constructor
  · apply hwf₁.pauseTail
  · rw [toCore_pauseTail]
    apply hpending
  · constructor
    · rw [toCore_pauseTail, Core.cell_setStatus, if_pos rfl]
    · rw [toCore_pauseTail]
      apply hflags.1
    · rw [toCore_pauseTail]
      apply hflags.2
    · rw [toCore_pauseTail]
      apply hrow
  · rw [toCore_pauseTail]
    refine ⟨Nat.lt_of_lt_of_le htask.1 hsteady.tasks_le, ?_⟩
    apply (Core.taskId_setTask _ _ _ _).trans hid₁
  · rw [toCore_pauseTail]
    refine ⟨Nat.lt_of_lt_of_eq hlt hsteady.ops_eq.symm, ?_⟩
    exact (Core.taskId_setTask _ _ _ _).trans hidOf₁
  · intro k' hk'
    rw [State.view_pauseTail, hothers k' hk']
    rw [hid₁]
    rintro ⟨⟩
    apply hk' rfl

/-- The operation was stopped, and its task paused. -/
theorem pausesOne_stopTail (hwf : WellFormed s.toCore) {o : OpRef}
    (ho : s.taskOperationDic.lookup k = some o) :
  PausesOne k s (pauseTail (quiet md5) (s.taskOf o) (stopTail (quiet md5) .pause o s)) o
  := by
  apply pausesOne_pauseTail hwf ho
  · apply hwf.stopTail
  · apply Steady.stopTail
  · rw [toCore_stopTail]
    rfl
  · rw [toCore_stopTail]
    apply flags_superCancel
  · intro _
    obtain ⟨row, hrow⟩ := Option.isSome_iff_exists.mp (hwf.cached k _ (hwf.stored k o ho)).2
    rw [toCore_stopTail]
    have hget : (superCancel o (s.toCore.recordStatus (s.taskOf o) .pause)).db.get k
        = some { row with status := .pause } := by
      apply (LCFileTaskDB.get_updateTask _ _ _ k).trans
      rw [if_pos (hwf.stored_with ho).2.2, Core.setStatus, Core.setTask, hrow]
      rfl
    rw [rowStatus, hget]
    rfl
  · intro k' hk'
    apply State.view_stopTail
    apply RecordedAt.taskIdOf_stored hwf hk'.symm ho

/-- What was paused after the handler was called was paused. -/
theorem PausesOne.of_call (hwf : WellFormed s.toCore) {o : OpRef}
    (ho : s.taskOperationDic.lookup k = some o) {s' : State}
    (h : PausesOne k (s.mapCore (·.call o .pause)) s' o) :
  PausesOne k s s' o
  := by
  constructor
  · apply h.wellFormed
  · apply h.pending
  · exact ⟨h.paused.status, h.paused.finished, h.paused.cancelled, h.paused.row⟩
  · apply h.task
  · apply h.op
  · intro k' hk'
    apply (h.others k' hk').trans
    apply State.view_mapCore
    apply Core.view_call
    apply RecordedAt.taskIdOf_stored hwf hk'.symm ho

/-- The operation had been stopped before, and its task is paused. -/
theorem pausesOne_superCancel (hwf : WellFormed s.toCore) {o : OpRef}
    (ho : s.taskOperationDic.lookup k = some o) (hstopped : ¬ stoppable o s.toCore) :
  PausesOne k s (pauseTail (quiet md5) (s.taskOf o) (s.mapCore (superCancel o))) o
  := by
  apply pausesOne_pauseTail hwf ho
  · apply hwf.superCancel
  · apply Steady.superCancel
  · rfl
  · apply flags_superCancel
  · intro hstoppable
    apply absurd hstoppable hstopped
  · intro k' hk'
    apply State.view_mapCore
    apply Core.view_superCancel
    apply RecordedAt.taskIdOf_stored hwf hk'.symm ho

/-- The task ids were paused one after the other from `s` to `s'`. -/
structure PausesAll (taskIds : List String) (s s' : State) : Prop where
  pending : s'.pending = s.pending
  paused : ∀ k ∈ taskIds, PausedOrLeft s s' k
  others : ∀ k ∉ taskIds, s'.view k = s.view k

theorem PausesAll.cons {taskIds : List String} {s' s'' : State} {o : OpRef}
    (h : PausesAll taskIds s' s'') (hwf : WellFormed s.toCore) (hk : k ∉ taskIds)
    (ho : s.taskOperationDic.lookup k = some o)
    (hfinish : (s.tasks.cell (s.taskOf o)).status ≠ .finish) (hone : PausesOne k s s' o) :
  PausesAll (k :: taskIds) s s''
  := by
  constructor
  · rw [h.pending, hone.pending]
  · intro k' hk'
    by_cases heq : k' = k
    · rw [heq, PausedOrLeft]
      simp only [ho]
      rw [if_neg hfinish]
      apply hone.paused.of_view (h.others k hk) hone.task hone.op
    · have hmem : k' ∈ taskIds := (List.mem_cons.mp hk').resolve_left heq
      apply (h.paused k' hmem).congr hwf (hone.others k' heq)
  · intro k' hk'
    rw [List.mem_cons, not_or] at hk'
    rw [h.others k' hk'.2, hone.others k' hk'.1]

/-- A task id whose task had finished is passed over. -/
theorem PausesAll.pass {taskIds : List String} {s' : State} {o : OpRef}
    (h : PausesAll taskIds s s') (hk : k ∉ taskIds)
    (ho : s.taskOperationDic.lookup k = some o)
    (hfinish : (s.tasks.cell (s.taskOf o)).status = .finish) :
  PausesAll (k :: taskIds) s s'
  := by
  constructor
  · apply h.pending
  · intro k' hk'
    by_cases heq : k' = k
    · rw [heq, PausedOrLeft]
      simp only [ho]
      rw [if_pos hfinish]
      apply h.others k hk
    · apply h.paused k' ((List.mem_cons.mp hk').resolve_left heq)
  · intro k' hk'
    rw [List.mem_cons, not_or] at hk'
    apply h.others k' hk'.2

/-! ### Waiting for the handler -/

/-- The handler returns to a call of `lc_pauseTask:` that was the last to wait, and the loop goes
on. -/
theorem step_returns_lcPauseTask (o : OpRef) (cacheTask : TaskRef) (taskIds : List String) :
  step (quiet md5) (s.mapCore (fun c => (c.call o .pause).await
      (.lcPauseTask o cacheTask taskIds))) (.returns s.pending.length)
    = pauseTasks (quiet md5) taskIds (pauseTail (quiet md5) cacheTask
        (stopTail (quiet md5) .pause o (s.mapCore (·.call o .pause))))
  := by
  have hwaits : (s.mapCore (fun c => (c.call o .pause).await
      (.lcPauseTask o cacheTask taskIds))).pending[s.pending.length]?
        = some (.lcPauseTask o cacheTask taskIds) :=
    List.getElem?_concat_length
  have hpending : (s.pending ++ [Tail.lcPauseTask o cacheTask taskIds]).eraseIdx s.pending.length
      = s.pending := by
    simp [List.eraseIdx_append_of_length_le]
  have hdropped : (s.mapCore (fun c => (c.call o .pause).await
      (.lcPauseTask o cacheTask taskIds))).mapCore (·.dropTail s.pending.length)
        = s.mapCore (·.call o .pause) :=
    congrArg (fun pending => s.mapCore (fun c => { c.call o .pause with pending })) hpending
  rw [step, hwaits]
  simp only
  rw [hdropped, runTail]

/-- `lc_pauseTask:` is called for task ids with operations, and the handler returns as often as it
was called. -/
theorem exists_pausesAll (taskIds : List String) (hwf : WellFormed s.toCore)
    (hids : taskIds.Nodup) (hstored : ∀ k ∈ taskIds, (s.taskOperationDic.lookup k).isSome) :
  ∃ m ≤ taskIds.length, PausesAll taskIds s (Run.final (step (quiet md5))
    (pauseTasks (quiet md5) taskIds s) (List.replicate m (.returns s.pending.length)))
  := by
  induction taskIds generalizing s with
  | nil =>
      refine ⟨0, Nat.le_refl _, ?_⟩
      constructor
      · rfl
      · rintro k ⟨⟩
      · intro k _
        rfl
  | cons k taskIds ih =>
      obtain ⟨hk, hids⟩ := List.nodup_cons.mp hids
      obtain ⟨o, ho⟩ := Option.isSome_iff_exists.mp (hstored k List.mem_cons_self)
      have hcached : s.cache.lookup k = some (s.taskOf o) := hwf.stored k o ho
      -- the loop goes on once the operation was stopped and its task paused
      have hgoOn : ∀ s₁ : State, PausesOne k s s₁ o →
          (s.tasks.cell (s.taskOf o)).status ≠ .finish →
          ∃ m ≤ taskIds.length, PausesAll (k :: taskIds) s (Run.final (step (quiet md5))
            (pauseTasks (quiet md5) taskIds s₁)
            (List.replicate m (.returns s.pending.length))) := by
        intro s₁ hone hfinish
        have hstored₁ : ∀ k' ∈ taskIds, (s₁.taskOperationDic.lookup k').isSome := by
          intro k' hk'
          have hne : k' ≠ k := by
            rintro rfl
            apply hk hk'
          have hview : s₁.taskOperationDic.lookup k' = s.taskOperationDic.lookup k' :=
            congrArg (fun v => v.stored) (hone.others k' hne)
          rw [hview]
          apply hstored k' (List.mem_cons_of_mem k hk')
        obtain ⟨m, hm, hall⟩ := ih hone.wellFormed hids hstored₁
        rw [hone.pending] at hall
        exact ⟨m, hm, hall.cons hwf hk ho hfinish hone⟩
      rw [pauseTasks, hcached]
      simp only
      split
      · next hfinish =>
          obtain ⟨m, hm, hall⟩ := ih hwf hids
            (fun k' hk' => hstored k' (List.mem_cons_of_mem k hk'))
          exact ⟨m, Nat.le_succ_of_le hm, hall.pass hk ho hfinish⟩
      · next hfinish =>
          rw [ho]
          simp only [pause, stop]
          split
          · have hcall : WellFormed (s.mapCore (·.call o .pause)).toCore :=
              hwf.congr rfl rfl rfl rfl rfl
            have hone := (@pausesOne_stopTail k _ md5 hcall o ho).of_call hwf ho
            obtain ⟨m, hm, hall⟩ := hgoOn _ hone hfinish
            refine ⟨m + 1, Nat.succ_le_succ hm, ?_⟩
            rw [List.replicate_succ, Run.final_cons, step_returns_lcPauseTask]
            apply hall
          · split
            · obtain ⟨m, hm, hall⟩ := hgoOn _ (pausesOne_stopTail hwf ho) hfinish
              exact ⟨m, Nat.le_succ_of_le hm, hall⟩
            · next hstopped =>
                obtain ⟨m, hm, hall⟩ := hgoOn _ (pausesOne_superCancel hwf ho hstopped) hfinish
                exact ⟨m, Nat.le_succ_of_le hm, hall⟩

/-- Where nobody waits at the place, a return has no effect. -/
theorem final_returns {i : Nat} (hi : s.pending.length ≤ i) (n : Nat) :
  Run.final (step (quiet md5)) s (List.replicate n (.returns i)) = s
  := by
  induction n with
  | zero => rfl
  | succ n ih =>
      have hnone : step (quiet md5) s (.returns i) = s := by
        rw [step, List.getElem?_eq_none hi]
      rw [List.replicate_succ, Run.final_cons, hnone, ih]

end

/-- In every state of every run `lc_pauseAllTask` pauses the tasks of all operations in
`taskOperationDic` that have not finished, and changes nothing else, once the handler has returned
as often as there are operations. -/
theorem throughout_pausesAll (md5 : Bytes → String) (db : TaskTable) (disk : Disk String Bytes)
    (es : List Event) :
  Run.Throughout (step (quiet md5))
    (fun s => ∀ n, s.taskOperationDic.keys.length ≤ n →
      PausesAll s.taskOperationDic.keys s (Run.final (step (quiet md5)) s
        (.pauseAllTask :: List.replicate n (.returns s.pending.length))))
    (State.initial db disk) es
  := by
  apply (@WellFormed.throughout md5 db disk es).imp
  intro s hwf n hn
  obtain ⟨m, hm, hall⟩ := @exists_pausesAll s md5 s.taskOperationDic.keys hwf
    (AList.keys_nodup _) (fun k hk => AList.lookup_isSome.mpr hk)
  obtain ⟨l, rfl⟩ := Nat.exists_eq_add_of_le (Nat.le_trans hm hn)
  rw [Run.final_cons, List.replicate_add, Run.final_append, step, lcPauseAllTask,
    final_returns (Nat.le_of_eq (congrArg List.length hall.pending))]
  apply hall

/-- Both downloads are paused, whether their operations have been started or not. -/
theorem pausesAll_besideDownload :
  PausesAll ["k", "j"]
    (Run.final (step (quiet fun _ => "")) (State.initial ∅ (fun _ => none)) besideDownload)
    (Run.final (step (quiet fun _ => ""))
      (Run.final (step (quiet fun _ => "")) (State.initial ∅ (fun _ => none)) besideDownload)
      (.pauseAllTask :: List.replicate 2 (.returns 0)))
  := by
  have h := (throughout_pausesAll (fun _ => "") ∅ (fun _ => none) besideDownload).final 2
  apply h
  decide +kernel

end LCCFileService
