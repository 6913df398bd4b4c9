import LCCFileService.FileNet.Tables

/-!
# What a step does to operations and handler calls

From one core to a later one, operations and calls are only added, an operation keeps its
task and its handler, and it stays finished and cancelled once it is.  The relation
`Advance B` says so, and that only operations satisfying `B` have called a transfer method
of the handler.  It is `Steady` if moreover no operation was added and `taskOperationDic`
is as it was.
-/

namespace LCCFileService

open LCFileNetService LCFileNetOperation

/-- From one core to a later one, with new transfers begun by operations satisfying `B`. -/
structure Advance (B : OpRef → Prop) (c₀ c : Core) : Prop where
  ops_le : c₀.ops.next ≤ c.ops.next
  tasks_le : c₀.tasks.next ≤ c.tasks.next
  calls_le : c₀.calls.next ≤ c.calls.next
  task : ∀ o < c₀.ops.next, c.taskOf o = c₀.taskOf o
  finished : ∀ o < c₀.ops.next, (c₀.ops.cell o).finished → (c.ops.cell o).finished
  cancelled : ∀ o < c₀.ops.next, (c₀.ops.cell o).cancelled → (c.ops.cell o).cancelled
  taskId : ∀ r < c₀.tasks.next, (c.tasks.cell r).taskId = (c₀.tasks.cell r).taskId
  op : ∀ r < c₀.calls.next, (c.calls.cell r).op = (c₀.calls.cell r).op
  method : ∀ r < c₀.calls.next, (c.calls.cell r).method = (c₀.calls.cell r).method
  begun : ∀ r < c.calls.next, c₀.calls.next ≤ r → (c.calls.cell r).method.transfers →
    B (c.calls.cell r).op

/-- From one core to a later one without new operations. -/
structure Steady (B : OpRef → Prop) (c₀ c : Core) : Prop extends Advance B c₀ c where
  ops_eq : c.ops.next = c₀.ops.next
  dic_eq : c.taskOperationDic = c₀.taskOperationDic

namespace Advance

variable {B : OpRef → Prop} {c₀ c c' : Core}

theorem trans (h : Advance B c₀ c) (h' : Advance B c c') :
  Advance B c₀ c'
  := by
  constructor
  · apply Nat.le_trans h.ops_le h'.ops_le
  · apply Nat.le_trans h.tasks_le h'.tasks_le
  · apply Nat.le_trans h.calls_le h'.calls_le
  · intro o ho
    rw [h'.task o (Nat.lt_of_lt_of_le ho h.ops_le), h.task o ho]
  · intro o ho hf
    apply h'.finished o (Nat.lt_of_lt_of_le ho h.ops_le) (h.finished o ho hf)
  · intro o ho hc
    apply h'.cancelled o (Nat.lt_of_lt_of_le ho h.ops_le) (h.cancelled o ho hc)
  · intro r hr
    rw [h'.taskId r (Nat.lt_of_lt_of_le hr h.tasks_le), h.taskId r hr]
  · intro r hr
    rw [h'.op r (Nat.lt_of_lt_of_le hr h.calls_le), h.op r hr]
  · intro r hr
    rw [h'.method r (Nat.lt_of_lt_of_le hr h.calls_le), h.method r hr]
  · intro r hr hle
    by_cases hlt : r < c.calls.next
    · rw [h'.op r hlt, h'.method r hlt]
      apply h.begun r hlt hle
    · apply h'.begun r hr (Nat.le_of_not_lt hlt)

/-- More operations may begin transfers. -/
theorem mono {B' : OpRef → Prop} (h : Advance B c₀ c) (hB : ∀ o, B o → B' o) :
  Advance B' c₀ c
  := { h with begun := fun r hr hle ht => hB _ (h.begun r hr hle ht) }

/-- Adding an operation. -/
theorem addOperation (task : TaskRef) (taskId : String) (c : Core) :
  Advance B c (LCFileNetService.addOperation task taskId c)
  := by
  have hcell : ∀ o < c.ops.next,
      (LCFileNetService.addOperation task taskId c).ops.cell o = c.ops.cell o := by
    intro o ho
    apply Heap.cell_alloc_of_lt _ ho
  constructor
  · apply Nat.le_succ
  · apply Nat.le_refl
  · apply Nat.le_refl
  · intro o ho
    rw [Core.taskOf, hcell o ho]
    rfl
  · intro o ho
    rw [hcell o ho]
    exact id
  · intro o ho
    rw [hcell o ho]
    exact id
  · intro r hr
    rfl
  · intro r hr
    rfl
  · intro r hr
    rfl
  · intro r hr hle
    apply absurd hr (Nat.not_lt_of_le hle)

end Advance

/-- What `[super cancel]` and `p_finishOperatioin` set. -/
theorem superCancel_eq (o : OpRef) (c : Core) :
  superCancel o c = (c.setOp o (fun op => { op with
    cancelled := op.cancelled || !op.finished, executing := false, finished := true })).recordStop o
  := by
  have hmodify := Heap.modify_modify o
    (fun op : LCFileNetOperation => { op with cancelled := op.cancelled || !op.finished })
    (fun op => { op with executing := false, finished := true }) c.ops
  exact congrArg (fun ops => { c with ops, stopped := o :: c.stopped }) hmodify

namespace Steady

variable {B : OpRef → Prop} {c₀ c c' : Core}

theorem trans (h : Steady B c₀ c) (h' : Steady B c c') :
  Steady B c₀ c'
  := { h.toAdvance.trans h'.toAdvance with
        ops_eq := h'.ops_eq.trans h.ops_eq
        dic_eq := h'.dic_eq.trans h.dic_eq }

theorem mono {B' : OpRef → Prop} (h : Steady B c₀ c) (hB : ∀ o, B o → B' o) :
  Steady B' c₀ c
  := { h with toAdvance := h.toAdvance.mono hB }

/-! ### Changes of the core -/

/-- Changes that concern neither operations nor calls, and keep task ids. -/
theorem of_eq (htasks : c.tasks.next ≤ c'.tasks.next)
    (hid : ∀ r < c.tasks.next, (c'.tasks.cell r).taskId = (c.tasks.cell r).taskId)
    (hops : c'.ops = c.ops) (hcalls : c'.calls = c.calls)
    (hdic : c'.taskOperationDic = c.taskOperationDic) :
  Steady B c c'
  := by
  constructor
  · constructor
    · rw [hops]
    · apply htasks
    · rw [hcalls]
    · intro o ho
      rw [Core.taskOf, hops]
      rfl
    · intro o ho
      rw [hops]
      exact id
    · intro o ho
      rw [hops]
      exact id
    · apply hid
    · intro r hr
      rw [hcalls]
    · intro r hr
      rw [hcalls]
    · intro r hr hle
      rw [hcalls] at hr
      apply absurd hr (Nat.not_lt_of_le hle)
  · rw [hops]
  · apply hdic

theorem refl (c : Core) :
  Steady B c c
  := of_eq (Nat.le_refl _) (fun _ _ => rfl) rfl rfl rfl

theorem setTask (r : TaskRef) (f : LCFileNetTask → LCFileNetTask) (c : Core) :
  Steady B c (c.setTask r f)
  := of_eq (Nat.le_refl _) (fun r' _ => Core.taskId_setTask r f c r') rfl rfl rfl

theorem setStatus (r : TaskRef) (status : LCFileNetTaskStatus) (c : Core) :
  Steady B c (c.setStatus r status)
  := setTask r (fun t => { t with status }) c

theorem setDb (f : TaskTable → TaskTable) (c : Core) :
  Steady B c (c.setDb f)
  := of_eq (Nat.le_refl _) (fun _ _ => rfl) rfl rfl rfl

theorem allocTask (t : LCFileNetTask) (c : Core) :
  Steady B c (c.allocTask t)
  := by
  apply of_eq
  · apply Nat.le_succ
  · intro r hr
    rw [Core.allocTask, Heap.cell_alloc_of_lt t hr]
  · rfl
  · rfl
  · rfl

theorem pSetTask (task : TaskRef) (key : String) (c : Core) :
  Steady B c (LCFileNetService.pSetTask task key c)
  := of_eq (Nat.le_refl _) (fun _ _ => rfl) rfl rfl rfl

theorem dropTail (i : Nat) (c : Core) :
  Steady B c (c.dropTail i)
  := of_eq (Nat.le_refl _) (fun _ _ => rfl) rfl rfl rfl

theorem await (t : Tail) (c : Core) :
  Steady B c (c.await t)
  := of_eq (Nat.le_refl _) (fun _ _ => rfl) rfl rfl rfl

/-- Setting flags of an operation. -/
theorem setOp {f : LCFileNetOperation → LCFileNetOperation} (htask : ∀ op, (f op).task = op.task)
    (hfinished : ∀ op, op.finished → (f op).finished)
    (hcancelled : ∀ op, op.cancelled → (f op).cancelled) (o : OpRef) (c : Core) :
  Steady B c (c.setOp o f)
  := by
  constructor
  · constructor
    · apply Nat.le_refl
    · apply Nat.le_refl
    · apply Nat.le_refl
    · intro o' ho'
      apply Heap.map_cell_modify LCFileNetOperation.task (htask _)
    · intro o' ho' hf
      rw [Core.setOp, Heap.cell_modify]
      split
      · next heq =>
          subst heq
          apply hfinished _ hf
      · apply hf
    · intro o' ho' hc
      rw [Core.setOp, Heap.cell_modify]
      split
      · next heq =>
          subst heq
          apply hcancelled _ hc
      · apply hc
    · intro r hr
      rfl
    · intro r hr
      rfl
    · intro r hr
      rfl
    · intro r hr hle
      apply absurd hr (Nat.not_lt_of_le hle)
  · rfl
  · rfl

/-- Calling a handler method. -/
theorem call {o : OpRef} {method : HanderMethod} (hB : method.transfers → B o) (c : Core) :
  Steady B c (c.call o method)
  := by
  constructor
  · constructor
    · apply Nat.le_refl
    · apply Nat.le_refl
    · apply Nat.le_succ
    · intro o' ho'
      rfl
    · intro o' ho'
      exact id
    · intro o' ho'
      exact id
    · intro r hr
      rfl
    · intro r hr
      rw [Core.call, Heap.cell_alloc_of_lt _ hr]
    · intro r hr
      rw [Core.call, Heap.cell_alloc_of_lt _ hr]
    · intro r hr hle
      obtain rfl : r = c.calls.next := Nat.le_antisymm (Nat.lt_succ_iff.mp hr) hle
      rw [Core.call, Heap.cell_alloc_next]
      apply hB
  · rfl
  · rfl

/-- Calling a finish block. -/
theorem answer (r : CallRef) (c : Core) :
  Steady B c (c.answer r)
  := by
  have hop := Heap.map_cell_modify HanderCall.op (r := r) (h := c.calls)
    (f := fun call => { call with answered := true }) rfl
  have hmethod := Heap.map_cell_modify HanderCall.method (r := r) (h := c.calls)
    (f := fun call => { call with answered := true }) rfl
  constructor
  · constructor
    · apply Nat.le_refl
    · apply Nat.le_refl
    · apply Nat.le_refl
    · intro o' ho'
      rfl
    · intro o' ho'
      exact id
    · intro o' ho'
      exact id
    · intro r' hr'
      rfl
    · intro r' hr'
      apply hop
    · intro r' hr'
      apply hmethod
    · intro r' hr' hle
      apply absurd hr' (Nat.not_lt_of_le hle)
  · rfl
  · rfl

/-! ### Operations -/

theorem recordStatus (task : TaskRef) (status : LCFileNetTaskStatus) (c : Core) :
  Steady B c (c.recordStatus task status)
  := (setStatus task status c).trans (setDb _ _)

theorem recordSizes (task : TaskRef) (c : Core) :
  Steady B c (c.recordSizes task)
  := setDb _ c

theorem recordFinish (task : TaskRef) (error : Option NSError) (c : Core) :
  Steady B c (c.recordFinish task error)
  := by
  rw [Core.recordFinish]
  split
  · apply (setStatus task .failed c).trans (setDb _ _)
  · apply setDb

theorem pFinishOperatioin (o : OpRef) (c : Core) :
  Steady B c (LCFileNetOperation.pFinishOperatioin o c)
  := by
  apply setOp
  · intro op
    rfl
  · intro op _
    rfl
  · intro op hc
    apply hc

theorem recordStop (o : OpRef) (c : Core) :
  Steady B c (c.recordStop o)
  := of_eq (Nat.le_refl _) (fun _ _ => rfl) rfl rfl rfl

theorem superCancel (o : OpRef) (c : Core) :
  Steady B c (LCFileNetOperation.superCancel o c)
  := by
  have hcancel : Steady B c
      (c.setOp o (fun op => { op with cancelled := op.cancelled || !op.finished })) := by
    apply setOp
    · intro op
      rfl
    · intro op hf
      apply hf
    · intro op hc
      simp [hc]
  apply (hcancel.trans (pFinishOperatioin o _)).trans (recordStop o _)

theorem pStartUpload (o : OpRef) (c : Core) :
  Steady (· = o) c (LCFileNetOperation.pStartUpload o c)
  := by
  rw [LCFileNetOperation.pStartUpload]
  split
  · apply call
    intro _
    rfl
  · apply pFinishOperatioin

theorem pStartDownload (o : OpRef) (c : Core) :
  Steady (· = o) c (LCFileNetOperation.pStartDownload o c)
  := by
  rw [LCFileNetOperation.pStartDownload]
  split
  · apply call
    intro _
    rfl
  · apply pFinishOperatioin

theorem mainTransfer (o : OpRef) (c : Core) :
  Steady (· = o) c (LCFileNetOperation.mainTransfer o c)
  := by
  rw [LCFileNetOperation.mainTransfer]
  split
  · split
    · rw [pResumUpload]
      split
      · apply call
        intro _
        rfl
      · apply refl
    · apply pStartUpload
  · split
    · rw [pResumDownLoad]
      split
      · apply call
        intro _
        rfl
      · apply refl
    · apply pStartDownload
  · apply refl

variable {md5 : Bytes → String}

theorem main (o : OpRef) (s : State) :
  Steady (· = o) s.toCore (LCFileNetOperation.main (quiet md5) o s).toCore
  := by
  rw [toCore_main]
  split
  · apply (mainTransfer o s.toCore).trans (await _ _)
  · apply (mainTransfer o s.toCore).trans (recordStatus _ _ _)

/-- An operation that is started begins a transfer only if it has not been cancelled. -/
theorem start (o : OpRef) (s : State) :
  Steady (fun o' => o' = o ∧ (s.ops.cell o).cancelled = false) s.toCore
    (LCFileNetOperation.start (quiet md5) o s).toCore
  := by
  rw [LCFileNetOperation.start]
  split
  · apply setOp
    · intro op
      rfl
    · intro op _
      rfl
    · intro op hc
      apply hc
  · next hnot =>
      have hexecuting : Steady (· = o) s.toCore
          (s.toCore.setOp o (fun op => { op with executing := true })) := by
        apply setOp
        · intro op
          rfl
        · intro op hf
          apply hf
        · intro op hc
          apply hc
      have hmain := @main md5 o
        (s.mapCore (·.setOp o (fun op => { op with executing := true })))
      apply (hexecuting.trans hmain).mono
      rintro o' rfl
      exact ⟨rfl, by simpa using hnot⟩

theorem stopTail (status : LCFileNetTaskStatus) (o : OpRef) (s : State) :
  Steady B s.toCore (LCFileNetOperation.stopTail (quiet md5) status o s).toCore
  := by
  rw [toCore_stopTail]
  apply (recordStatus _ status s.toCore).trans (superCancel o _)

theorem progressBlock (o : OpRef) (s : State) :
  Steady B s.toCore (LCFileNetOperation.progressBlock (quiet md5) o s).toCore
  := by
  rw [toCore_progressBlock]
  split
  · apply (recordSizes _ s.toCore).trans (pFinishOperatioin o _)
  · apply recordSizes

theorem ended (o : OpRef) (error : Option NSError) (s : State) :
  Steady B s.toCore (LCFileNetOperation.ended (quiet md5) o error s).toCore
  := by
  rw [toCore_ended]
  apply ((recordStatus _ _ s.toCore).trans (recordFinish _ error _)).trans (pFinishOperatioin o _)

/-- A finish block begins a transfer only with an error, and only if it belongs to a resumption
and there is a handler. -/
theorem finishBlock (method : HanderMethod) (o : OpRef) (error : Option NSError) (s : State) :
  Steady (fun o' => o' = o ∧ method.resumes ∧ error.isSome ∧ (s.handerOf o).isSome) s.toCore
    (LCFileNetOperation.finishBlock (quiet md5) method o error s).toCore
  := by
  cases method with
  | upload => apply ended
  | download => apply ended
  | resumUpload =>
      rw [LCFileNetOperation.finishBlock]
      split
      · next herror =>
          rw [State.toCore_mapCore, LCFileNetOperation.pStartUpload]
          split
          · next hhander =>
              apply call
              intro _
              exact ⟨rfl, rfl, herror, hhander⟩
          · apply pFinishOperatioin
      · apply ended
  | resumDownload =>
      rw [LCFileNetOperation.finishBlock]
      split
      · next herror =>
          rw [State.toCore_mapCore, LCFileNetOperation.pStartDownload]
          split
          · next hhander =>
              apply call
              intro _
              exact ⟨rfl, rfl, herror, hhander⟩
          · apply pFinishOperatioin
      · apply ended
  | cancel => apply refl
  | pause => apply refl

/-! ### The service -/

theorem pSetMd5 (task : TaskRef) (c : Core) :
  Steady B c (LCFileNetService.pSetMd5 md5 task c)
  := by
  rw [LCFileNetService.pSetMd5]
  split
  · split
    · apply setTask
    · apply refl
  · apply refl

theorem lcGetTask (taskId : String) (c : Core) :
  Steady B c (LCFileNetService.lcGetTask taskId c)
  := by
  rw [LCFileNetService.lcGetTask]
  split
  · apply refl
  · split
    · next row _ =>
        have halloc : Steady B c (c.allocTask row.object) := allocTask _ c
        simp only
        split
        · apply (halloc.trans (setStatus _ .interrupt _)).trans (pSetTask _ _ _)
        · apply (halloc.trans (setStatus _ .interrupt _)).trans (pSetTask _ _ _)
        · apply halloc.trans (pSetTask _ _ _)
    · apply refl

theorem pauseTail (cacheTask : TaskRef) (s : State) :
  Steady B s.toCore (LCFileNetService.pauseTail (quiet md5) cacheTask s).toCore
  := by
  rw [toCore_pauseTail]
  apply setStatus

/-- Pausing tasks begins no transfer. -/
theorem pauseTasks (taskIds : List String) (s : State) :
  Steady B s.toCore (LCFileNetService.pauseTasks (quiet md5) taskIds s).toCore
  := by
  induction taskIds generalizing s with
  | nil => apply refl
  | cons taskId taskIds ih =>
      rw [LCFileNetService.pauseTasks]
      split
      · apply ih
      · next cacheTask _ =>
          split
          · apply ih
          · split
            · next o _ =>
                rw [LCFileNetOperation.pause, stop]
                split
                · have hcall : Steady B s.toCore (s.toCore.call o .pause) :=
                    call (fun h => by cases h) s.toCore
                  apply hcall.trans (await _ _)
                · split
                  · apply ((stopTail .pause o s).trans (pauseTail cacheTask _)).trans (ih _)
                  · have hstop : Steady B s.toCore (LCFileNetOperation.superCancel o s.toCore) :=
                      superCancel o s.toCore
                    apply hstop.trans
                    apply Steady.trans _ (ih _)
                    apply pauseTail cacheTask (s.mapCore (LCFileNetOperation.superCancel o))
            · apply (pauseTail cacheTask s).trans (ih _)

theorem stop {method : HanderMethod} (hmethod : method.transfers = false)
    (status : LCFileNetTaskStatus) (o : OpRef) (t : Tail) (s : State) :
  Steady B s.toCore (LCFileNetOperation.stop (quiet md5) method status o t id s).toCore
  := by
  rw [LCFileNetOperation.stop]
  split
  · have hcall : Steady B s.toCore (s.toCore.call o method) := by
      apply call
      simp [hmethod]
    apply hcall.trans (await _ _)
  · split
    · apply stopTail
    · apply superCancel

end Steady

/-! ### Added operations -/

namespace LCFileNetService

/-- `p_addTask:queue:` adds nothing for a task of unknown type. -/
theorem pAddTask_unknown {task : TaskRef} {c : Core}
    (htype : (c.tasks.cell task).type = .unknown) :
  pAddTask task c = c
  := by
  rw [pAddTask, htype]

/-- `p_addTask:queue:` adds an operation for a task of another type. -/
theorem pAddTask_eq {task : TaskRef} {c : Core} (htype : (c.tasks.cell task).type ≠ .unknown)
    {taskId : String} (hid : (c.tasks.cell task).taskId = some taskId) :
  pAddTask task c = addOperation task taskId c
  := by
  rw [pAddTask, hid]
  cases h : (c.tasks.cell task).type with
  | unknown => apply absurd h htype
  | upload => rfl
  | download => rfl

/-- `p_addTask:queue:` adds nothing, or an operation for a task of a known type. -/
theorem pAddTask_cases (task : TaskRef) (c : Core) :
  pAddTask task c = c ∨
    ∃ taskId, (c.tasks.cell task).type ≠ .unknown ∧ (c.tasks.cell task).taskId = some taskId ∧
      pAddTask task c = addOperation task taskId c
  := by
  by_cases htype : (c.tasks.cell task).type = .unknown
  · left
    apply pAddTask_unknown htype
  · cases hid : (c.tasks.cell task).taskId with
    | none =>
        left
        rw [pAddTask, hid]
        cases (c.tasks.cell task).type with
        | unknown => rfl
        | upload => rfl
        | download => rfl
    | some taskId =>
        right
        exact ⟨taskId, htype, rfl, pAddTask_eq htype hid⟩

/-- Starting a task adds no operation, or one under a task id that is not cached, or one for
the cached task, which is to be resumed. -/
theorem startChecked_cases {B : OpRef → Prop} {c : Core} {task : TaskRef} {taskId : String}
    (hid : (c.tasks.cell task).taskId = some taskId) :
  Steady B c (c.startChecked task taskId) ∨
    ∃ c₁ r k, Steady B c c₁ ∧ (c₁.tasks.cell r).taskId = some k ∧
      c.startChecked task taskId = addOperation r k c₁ ∧
      (c.cache.lookup k = none ∨
        c₁ = c ∧ c.cache.lookup taskId = some r ∧ resumes (c.tasks.cell r).status ∧
          (c.tasks.cell r).type ≠ .unknown)
  := by
  rw [Core.startChecked]
  cases hcache : c.cache.lookup taskId with
  | some oldTask =>
      simp only
      split
      · next hresumes =>
          obtain heq | ⟨k, htype, hk, heq⟩ := pAddTask_cases oldTask c
          · left
            rw [heq]
            apply Steady.refl
          · right
            exact ⟨c, oldTask, k, Steady.refl c, hk, heq, Or.inr ⟨rfl, rfl, hresumes, htype⟩⟩
      · left
        apply Steady.refl
  | none =>
      have hadd : ∀ {c₁ : Core} {r : TaskRef}, Steady B c c₁ →
          (c₁.tasks.cell r).taskId = some taskId →
          Steady B c (pAddTask r c₁) ∨
            ∃ c₂ r₂ k, Steady B c c₂ ∧ (c₂.tasks.cell r₂).taskId = some k ∧
              pAddTask r c₁ = addOperation r₂ k c₂ ∧
              (c.cache.lookup k = none ∨
                c₂ = c ∧ none = some r₂ ∧ resumes (c.tasks.cell r₂).status ∧
                  (c.tasks.cell r₂).type ≠ .unknown) := by
        intro c₁ r hc₁ hr
        obtain heq | ⟨k, -, hk, heq⟩ := pAddTask_cases r c₁
        · left
          rw [heq]
          apply hc₁
        · right
          obtain rfl := Option.some.inj (hr.symm.trans hk)
          exact ⟨c₁, r, taskId, hc₁, hk, heq, Or.inl hcache⟩
      cases hrow : LCFileTaskDB.lcGetTaskByTaskId taskId c.db with
      | none =>
          have hsaved := (Steady.pSetTask (B := B) task taskId c).trans
            (Steady.setDb (LCFileTaskDB.lcSaveTask (c.tasks.cell task)) _)
          apply hadd hsaved hid
      | some row =>
          have hrowId : row.taskId = taskId := LCFileTaskDB.taskId_of_get hrow
          have hset := (Steady.allocTask (B := B) row.object c).trans
            (Steady.pSetTask c.tasks.next row.taskId _)
          have hsetId : ((pSetTask c.tasks.next row.taskId
              (c.allocTask row.object)).tasks.cell c.tasks.next).taskId = some taskId := by
            rw [← hrowId, pSetTask, Core.allocTask, Heap.cell_alloc_next]
            rfl
          have hinterrupt := hset.trans (Steady.setStatus c.tasks.next .interrupt _)
          simp only
          split
          · left
            apply hset
          · apply hadd hinterrupt
            rw [Core.setStatus, Core.taskId_setTask]
            apply hsetId
          · apply hadd hinterrupt
            rw [Core.setStatus, Core.taskId_setTask]
            apply hsetId
          · apply hadd hset hsetId

/-! ### Cancelled tasks -/

/-- A cancelled operation is finished. -/
theorem finished_superCancel (o : OpRef) (c : Core) :
  ((superCancel o c).ops.cell o).finished
  := by
  simp [superCancel, pFinishOperatioin, Core.setOp, Core.recordStop]

/-- Cancelling a task waits for the handler, or takes the task out of the tables when its
operation is finished. -/
theorem lcCancelTask_cases {B : OpRef → Prop} {md5 : Bytes → String} (taskId : String)
    (s : State) :
  Steady B s.toCore (lcCancelTask (quiet md5) taskId s).toCore ∨
    ∃ c, Steady B s.toCore c ∧ (lcCancelTask (quiet md5) taskId s).toCore = c.forget taskId ∧
      ∀ o, s.taskOperationDic.lookup taskId = some o → (c.ops.cell o).finished
  := by
  rw [lcCancelTask]
  split
  · left
    apply Steady.refl
  · next cacheTask hcache =>
      split
      · left
        apply Steady.refl
      · split
        · next o ho =>
            rw [LCFileNetOperation.cancel, stop]
            split
            · left
              have hcall : Steady B s.toCore (s.toCore.call o .cancel) := by
                apply Steady.call
                intro h
                cases h
              apply hcall.trans (Steady.await _ _)
            · right
              split
              · rw [toCore_cancelTail]
                refine ⟨_, (Steady.stopTail .canceled o s).trans (Steady.setStatus _ _ _), rfl, ?_⟩
                intro o' ho'
                obtain rfl := Option.some.inj (ho.symm.trans ho')
                rw [toCore_stopTail]
                apply finished_superCancel
              · rw [toCore_cancelTail]
                refine ⟨_, (Steady.superCancel o s.toCore).trans (Steady.setStatus _ _ _), rfl, ?_⟩
                intro o' ho'
                obtain rfl := Option.some.inj (ho.symm.trans ho')
                apply finished_superCancel
        · next ho =>
            right
            rw [toCore_cancelTail]
            refine ⟨_, Steady.setStatus _ _ _, rfl, ?_⟩
            intro o ho'
            cases ho.symm.trans ho'

end LCFileNetService

namespace Advance

variable {B : OpRef → Prop} {c : Core} {s : State} {md5 : Bytes → String}

theorem forget (taskId : String) (c : Core) :
  Advance B c (c.forget taskId)
  := by
  have h : Steady B c { c.forget taskId with taskOperationDic := c.taskOperationDic } :=
    Steady.of_eq (Nat.le_refl _) (fun _ _ => rfl) rfl rfl rfl
  exact { h with }

theorem startTask (task : TaskRef) (c : Core) :
  Advance B c (c.startTask md5 task)
  := by
  rw [Core.startTask]
  split
  · next taskId hid =>
      split
      · have hmd5 := @Steady.pSetMd5 B md5 task c
        apply hmd5.toAdvance.trans
        have hid' : ((pSetMd5 md5 task c).tasks.cell task).taskId = some taskId := by
          rw [taskId_pSetMd5]
          apply hid
        obtain h | ⟨c₁, r, k, h, -, heq, -⟩ := startChecked_cases (B := B) hid'
        · apply h.toAdvance
        · rw [heq]
          apply h.toAdvance.trans (addOperation r k c₁)
      · apply (Steady.refl c).toAdvance
  · apply (Steady.refl c).toAdvance

theorem lcResumTask (taskId : String) (s : State) :
  Advance B s.toCore (LCFileNetService.lcResumTask (quiet md5) taskId s).toCore
  := by
  rw [LCFileNetService.lcResumTask]
  split
  · split
    · apply (Steady.refl s.toCore).toAdvance
    · rw [toCore_lcStartTask]
      apply startTask
  · apply (Steady.refl s.toCore).toAdvance

theorem lcCancelTask (taskId : String) (s : State) :
  Advance B s.toCore (LCFileNetService.lcCancelTask (quiet md5) taskId s).toCore
  := by
  obtain h | ⟨c, h, heq, -⟩ := @lcCancelTask_cases B md5 taskId s
  · apply h.toAdvance
  · rw [heq]
    apply h.toAdvance.trans (forget taskId c)

end Advance

/-! ### Steps -/

/-- A tail other than the end of a cancellation adds and takes out no operation. -/
theorem Steady.runTail {B : OpRef → Prop} {md5 : Bytes → String} {t : Tail}
    (ht : ∀ o taskId cacheTask, t ≠ .lcCancelTask o taskId cacheTask) (s : State) :
  Steady B s.toCore (LCFileNetService.runTail (quiet md5) t s).toCore
  := by
  cases t with
  | main o =>
      rw [LCFileNetService.runTail, toCore_pNotifyStart]
      apply recordStatus
  | cancel o => apply stopTail
  | pause o => apply stopTail
  | lcCancelTask o taskId cacheTask => apply absurd rfl (ht o taskId cacheTask)
  | lcPauseTask o cacheTask taskIds =>
      rw [LCFileNetService.runTail]
      apply ((stopTail .pause o s).trans (pauseTail cacheTask _)).trans (pauseTasks taskIds _)

/-- The operation `o` may begin a transfer when the event happens in the core. -/
def Begins (c : Core) : Event → OpRef → Prop
  | .opStart o', o => o = o' ∧ (c.ops.cell o).started = false ∧ (c.ops.cell o).cancelled = false
  | .finish r error, o =>
      o = (c.calls.cell r).op ∧ r < c.calls.next ∧ (c.calls.cell r).method.resumes ∧
        error.isSome ∧ (c.handerOf o).isSome
  | _, _ => False

/-- The events that may add an operation or take one out of `taskOperationDic`. -/
inductive Enlists (s : State) : Event → Prop where
  | startTask (task : TaskRef) : Enlists s (.startTask task)
  | resumTask (taskId : String) : Enlists s (.resumTask taskId)
  | cancelTask (taskId : String) : Enlists s (.cancelTask taskId)
  | returns {i : Nat} {o : OpRef} {taskId : String} {cacheTask : TaskRef}
      (h : s.pending[i]? = some (.lcCancelTask o taskId cacheTask)) : Enlists s (.returns i)
  | restart : Enlists s .restart

/-- The other events neither add an operation nor take one out, and transfers are begun by the
operation that is started, or by the resumed operation whose call fails. -/
theorem Steady.step {md5 : Bytes → String} {s : State} {e : Event} (he : ¬ Enlists s e) :
  Steady (Begins s.toCore e) s.toCore (LCCFileService.step (quiet md5) s e).toCore
  := by
  cases e with
  | create t => apply allocTask
  | set task t =>
      rw [LCCFileService.step]
      split
      · apply setTask
      · apply refl
  | startTask task => apply absurd (.startTask task) he
  | resumTask taskId => apply absurd (.resumTask taskId) he
  | pauseTask taskId => apply pauseTasks
  | pauseAllTask => apply pauseTasks
  | cancelTask taskId => apply absurd (.cancelTask taskId) he
  | getTask taskId => apply lcGetTask
  | updatetask key filePath => apply setDb
  | opStart o =>
      rw [LCCFileService.step]
      split
      · next hguard =>
          have hstarted : Steady (Begins s.toCore (.opStart o)) s.toCore
              (s.toCore.setOp o (fun op => { op with started := true })) := by
            apply setOp
            · intro op
              rfl
            · intro op hf
              apply hf
            · intro op hc
              apply hc
          have hstart := @start md5 o
            (s.mapCore (·.setOp o (fun op => { op with started := true })))
          apply hstarted.trans
          apply hstart.mono
          rintro o' ⟨rfl, hnot⟩
          simpa [Begins, Core.setOp, hguard.2] using hnot
      · apply refl
  | opCancel o =>
      rw [LCCFileService.step]
      split
      · apply stop rfl
      · apply refl
  | opPause o =>
      rw [LCCFileService.step]
      split
      · apply stop rfl
      · apply refl
  | returns i =>
      rw [LCCFileService.step]
      split
      · next t ht =>
          apply (dropTail i s.toCore).trans
          apply runTail _ (s.mapCore (·.dropTail i))
          rintro o taskId cacheTask rfl
          apply he (.returns ht)
      · apply refl
  | progress r =>
      rw [LCCFileService.step]
      split
      · apply progressBlock
      · apply refl
  | finish r error =>
      rw [LCCFileService.step]
      split
      · next hr =>
          have hfinish := @finishBlock md5 (s.calls.cell r).method (s.calls.cell r).op error
            (s.mapCore (·.answer r))
          apply (answer r s.toCore).trans
          apply hfinish.mono
          rintro o' ⟨rfl, hresumes, herror, hhander⟩
          exact ⟨rfl, hr, hresumes, herror, hhander⟩
      · apply refl
  | addHander hander => exact of_eq (Nat.le_refl _) (fun _ _ => rfl) rfl rfl rfl
  | deallocHander hander => exact of_eq (Nat.le_refl _) (fun _ _ => rfl) rfl rfl rfl
  | addObserver o => apply refl
  | find finder => apply refl
  | edit path content => exact of_eq (Nat.le_refl _) (fun _ _ => rfl) rfl rfl rfl
  | restart => apply absurd .restart he

/-- Operations and calls are only added as long as the process lives, and transfers are begun
only as `Begins` says. -/
theorem Advance.step {md5 : Bytes → String} (s : State) {e : Event} (he : e ≠ .restart) :
  Advance (Begins s.toCore e) s.toCore (LCCFileService.step (quiet md5) s e).toCore
  := by
  by_cases henlists : Enlists s e
  · cases henlists with
    | startTask task =>
        rw [LCCFileService.step]
        split
        · rw [toCore_lcStartTask]
          apply startTask
        · apply (Steady.refl s.toCore).toAdvance
    | resumTask taskId => apply lcResumTask
    | cancelTask taskId => apply lcCancelTask
    | @returns i o taskId cacheTask h =>
        rw [LCCFileService.step, h]
        have hstop := @Steady.stopTail (Begins s.toCore (.returns i)) md5 .canceled o
          (s.mapCore (·.dropTail i))
        apply (Steady.dropTail i s.toCore).toAdvance.trans
        simp only [LCFileNetService.runTail, toCore_cancelTail]
        apply (hstop.trans (Steady.setStatus cacheTask .canceled _)).toAdvance.trans
        apply forget
    | restart => apply absurd rfl he
  · apply (Steady.step henlists).toAdvance

end LCCFileService
