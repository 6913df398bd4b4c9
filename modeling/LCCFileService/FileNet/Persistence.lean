import LCCFileService.FileNet.Records
import LCCFileService.FileNet.Successes

/-!
# Persistent tasks

A task that has a row when the process starts keeps it, through all runs and further processes,
until it is cancelled.  Its row, the task cached for it and the tasks of its operations stay about
the same file, whatever tasks with its task id the application starts, as long as nobody sets the
properties of its task objects to others.
-/

namespace LCCFileService

open LCFileNetService LCFileNetOperation

/-- The columns that say which file a task is about, and which way it goes. -/
def LCFileNetTaskFields.identity (t : LCFileNetTaskFields) :
    Option String × LCFileNetTaskType × Option String × Option String :=
  (t.fileKey, t.type, t.way, t.fileName)

/-- The row of the task id, its cached task and the tasks of its operations have the identity. -/
structure Identified (k : String)
    (i : Option String × LCFileNetTaskType × Option String × Option String) (c : Core) : Prop where
  onRecord : OnRecord (fun t => t.identity = i) k c
  operated : ∀ o < c.ops.next, c.taskIdOf o = some k →
    (c.tasks.cell (c.taskOf o)).identity = i

/-- The event does not set the properties of a task with the task id to those of another identity.
-/
def KeepsIdentity (k : String) (s : State) : Event → Prop
  | .set r t => (s.tasks.cell r).taskId = some k → t.identity = (s.tasks.cell r).identity
  | _ => True

/-! ### The identity of task objects -/

section

variable {md5 : Bytes → String} {c c' : Core} {s : State}

/-- Task objects keep their identity. -/
def SameIdentities (c c' : Core) : Prop :=
  c.tasks.next ≤ c'.tasks.next ∧
    ∀ r < c.tasks.next, (c'.tasks.cell r).identity = (c.tasks.cell r).identity

theorem SameIdentities.of_eq (htasks : c'.tasks = c.tasks) :
  SameIdentities c c'
  := by
  rw [SameIdentities, htasks]
  exact ⟨Nat.le_refl _, fun _ _ => rfl⟩

theorem SameIdentities.trans {c'' : Core} (h : SameIdentities c c')
    (h' : SameIdentities c' c'') :
  SameIdentities c c''
  := by
  refine ⟨Nat.le_trans h.1 h'.1, ?_⟩
  intro r hr
  rw [h'.2 r (Nat.lt_of_lt_of_le hr h.1), h.2 r hr]

theorem SameIdentities.setTask {r : TaskRef} {f : LCFileNetTask → LCFileNetTask}
    (hf : (f (c.tasks.cell r)).identity = (c.tasks.cell r).identity) :
  SameIdentities c (c.setTask r f)
  := by
  refine ⟨Nat.le_refl _, ?_⟩
  intro r' _
  apply Core.map_setTask (fun t => t.identity) hf

theorem SameIdentities.allocTask (t : LCFileNetTask) (c : Core) :
  SameIdentities c (c.allocTask t)
  := by
  refine ⟨Nat.le_succ _, ?_⟩
  intro r hr
  rw [Core.allocTask, Heap.cell_alloc_of_lt _ hr]

theorem SameIdentities.changes {F : String → Prop} (hchanges : Changes F c c') :
  SameIdentities c c'
  := by
  induction hchanges with
  | refl => exact of_eq rfl
  | tail _ hchange ih =>
      apply ih.trans
      cases hchange with
      | allocTask t => apply allocTask
      | load hrow hcache => exact (allocTask _ _).trans (of_eq rfl)
      | setMd5 r md5 => exact setTask rfl
      | setStatus r status => exact setTask rfl
      | recordStatus r status =>
          exact (setTask (f := fun t => { t with status }) rfl).trans (of_eq rfl)
      | _ => exact of_eq rfl

/-- Calls, and properties of operations, are no properties of tasks. -/
theorem SameIdentities.sameTables (hsame : SameTables c c') :
  SameIdentities c c'
  := by
  obtain ⟨ops, calls, rfl, -⟩ := hsame
  exact of_eq rfl

theorem SameIdentities.start (o : OpRef) :
  SameIdentities s.toCore (LCFileNetOperation.start (quiet md5) o s).toCore
  := by
  rw [LCFileNetOperation.start]
  split
  · exact of_eq rfl
  · have hexecuting : SameIdentities s.toCore
        (s.toCore.setOp o (fun op => { op with executing := true })) := of_eq rfl
    have hmain := hexecuting.trans (sameTables (SameTables.mainTransfer o _))
    rw [toCore_main]
    split
    · exact hmain.trans (of_eq rfl)
    · exact hmain.trans ((setTask (f := fun t => { t with status := .progress }) rfl).trans
        (of_eq rfl))

theorem SameIdentities.finishBlock (method : HanderMethod) (o : OpRef) (error : Option NSError) :
  SameIdentities s.toCore (LCFileNetOperation.finishBlock (quiet md5) method o error s).toCore
  := by
  by_cases hends : method.Ends error
  · rw [finishBlock_ends hends, toCore_ended_outcome]
    exact (setTask (f := fun t => { t with status := outcome error }) rfl).trans (of_eq rfl)
  · apply sameTables (finishBlock_not_ends hends _ _ _)

/-- Nobody but the application and the handler changes the identity of a task object. -/
theorem SameIdentities.step {e : Event} (hset : ∀ r t, e ≠ .set r t) (he : e ≠ .restart) :
  SameIdentities s.toCore (LCCFileService.step (quiet md5) s e).toCore
  := by
  cases e with
  | set r t => apply absurd rfl (hset r t)
  | updatetask key filePath => exact of_eq rfl
  | opStart o =>
      rw [LCCFileService.step]
      split
      · have hstarted : SameIdentities s.toCore (s.mapCore (·.setOp o
            (fun op => { op with started := true }))).toCore := of_eq rfl
        apply hstarted.trans (start o)
      · exact of_eq rfl
  | progress r =>
      rw [LCCFileService.step]
      split
      · rw [toCore_progressBlock]
        split
        · exact of_eq rfl
        · exact of_eq rfl
      · exact of_eq rfl
  | finish r error =>
      rw [LCCFileService.step]
      split
      · have hanswered : SameIdentities s.toCore (s.mapCore (·.answer r)).toCore := of_eq rfl
        apply hanswered.trans (finishBlock _ _ _)
      · exact of_eq rfl
  | restart => apply absurd rfl he
  | _ => apply changes (Changes.step s rfl)

/-- A task with the task id keeps its identity if the event keeps it. -/
theorem identity_step {k : String} {e : Event} (hkeeps : KeepsIdentity k s e) (he : e ≠ .restart)
    {r : TaskRef} (hr : r < s.tasks.next) (hid : (s.tasks.cell r).taskId = some k) :
  ((LCCFileService.step (quiet md5) s e).tasks.cell r).identity = (s.tasks.cell r).identity
  := by
  by_cases hset : ∃ r' t, e = .set r' t
  · obtain ⟨r', t, rfl⟩ := hset
    rw [step]
    split
    · rw [State.toCore_mapCore, Core.setTask, Heap.cell_modify]
      split
      · next heq =>
          rw [heq] at hid ⊢
          apply hkeeps hid
      · rfl
    · rfl
  · apply (SameIdentities.step (fun r' t heq => hset ⟨r', t, heq⟩) he).2 r hr

/-! ### New operations -/

/-- An operation added when a task is started is stored under its task id. -/
theorem stored_startTask {task : TaskRef} {o : OpRef} {k : String}
    (ho : o < (c.startTask md5 task).ops.next) (hnew : c.ops.next ≤ o)
    (hid : (c.startTask md5 task).taskIdOf o = some k) :
  (c.startTask md5 task).taskOperationDic.lookup k = some o
  := by
  by_cases hchecked : ∃ taskId, (c.tasks.cell task).taskId = some taskId ∧ pCheckTask task c
  · obtain ⟨taskId, htask, hcheck⟩ := hchecked
    have hstart : c.startTask md5 task = (pSetMd5 md5 task c).startChecked task taskId := by
      rw [Core.startTask, htask]
      apply if_pos hcheck
    have hmd5 : Steady (fun _ => False) c (pSetMd5 md5 task c) := Steady.pSetMd5 task c
    rw [← @taskId_pSetMd5 md5 task c] at htask
    rw [hstart] at ho hid ⊢
    obtain hsteady | ⟨c₁, r, k₁, hsteady, hr, heq, -⟩ :=
      startChecked_cases (B := fun _ => False) htask
    · rw [hsteady.ops_eq, hmd5.ops_eq] at ho
      apply absurd ho (Nat.not_lt_of_le hnew)
    · rw [heq] at ho hid ⊢
      -- the only new operation is the one that is added
      obtain rfl : o = c₁.ops.next := by
        apply Nat.le_antisymm (Nat.lt_succ_iff.mp ho)
        rw [hsteady.ops_eq, hmd5.ops_eq]
        apply hnew
      rw [Core.taskIdOf, Core.taskOf, addOperation, Heap.cell_alloc_next] at hid
      obtain rfl := Option.some.inj (hr.symm.trans hid)
      rw [addOperation, Dictionary.lookup_insert, if_pos rfl]
  · have hstart : c.startTask md5 task = c := by
      rw [Core.startTask]
      split
      · next taskId htask => apply if_neg (fun hcheck => hchecked ⟨taskId, htask, hcheck⟩)
      · rfl
    rw [hstart] at ho
    apply absurd ho (Nat.not_lt_of_le hnew)

/-- A task is resumed by starting it, if it is. -/
theorem lcResumTask_cases (taskId : String) (s : State) :
  (lcResumTask (quiet md5) taskId s).ops.next = s.ops.next ∨
    ∃ (c : Core) (task : TaskRef), c.ops.next = s.ops.next ∧
      (lcResumTask (quiet md5) taskId s).toCore = c.startTask md5 task
  := by
  rw [lcResumTask]
  split
  · next task _ =>
      split
      · apply Or.inl rfl
      · right
        exact ⟨s.toCore, task, rfl, toCore_lcStartTask task s⟩
  · split
    · next row _ =>
        simp only
        split
        · apply Or.inl rfl
        · right
          exact ⟨s.toCore.allocTask row.object, s.tasks.next, rfl, toCore_lcStartTask _ _⟩
    · apply Or.inl rfl

/-- An operation added by a step is stored under its task id. -/
theorem stored_of_new {e : Event} (he : e ≠ .restart) {o : OpRef} {k : String}
    (ho : o < (LCCFileService.step (quiet md5) s e).ops.next) (hnew : s.ops.next ≤ o)
    (hid : (LCCFileService.step (quiet md5) s e).taskIdOf o = some k) :
  (LCCFileService.step (quiet md5) s e).taskOperationDic.lookup k = some o
  := by
  have hnone : (LCCFileService.step (quiet md5) s e).ops.next = s.ops.next →
      (LCCFileService.step (quiet md5) s e).taskOperationDic.lookup k = some o := by
    intro hops
    rw [hops] at ho
    apply absurd ho (Nat.not_lt_of_le hnew)
  by_cases henlists : Enlists s e
  · cases henlists with
    | startTask task =>
        by_cases hlt : task < s.tasks.next
        · have hstart : (LCCFileService.step (quiet md5) s (.startTask task)).toCore
              = s.toCore.startTask md5 task := by
            rw [LCCFileService.step, if_pos hlt, toCore_lcStartTask]
          rw [hstart] at ho hid ⊢
          apply stored_startTask ho hnew hid
        · apply hnone
          rw [LCCFileService.step, if_neg hlt]
    | resumTask taskId =>
        rw [LCCFileService.step] at ho hid hnone ⊢
        obtain hops | ⟨c₁, task, hops, heq⟩ := @lcResumTask_cases md5 taskId s
        · apply hnone hops
        · rw [heq] at ho hid ⊢
          rw [← hops] at hnew
          apply stored_startTask ho hnew hid
    | cancelTask taskId =>
        apply hnone
        obtain hsteady | ⟨c, hsteady, heq, -⟩ :=
          @lcCancelTask_cases (fun _ => False) md5 taskId s
        · apply hsteady.ops_eq
        · rw [LCCFileService.step, heq]
          apply hsteady.ops_eq
    | @returns i o' taskId cacheTask h =>
        apply hnone
        have hstop := @Steady.stopTail (fun _ => False) md5 .canceled o'
          (s.mapCore (·.dropTail i))
        rw [LCCFileService.step, h]
        simp only [LCFileNetService.runTail, toCore_cancelTail]
        apply hstop.ops_eq
    | restart => apply absurd rfl he
  · apply hnone (Steady.step henlists).ops_eq

/-! ### Steps -/

/-- Neither the MD5 nor the status says which file a task is about. -/
theorem lasting_identity (i : Option String × LCFileNetTaskType × Option String × Option String) :
  Lasting (fun t => t.identity = i)
  := fun _ _ _ => Iff.rfl

namespace Identified

variable {k : String} {i : Option String × LCFileNetTaskType × Option String × Option String}

/-- What an event writes to the row and to the cached task of the task id has the identity, if the
event keeps the identity of tasks. -/
theorem keepsRecord (h : Identified k i s.toCore) (hwf : WellFormed s.toCore)
    (hcalls : CallsOwned s.toCore) {e : Event} (hkeeps : KeepsIdentity k s e) :
  KeepsRecord (fun t => t.identity = i) k s e
  := by
  have hrow : ∀ row ∈ s.db.get k, row.identity = i := by
    obtain ⟨row, hrow, hi⟩ := h.onRecord.row
    rintro row' hrow'
    obtain rfl := Option.some.inj (hrow.symm.trans hrow')
    apply hi
  cases e with
  | set r t =>
      intro hr
      rw [hkeeps (hwf.cached k r hr).1]
      apply (h.onRecord.cached r hr).2
  | updatetask key filePath =>
      rintro - row hrow'
      apply hrow row hrow'
  | progress r =>
      rintro - - row hrow'
      apply hrow row hrow'
  | finish r error =>
      rintro ⟨hr, hends⟩ hid
      apply h.operated _ (hcalls r hr hends.1) hid
  | _ => trivial

/-- A step by which the task id is not forgotten keeps the identity, if its event does. -/
theorem step (h : Identified k i s.toCore) (hwf : WellFormed s.toCore)
    (hcalls : CallsOwned s.toCore) {e : Event} (hforgets : ¬ Forgets s k e)
    (hkeeps : KeepsIdentity k s e) :
  Identified k i (LCCFileService.step (quiet md5) s e).toCore
  := by
  have honRecord : OnRecord (fun t => t.identity = i) k
      (LCCFileService.step (quiet md5) s e).toCore :=
    (h.onRecord.step_iff (lasting_identity i) hforgets).mpr (h.keepsRecord hwf hcalls hkeeps)
  refine ⟨honRecord, ?_⟩
  by_cases he : e = .restart
  · subst he
    rintro o ⟨⟩
  · intro o ho hid
    by_cases hold : o < s.ops.next
    · -- the operation keeps its task, and the task its identity
      have hadvance := @Advance.step md5 s e he
      have htask := hwf.owned o hold
      rw [Core.taskIdOf, hadvance.task o hold, hadvance.taskId _ htask] at hid
      rw [hadvance.task o hold, identity_step hkeeps he htask hid]
      apply h.operated o hold hid
    · -- the task of a new operation is the one that is cached
      have hstored := stored_of_new he ho (Nat.le_of_not_lt hold) hid
      have hcached := (hwf.step e).stored k o hstored
      apply (honRecord.cached _ hcached).2

end Identified

end

end LCCFileService
