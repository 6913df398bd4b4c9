import LCCFileService.FileNet.Changes

/-!
# What is on record of a task

A task id has a row, and may have a cached task, which was read from the row or saved in it.
A property of the columns that depends neither on the MD5 nor on the status is on record if
both have it.  The service by itself keeps it so.  It is lost exactly when the properties of
the cached task are set to others without it, when a path or sizes without it are written to
the row, or when an operation that ends saves a task without it.
-/

namespace LCCFileService

open LCFileNetService LCFileNetOperation

/-- The row of the task id and its cached task, if there is one, have the property. -/
structure OnRecord (Q : LCFileNetTaskFields → Prop) (k : String) (c : Core) : Prop where
  row : ∃ row, c.db.get k = some row ∧ Q row.toLCFileNetTaskFields
  cached : ∀ r, c.cache.lookup k = some r →
    r < c.tasks.next ∧ Q (c.tasks.cell r).toLCFileNetTaskFields

/-- The property depends neither on the MD5 nor on the status. -/
def Lasting (Q : LCFileNetTaskFields → Prop) : Prop :=
  ∀ (t : LCFileNetTaskFields) (md5 : Option String) (status : LCFileNetTaskStatus),
    Q { t with md5, status } ↔ Q t

/-- What the event writes to the row and to the cached task of the task id has the property. -/
def KeepsRecord (Q : LCFileNetTaskFields → Prop) (k : String) (s : State) : Event → Prop
  | .set r t => s.cache.lookup k = some r → Q t.toLCFileNetTaskFields
  | .updatetask key filePath =>
      key = k → ∀ row ∈ s.db.get k, Q { row.toLCFileNetTaskFields with filePath }
  | .progress r =>
      r < s.calls.next ∧ (s.calls.cell r).method.transfers →
        s.taskIdOf (s.calls.cell r).op = some k → ∀ row ∈ s.db.get k,
          Q { row.toLCFileNetTaskFields with
            finishedSize := (s.tasks.cell (s.taskOf (s.calls.cell r).op)).finishedSize
            totalSize := (s.tasks.cell (s.taskOf (s.calls.cell r).op)).totalSize }
  | .finish r error =>
      r < s.calls.next ∧ (s.calls.cell r).method.Ends error →
        s.taskIdOf (s.calls.cell r).op = some k →
          Q (s.tasks.cell (s.taskOf (s.calls.cell r).op)).toLCFileNetTaskFields
  | _ => True

namespace OnRecord

variable {Q : LCFileNetTaskFields → Prop} {k : String} {c c' : Core}

/-! ### Changes of the core -/

/-- Changes of neither tasks, rows nor the cache. -/
theorem of_eq (h : OnRecord Q k c) (htasks : c'.tasks = c.tasks) (hdb : c'.db = c.db)
    (hcache : c'.cache = c.cache) :
  OnRecord Q k c'
  := by
  constructor
  · rw [hdb]
    apply h.row
  · rw [hcache, htasks]
    apply h.cached

theorem sameTables (h : OnRecord Q k c) (hsame : SameTables c c') :
  OnRecord Q k c'
  := by
  obtain ⟨ops, calls, rfl, -⟩ := hsame
  exact h.of_eq rfl rfl rfl

theorem allocTask (h : OnRecord Q k c) (t : LCFileNetTask) :
  OnRecord Q k (c.allocTask t)
  := by
  refine ⟨h.row, ?_⟩
  intro r hr
  obtain ⟨hlt, hQ⟩ := h.cached r hr
  rw [Core.allocTask, Heap.cell_alloc_of_lt _ hlt]
  exact ⟨Nat.lt_succ_of_lt hlt, hQ⟩

/-- Properties of a task are set that the property does not depend on. -/
theorem setTask (h : OnRecord Q k c) (r : TaskRef) {f : LCFileNetTask → LCFileNetTask}
    (hf : Q (c.tasks.cell r).toLCFileNetTaskFields →
      Q (f (c.tasks.cell r)).toLCFileNetTaskFields) :
  OnRecord Q k (c.setTask r f)
  := by
  refine ⟨h.row, ?_⟩
  intro r' hr'
  obtain ⟨hlt, hQ⟩ := h.cached r' hr'
  refine ⟨hlt, ?_⟩
  rw [Core.setTask, Heap.cell_modify]
  split
  · next heq =>
      rw [heq] at hQ
      apply hf hQ
  · apply hQ

/-- Columns of rows are set that the property does not depend on. -/
theorem updateTask (h : OnRecord Q k c) (taskId : Option String)
    {f : LCFileNetTaskFields → LCFileNetTaskFields} (hf : ∀ t, Q t → Q (f t)) :
  OnRecord Q k (c.setDb (LCFileTaskDB.updateTask taskId f))
  := by
  refine ⟨?_, h.cached⟩
  obtain ⟨row, hrow, hQ⟩ := h.row
  rw [Core.setDb, LCFileTaskDB.get_updateTask, hrow]
  split
  · exact ⟨_, rfl, hf _ hQ⟩
  · exact ⟨row, rfl, hQ⟩

/-! ### Writes -/

variable {md5 : Bytes → String} {s : State}

theorem recordSizes_iff (h : OnRecord Q k c) (r : TaskRef) :
  OnRecord Q k (c.recordSizes r) ↔ ((c.tasks.cell r).taskId = some k → ∀ row ∈ c.db.get k,
    Q { row.toLCFileNetTaskFields with
      finishedSize := (c.tasks.cell r).finishedSize
      totalSize := (c.tasks.cell r).totalSize })
  := by
  obtain ⟨row, hrow, hrowQ⟩ := h.row
  have hget : (c.recordSizes r).db.get k = if (c.tasks.cell r).taskId = some k then
      some { row with
        finishedSize := (c.tasks.cell r).finishedSize
        totalSize := (c.tasks.cell r).totalSize }
      else some row := by
    rw [Core.recordSizes, Core.setDb, LCFileTaskDB.lcUpdateTaskFinishedSize,
      LCFileTaskDB.get_updateTask, hrow]
    rfl
  constructor
  · intro h' hid row' hrow'
    rw [hrow] at hrow'
    obtain rfl := Option.some.inj hrow'
    obtain ⟨row', hrow', hQ'⟩ := h'.row
    rw [hget, if_pos hid] at hrow'
    obtain rfl := Option.some.inj hrow'
    apply hQ'
  · intro hsizes
    refine ⟨?_, h.cached⟩
    rw [hget]
    split
    · next hid => exact ⟨_, rfl, hsizes hid row hrow⟩
    · exact ⟨row, rfl, hrowQ⟩

/-- A progress report keeps the property on record exactly if the sizes that are written to the row
keep it. -/
theorem progressBlock_iff (h : OnRecord Q k s.toCore) (o : OpRef) :
  OnRecord Q k (LCFileNetOperation.progressBlock (quiet md5) o s).toCore ↔
    (s.taskIdOf o = some k → ∀ row ∈ s.db.get k,
      Q { row.toLCFileNetTaskFields with
        finishedSize := (s.tasks.cell (s.taskOf o)).finishedSize
        totalSize := (s.tasks.cell (s.taskOf o)).totalSize })
  := by
  have hsizes := h.recordSizes_iff (s.taskOf o)
  rw [toCore_progressBlock]
  split
  · refine Iff.trans ?_ hsizes
    exact ⟨fun h' => h'.of_eq rfl rfl rfl, fun h' => h'.of_eq rfl rfl rfl⟩
  · apply hsizes

/-- The properties of a task are set: those of the cached task have to have the property. -/
theorem set_iff (h : OnRecord Q k c) (r : TaskRef) (t : LCFileNetTask) :
  OnRecord Q k (c.setTask r (fun _ => t)) ↔
    (c.cache.lookup k = some r → Q t.toLCFileNetTaskFields)
  := by
  constructor
  · intro h' hr
    obtain ⟨-, ht⟩ := h'.cached r hr
    rw [Core.setTask, Heap.cell_modify_self] at ht
    apply ht
  · intro ht
    refine ⟨h.row, ?_⟩
    intro r' hr'
    obtain ⟨hlt, hcachedQ⟩ := h.cached r' hr'
    refine ⟨hlt, ?_⟩
    rw [Core.setTask, Heap.cell_modify]
    split
    · next heq =>
        rw [heq] at hr'
        apply ht hr'
    · apply hcachedQ

theorem updatetask_iff (h : OnRecord Q k c) (key : String) (filePath : Option String) :
  OnRecord Q k (lcUpdatetask key filePath c) ↔
    (key = k → ∀ row ∈ c.db.get k, Q { row.toLCFileNetTaskFields with filePath })
  := by
  obtain ⟨row, hrow, hrowQ⟩ := h.row
  have hget : (lcUpdatetask key filePath c).db.get k =
      if key = k then some { row with filePath } else some row := by
    rw [lcUpdatetask, Core.setDb, LCFileTaskDB.lcUpdateTaskFilePath, LCFileTaskDB.get_updateTask,
      hrow]
    simp only [Option.some.injEq]
    rfl
  constructor
  · intro h' hkey row' hrow'
    rw [hrow] at hrow'
    obtain rfl := Option.some.inj hrow'
    obtain ⟨row', hrow', hQ'⟩ := h'.row
    rw [hget, if_pos hkey] at hrow'
    obtain rfl := Option.some.inj hrow'
    apply hQ'
  · intro hpath
    refine ⟨?_, h.cached⟩
    rw [hget]
    split
    · next hkey => exact ⟨_, rfl, hpath hkey row hrow⟩
    · exact ⟨row, rfl, hrowQ⟩

/-! ### The service -/

section

variable (hQ : Lasting Q)
include hQ

theorem setStatus (h : OnRecord Q k c) (r : TaskRef) (status : LCFileNetTaskStatus) :
  OnRecord Q k (c.setStatus r status)
  := h.setTask r (fun ht => (hQ _ _ status).mpr ht)

theorem recordStatus (h : OnRecord Q k c) (r : TaskRef) (status : LCFileNetTaskStatus) :
  OnRecord Q k (c.recordStatus r status)
  := (h.setStatus hQ r status).updateTask _ (fun t ht => (hQ t t.md5 status).mpr ht)

/-- A change by which the task id is not forgotten keeps the property on record. -/
theorem change {F : String → Prop} (hF : ¬ F k) (h : OnRecord Q k c) (hchange : Change F c c') :
  OnRecord Q k c'
  := by
  cases hchange with
  | allocTask t => apply h.allocTask t
  | setMd5 r md5 => apply h.setTask r (fun ht => (hQ _ md5 _).mpr ht)
  | setStatus r status => apply h.setStatus hQ r status
  | recordStatus r status => apply h.recordStatus hQ r status
  | @load row hrow hcache =>
      have halloc := h.allocTask row.object
      refine ⟨halloc.row, ?_⟩
      intro r hr
      rw [pSetTask, Dictionary.lookup_insert] at hr
      split at hr
      · next hk =>
          -- the row that was read is the one of the task id
          obtain rfl := Option.some.inj hr
          obtain ⟨row', hrow', hQ'⟩ := h.row
          rw [hk, hrow] at hrow'
          obtain rfl := Option.some.inj hrow'
          refine ⟨Nat.lt_succ_self _, ?_⟩
          rw [pSetTask, Core.allocTask, Heap.cell_alloc_next]
          apply hQ'
      · apply halloc.cached r hr
  | @save r taskId hid hrow =>
      obtain ⟨row, hrow', hQ'⟩ := h.row
      have hne : taskId ≠ k := by
        rintro rfl
        rw [hrow] at hrow'
        cases hrow'
      constructor
      · rw [Core.setDb, LCFileTaskDB.get_lcSaveTask, hid]
        rw [if_neg (fun heq => hne (Option.some.inj heq))]
        apply h.row
      · intro r' hr'
        rw [Core.setDb, pSetTask, Dictionary.lookup_insert, if_neg (Ne.symm hne)] at hr'
        apply h.cached r' hr'
  | addOperation r taskId => exact h.of_eq rfl rfl rfl
  | @forget taskId hk =>
      have hne : taskId ≠ k := by
        rintro rfl
        apply hF hk
      constructor
      · rw [Core.forget, LCFileTaskDB.get_lcDeleteTaskByTaskId, if_neg hne]
        apply h.row
      · intro r hr
        rw [Core.forget, Dictionary.lookup_erase, if_neg (Ne.symm hne)] at hr
        apply h.cached r hr
  | superCancel o => exact h.of_eq rfl rfl rfl
  | call o hmethod => exact h.of_eq rfl rfl rfl
  | await t => exact h.of_eq rfl rfl rfl
  | dropTail i => exact h.of_eq rfl rfl rfl
  | other hander deallocated disk => exact h.of_eq rfl rfl rfl

theorem changes {F : String → Prop} (hF : ¬ F k) (h : OnRecord Q k c) (hchanges : Changes F c c') :
  OnRecord Q k c'
  := by
  induction hchanges with
  | refl => apply h
  | tail _ hchange ih => apply ih.change hQ hF hchange

/-! ### Steps -/

/-- Starting an operation. -/
theorem start (h : OnRecord Q k s.toCore) (o : OpRef) :
  OnRecord Q k (LCFileNetOperation.start (quiet md5) o s).toCore
  := by
  rw [LCFileNetOperation.start]
  split
  · exact h.of_eq rfl rfl rfl
  · have hexecuting : OnRecord Q k (s.toCore.setOp o (fun op => { op with executing := true })) :=
      h.of_eq rfl rfl rfl
    have hmain := hexecuting.sameTables (SameTables.mainTransfer o _)
    rw [toCore_main]
    split
    · exact hmain.of_eq rfl rfl rfl
    · apply hmain.recordStatus hQ _ _

/-- An operation that ends keeps the property on record exactly if its task has it, where it is the
one of the task id. -/
theorem ended_iff (h : OnRecord Q k s.toCore) (o : OpRef) (error : Option NSError) :
  OnRecord Q k (LCFileNetOperation.ended (quiet md5) o error s).toCore ↔
    (s.taskIdOf o = some k → Q (s.tasks.cell (s.taskOf o)).toLCFileNetTaskFields)
  := by
  constructor
  · intro h' hid
    obtain ⟨row, hrow, hrowQ⟩ := h'.row
    rw [get_ended, if_pos hid] at hrow
    obtain rfl := Option.some.inj hrow
    apply (hQ _ _ _).mp hrowQ
  · intro htask
    constructor
    · rw [get_ended]
      split
      · next hid => exact ⟨_, rfl, (hQ _ _ _).mpr (htask hid)⟩
      · apply h.row
    · have hcore := @toCore_ended_outcome md5 o error s
      intro r hr
      rw [cell_ended]
      rw [hcore] at hr ⊢
      obtain ⟨hlt, hcachedQ⟩ := h.cached r hr
      refine ⟨hlt, ?_⟩
      split
      · next heq =>
          rw [heq] at hcachedQ
          apply (hQ _ _ _).mpr hcachedQ
      · apply hcachedQ

/-- A step by which the task id is not forgotten keeps the property on record exactly if what it
writes has it. -/
theorem step_iff (h : OnRecord Q k s.toCore) {e : Event} (he : ¬ Forgets s k e) :
  OnRecord Q k (LCCFileService.step (quiet md5) s e).toCore ↔ KeepsRecord Q k s e
  := by
  have hservice : e.ofService → OnRecord Q k (LCCFileService.step (quiet md5) s e).toCore :=
    fun hofService => h.changes hQ he (Changes.step s hofService)
  cases e with
  | set r t =>
      rw [LCCFileService.step]
      split
      · apply h.set_iff r t
      · next hlt =>
          refine iff_of_true h ?_
          intro hr
          apply absurd (h.cached r hr).1 hlt
  | updatetask key filePath => apply h.updatetask_iff key filePath
  | opStart o =>
      refine iff_of_true ?_ trivial
      rw [LCCFileService.step]
      split
      · have hstarted : OnRecord Q k (s.mapCore (·.setOp o
            (fun op => { op with started := true }))).toCore := h.of_eq rfl rfl rfl
        apply hstarted.start hQ o
      · apply h
  | progress r =>
      rw [LCCFileService.step, KeepsRecord]
      split
      · next hguard =>
          rw [h.progressBlock_iff]
          exact ⟨fun hsizes _ => hsizes, fun hsizes => hsizes hguard⟩
      · next hguard => exact iff_of_true h (fun hguard' => absurd hguard' hguard)
  | finish r error =>
      rw [LCCFileService.step, KeepsRecord]
      split
      · next hlt =>
          have hanswered : OnRecord Q k (s.mapCore (·.answer r)).toCore := h.of_eq rfl rfl rfl
          by_cases hends : (s.calls.cell r).method.Ends error
          · rw [finishBlock_ends hends, hanswered.ended_iff hQ]
            exact ⟨fun htask _ => htask, fun htask => htask ⟨hlt, hends⟩⟩
          · refine iff_of_true ?_ (fun hguard => absurd hguard.2 hends)
            apply hanswered.sameTables (finishBlock_not_ends hends _ _ _)
      · next hlt => exact iff_of_true h (fun hguard => absurd hguard.1 hlt)
  | restart =>
      refine iff_of_true ?_ trivial
      exact ⟨h.row, by rintro r ⟨⟩⟩
  | _ => apply iff_of_true (hservice rfl) trivial

end

end OnRecord

end LCCFileService
