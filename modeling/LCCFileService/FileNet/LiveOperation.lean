import LCCFileService.FileNet.Operations

/-!
# At most one live operation

An operation is live until it is finished.  For every task id there is to be at most one
live operation, and `taskOperationDic` is to have it, so that pausing and cancelling reach
it.  In a run this holds in every state exactly if no step supersedes a live operation: a
cached task that is paused, failed or interrupted is started or resumed while its operation
is live, or a cancellation that waited for the handler takes out a live operation that was
added in the meantime.
-/

namespace LCCFileService

open LCFileNetService LCFileNetOperation

/-- An operation that is not yet finished. -/
def Live (o : OpRef) (c : Core) : Prop := o < c.ops.next ∧ (c.ops.cell o).finished = false

/-- For every task id at most one operation is live, and it is the one stored. -/
structure OneLive (c : Core) : Prop where
  unique : ∀ o o' taskId, Live o c → Live o' c → c.taskIdOf o = some taskId →
    c.taskIdOf o' = some taskId → o = o'
  stored : ∀ o taskId, Live o c → c.taskIdOf o = some taskId →
    c.taskOperationDic.lookup taskId = some o

namespace OneLive

variable {B : OpRef → Prop} {c c' : Core}

/-- Live operations that are stored under their task ids are unique. -/
theorem of_stored
    (h : ∀ o taskId, Live o c → c.taskIdOf o = some taskId →
      c.taskOperationDic.lookup taskId = some o) :
  OneLive c
  := by
  constructor
  · intro o o' taskId ho ho' hid hid'
    have hstored := h o taskId ho hid
    rw [h o' taskId ho' hid'] at hstored
    apply (Option.some.inj hstored).symm
  · apply h

/-- There are no operations when the process starts. -/
theorem initial (db : TaskTable) (disk : Disk String Bytes) :
  OneLive (State.initial db disk).toCore
  := by
  apply of_stored
  rintro o taskId ⟨⟨⟩, -⟩

/-- A live operation was live before, if it is not a new one. -/
theorem live_of_advance (h : Advance B c c') {o : OpRef} (ho : o < c.ops.next)
    (hlive : Live o c') :
  Live o c
  := by
  use ho
  cases hf : (c.ops.cell o).finished with
  | false => rfl
  | true => cases hlive.2.symm.trans (h.finished o ho hf)

/-- An operation keeps its task id. -/
theorem taskIdOf_of_advance (hwf : WellFormed c) (h : Advance B c c') {o : OpRef}
    (ho : o < c.ops.next) :
  c'.taskIdOf o = c.taskIdOf o
  := by
  rw [Core.taskIdOf, h.task o ho, h.taskId _ (hwf.owned o ho)]
  rfl

/-- Without new operations one live operation per task id remains. -/
theorem steady (h : OneLive c) (hwf : WellFormed c) (hsteady : Steady B c c') :
  OneLive c'
  := by
  apply of_stored
  intro o taskId hlive hid
  have ho : o < c.ops.next := by
    rw [← hsteady.ops_eq]
    apply hlive.1
  rw [hsteady.dic_eq]
  apply h.stored o taskId (live_of_advance hsteady.toAdvance ho hlive)
  rw [← taskIdOf_of_advance hwf hsteady.toAdvance ho]
  apply hid

theorem taskIdOf_addOperation (task : TaskRef) (k : String) {o : OpRef} (ho : o < c.ops.next) :
  (addOperation task k c).taskIdOf o = c.taskIdOf o
  := by
  have hcell : (addOperation task k c).ops.cell o = c.ops.cell o := Heap.cell_alloc_of_lt _ ho
  rw [Core.taskIdOf, Core.taskOf, hcell]
  rfl

/-- Adding an operation leaves one live operation per task id exactly if the operation it
replaces is not live. -/
theorem addOperation_iff (h : OneLive c) {task : TaskRef} {k : String}
    (hid : (c.tasks.cell task).taskId = some k) (hstored : ∀ o,
      c.taskOperationDic.lookup k = some o → o < c.ops.next ∧ c.taskIdOf o = some k) :
  OneLive (addOperation task k c)
    ↔ ∀ o, c.taskOperationDic.lookup k = some o → (c.ops.cell o).finished
  := by
  have hcell : ∀ o < c.ops.next, (addOperation task k c).ops.cell o = c.ops.cell o := by
    intro o ho
    apply Heap.cell_alloc_of_lt _ ho
  have hdic : ∀ k', (addOperation task k c).taskOperationDic.lookup k'
      = if k' = k then some c.ops.next else c.taskOperationDic.lookup k' :=
    Dictionary.lookup_insert k c.ops.next c.taskOperationDic
  constructor
  · intro h' o ho
    obtain ⟨hlt, hid'⟩ := hstored o ho
    by_contra hnot
    have hlive : Live o (addOperation task k c) := by
      use Nat.lt_succ_of_lt hlt
      rw [hcell o hlt]
      simpa using hnot
    have hnext := h'.stored o k hlive (by rw [taskIdOf_addOperation task k hlt, hid'])
    rw [hdic, if_pos rfl] at hnext
    apply absurd (Option.some.inj hnext) (Nat.ne_of_gt hlt)
  · intro hfinished
    apply of_stored
    intro o k' hlive hid'
    rw [hdic]
    by_cases hlt : o < c.ops.next
    · rw [taskIdOf_addOperation task k hlt] at hid'
      have hlive' : Live o c := by
        use hlt
        rw [← hcell o hlt]
        apply hlive.2
      have hdic' := h.stored o k' hlive' hid'
      rw [if_neg]
      · apply hdic'
      · rintro rfl
        cases hlive'.2.symm.trans (hfinished o hdic')
    · obtain rfl : o = c.ops.next :=
        Nat.le_antisymm (Nat.lt_succ_iff.mp hlive.1) (Nat.le_of_not_lt hlt)
      have hnew : (addOperation task k c).taskIdOf c.ops.next = some k := by
        rw [Core.taskIdOf, Core.taskOf, addOperation, Heap.cell_alloc_next]
        apply hid
      rw [if_pos (Option.some.inj (hid'.symm.trans hnew))]

/-- Taking a task id out of the tables leaves one live operation per task id exactly if the
operation stored there is not live. -/
theorem forget_iff (h : OneLive c) {k : String} (hstored : ∀ o,
      c.taskOperationDic.lookup k = some o → o < c.ops.next ∧ c.taskIdOf o = some k) :
  OneLive (c.forget k)
    ↔ ∀ o, c.taskOperationDic.lookup k = some o → (c.ops.cell o).finished
  := by
  have hdic : ∀ k', (c.forget k).taskOperationDic.lookup k'
      = if k' = k then none else c.taskOperationDic.lookup k' :=
    Dictionary.lookup_erase k c.taskOperationDic
  constructor
  · intro h' o ho
    obtain ⟨hlt, hid⟩ := hstored o ho
    by_contra hnot
    have hlive : Live o (c.forget k) := ⟨hlt, Bool.not_eq_true _ ▸ hnot⟩
    have hnone := h'.stored o k hlive hid
    rw [hdic, if_pos rfl] at hnone
    cases hnone
  · intro hfinished
    apply of_stored
    intro o k' hlive hid
    have hdic' := h.stored o k' hlive hid
    rw [hdic, if_neg]
    · apply hdic'
    · rintro rfl
      cases hlive.2.symm.trans (hfinished o hdic')

end OneLive

/-- Without new operations the stored operations stay those of their task ids. -/
theorem WellFormed.taskIdOf_steady {B : OpRef → Prop} {c c' : Core} (h : WellFormed c)
    (hsteady : Steady B c c') {k : String} :
  ∀ o, c'.taskOperationDic.lookup k = some o → o < c'.ops.next ∧ c'.taskIdOf o = some k
  := by
  intro o ho
  rw [hsteady.dic_eq] at ho
  obtain ⟨hlt, hid⟩ := h.taskIdOf ho
  rw [hsteady.ops_eq, OneLive.taskIdOf_of_advance h hsteady.toAdvance hlt]
  exact ⟨hlt, hid⟩

/-! ### Superseding -/

/-- Starting the task puts a new operation in place of a live one. -/
def Supersedes (task : TaskRef) (c : Core) : Prop :=
  ∃ taskId oldTask o, (c.tasks.cell task).taskId = some taskId ∧ pCheckTask task c ∧
    c.cache.lookup taskId = some oldTask ∧ resumes (c.tasks.cell oldTask).status ∧
    (c.tasks.cell oldTask).type ≠ .unknown ∧
    c.taskOperationDic.lookup taskId = some o ∧ Live o c

/-- The event neither starts nor resumes a task such that a live operation is superseded, nor
ends a cancellation that takes a live operation added in the meantime out of the tables. -/
def SupersedesNone (s : State) : Event → Prop
  | .startTask task => task < s.tasks.next → ¬ Supersedes task s.toCore
  | .resumTask taskId =>
      ∀ task, s.cache.lookup taskId = some task → (s.tasks.cell task).status ≠ .finish →
        ¬ Supersedes task s.toCore
  | .returns i =>
      ∀ o taskId cacheTask, s.pending[i]? = some (.lcCancelTask o taskId cacheTask) →
        ∀ o', s.taskOperationDic.lookup taskId = some o' → o' ≠ o → ¬ Live o' s.toCore
  | _ => True

namespace OneLive

variable {c : Core} {md5 : Bytes → String}

/-- Going on with a checked task leaves one live operation per task id exactly if the cached task
is not to be resumed while its operation is live. -/
theorem startChecked_iff (h : OneLive c) (hwf : WellFormed c) {task : TaskRef} {taskId : String}
    (hid : (c.tasks.cell task).taskId = some taskId) :
  OneLive (c.startChecked task taskId)
    ↔ ¬ ∃ oldTask o, c.cache.lookup taskId = some oldTask ∧
        resumes (c.tasks.cell oldTask).status ∧ (c.tasks.cell oldTask).type ≠ .unknown ∧
        c.taskOperationDic.lookup taskId = some o ∧ Live o c
  := by
  cases hcache : c.cache.lookup taskId with
  | some oldTask =>
      have hold := (hwf.cached taskId oldTask hcache).1
      have hchecked : c.startChecked task taskId
          = if resumes (c.tasks.cell oldTask).status then pAddTask oldTask c else c := by
        rw [Core.startChecked, hcache]
      by_cases hresumes : resumes (c.tasks.cell oldTask).status
      · by_cases htype : (c.tasks.cell oldTask).type = .unknown
        · rw [hchecked, if_pos hresumes, pAddTask_unknown htype]
          apply iff_of_true h
          rintro ⟨_, _, ⟨⟩, -, htype', -⟩
          apply htype' htype
        · rw [hchecked, if_pos hresumes, pAddTask_eq htype hold,
            h.addOperation_iff hold (fun o ho => hwf.taskIdOf ho)]
          constructor
          · rintro hfinished ⟨_, o, -, -, -, ho, hlive⟩
            cases hlive.2.symm.trans (hfinished o ho)
          · intro hnot o ho
            by_contra hlive
            apply hnot
            use oldTask, o, rfl, hresumes, htype, ho, (hwf.taskIdOf ho).1
            simpa using hlive
      · rw [hchecked, if_neg hresumes]
        apply iff_of_true h
        rintro ⟨_, _, ⟨⟩, hresumes', -⟩
        apply hresumes hresumes'
  | none =>
      apply iff_of_true
      · obtain hsteady | ⟨c₁, r, k, hsteady, hr, heq, hk⟩ :=
          startChecked_cases (B := fun _ => False) hid
        · apply h.steady hwf hsteady
        · have hnone : c₁.taskOperationDic.lookup k = none := by
            rw [hsteady.dic_eq]
            apply hwf.stored_eq_none
            obtain hk | ⟨-, hcache', -⟩ := hk
            · apply hk
            · cases hcache.symm.trans hcache'
          rw [heq, (h.steady hwf hsteady).addOperation_iff hr]
          · intro o ho
            cases hnone.symm.trans ho
          · intro o ho
            cases hnone.symm.trans ho
      · rintro ⟨_, _, ⟨⟩, -⟩

/-- Starting a task leaves one live operation per task id exactly if it supersedes none. -/
theorem startTask_iff (h : OneLive c) (hwf : WellFormed c) {task : TaskRef} :
  OneLive (c.startTask md5 task) ↔ ¬ Supersedes task c
  := by
  rw [Core.startTask]
  split
  · next taskId hid =>
      split
      · next hcheck =>
          have hsteady := @Steady.pSetMd5 (fun _ => False) md5 task c
          have hmd5 := h.steady hwf hsteady
          have hwfMd5 := @WellFormed.pSetMd5 c md5 hwf task
          have hid' : ((pSetMd5 md5 task c).tasks.cell task).taskId = some taskId := by
            rw [taskId_pSetMd5]
            apply hid
          obtain ⟨hcacheMd5, hopsMd5, hdicMd5, -⟩ := @rest_pSetMd5 md5 task c
          rw [hmd5.startChecked_iff hwfMd5 hid']
          apply not_congr
          simp only [hcacheMd5, hdicMd5, (status_pSetMd5 task c _).1, (status_pSetMd5 task c _).2,
            Live, hopsMd5]
          constructor
          · rintro ⟨oldTask, o, hcache, hresumes, htype, ho, hlive⟩
            exact ⟨taskId, oldTask, o, hid, hcheck, hcache, hresumes, htype, ho, hlive⟩
          · rintro ⟨_, oldTask, o, hid'', -, hcache, hresumes, htype, ho, hlive⟩
            obtain rfl := Option.some.inj (hid.symm.trans hid'')
            exact ⟨oldTask, o, hcache, hresumes, htype, ho, hlive⟩
      · next hcheck =>
          constructor
          · rintro - ⟨_, _, _, -, hcheck', -⟩
            apply hcheck hcheck'
          · intro _
            apply h
  · next hid =>
      constructor
      · rintro - ⟨_, _, _, hid', -⟩
        cases hid.symm.trans hid'
      · intro _
        apply h

/-- Cancelling an operation finishes it and no other. -/
theorem finished_superCancel_apply (o : OpRef) (c : Core) (o' : OpRef) :
  ((superCancel o c).ops.cell o').finished
    = if o' = o then true else (c.ops.cell o').finished
  := by
  rw [superCancel, Core.recordStop, pFinishOperatioin, Core.setOp, Heap.cell_modify]
  split
  · rfl
  · next hne => rw [Core.setOp, Heap.cell_modify, if_neg hne]

/-- Cancelling a task leaves one live operation per task id. -/
theorem lcCancelTask {s : State} (h : OneLive s.toCore) (hwf : WellFormed s.toCore)
    (taskId : String) :
  OneLive (LCFileNetService.lcCancelTask (quiet md5) taskId s).toCore
  := by
  obtain hsteady | ⟨c, hsteady, heq, hfinished⟩ :=
    @lcCancelTask_cases (fun _ => False) md5 taskId s
  · apply h.steady hwf hsteady
  · rw [heq, (h.steady hwf hsteady).forget_iff (hwf.taskIdOf_steady hsteady), hsteady.dic_eq]
    apply hfinished

/-- The end of a cancellation leaves one live operation per task id exactly if no live operation
was added in the meantime. -/
theorem cancelTail_iff {s : State} (h : OneLive s.toCore) (hwf : WellFormed s.toCore)
    (o : OpRef) (taskId : String) (cacheTask : TaskRef) :
  OneLive (runTail (quiet md5) (.lcCancelTask o taskId cacheTask) s).toCore
    ↔ ∀ o', s.taskOperationDic.lookup taskId = some o' → o' ≠ o → ¬ Live o' s.toCore
  := by
  have hsteady := (@Steady.stopTail (fun _ => False) md5 .canceled o s).trans
    (Steady.setStatus cacheTask .canceled _)
  have hfinished : ∀ o', (((LCFileNetOperation.stopTail (quiet md5) .canceled o
      s).toCore.setStatus cacheTask .canceled).ops.cell o').finished
        = if o' = o then true else (s.ops.cell o').finished := by
    intro o'
    rw [toCore_stopTail]
    apply finished_superCancel_apply
  rw [runTail, toCore_cancelTail,
    (h.steady hwf hsteady).forget_iff (hwf.taskIdOf_steady hsteady), hsteady.dic_eq]
  constructor
  · intro hall o' ho' hne hlive
    have hf := hall o' ho'
    rw [hfinished, if_neg hne] at hf
    cases hlive.2.symm.trans hf
  · intro hall o' ho'
    rw [hfinished]
    split
    · rfl
    · next hne =>
        by_contra hf
        apply hall o' ho' hne
        use (hwf.taskIdOf ho').1
        simpa using hf

/-- A step leaves one live operation per task id exactly if it supersedes none. -/
theorem step_iff {s : State} (h : OneLive s.toCore) (hwf : WellFormed s.toCore) (e : Event) :
  OneLive (step (quiet md5) s e).toCore ↔ SupersedesNone s e
  := by
  by_cases henlists : Enlists s e
  · cases henlists with
    | startTask task =>
        rw [step, SupersedesNone]
        split
        · next hlt =>
            rw [toCore_lcStartTask, h.startTask_iff hwf]
            exact ⟨fun hnot _ => hnot, fun hnot => hnot hlt⟩
        · next hlt => exact iff_of_true h (fun hlt' => absurd hlt' hlt)
    | resumTask taskId =>
        rw [step, SupersedesNone, lcResumTask]
        cases s.cache.lookup taskId with
        | none =>
            apply iff_of_true h
            rintro task ⟨⟩
        | some task =>
            simp only [Option.some.injEq, forall_eq']
            split
            · next hfinish => exact iff_of_true h (fun hnot => absurd hfinish hnot)
            · next hfinish =>
                rw [toCore_lcStartTask, h.startTask_iff hwf]
                exact ⟨fun hnot _ => hnot, fun hnot => hnot hfinish⟩
    | cancelTask taskId => apply iff_of_true (h.lcCancelTask hwf taskId) trivial
    | @returns i o taskId cacheTask hi =>
        have hdrop := Steady.dropTail (B := fun _ => False) i s.toCore
        have hs : OneLive (s.mapCore (·.dropTail i)).toCore := h.steady hwf hdrop
        have hwfs : WellFormed (s.mapCore (·.dropTail i)).toCore :=
          hwf.congr rfl rfl rfl rfl rfl
        simp only [step, SupersedesNone, hi]
        rw [hs.cancelTail_iff hwfs]
        constructor
        · rintro hall _ _ _ ⟨⟩
          apply hall
        · intro hall
          apply hall o taskId cacheTask rfl
    | restart => apply iff_of_true (initial s.db s.disk) trivial
  · apply iff_of_true (h.steady hwf (Steady.step henlists))
    cases e with
    | startTask task => apply absurd (.startTask task) henlists
    | resumTask taskId => apply absurd (.resumTask taskId) henlists
    | returns i =>
        intro o taskId cacheTask hi
        apply absurd (.returns hi) henlists
    | _ => trivial

end OneLive

/-- In a run of the system, there is at most one live operation per task id, stored in
`taskOperationDic`, exactly if no step supersedes a live operation. -/
theorem throughout_oneLive_iff (md5 : Bytes → String) (db : TaskTable)
    (disk : Disk String Bytes) (es : List Event) :
  Run.Throughout (step (quiet md5)) (fun s => OneLive s.toCore) (State.initial db disk) es
    ↔ Run.Along (step (quiet md5)) SupersedesNone (State.initial db disk) es
  := by
  have hwf := @WellFormed.throughout md5 db disk es
  rw [← Run.throughout_and_iff hwf]
  apply Run.throughout_iff_along (I := fun s : State => WellFormed s.toCore ∧ OneLive s.toCore)
  · rintro s e ⟨hwf, h⟩
    rw [h.step_iff hwf e, and_iff_right (hwf.step e)]
  · exact ⟨WellFormed.initial db disk, OneLive.initial db disk⟩

/-- A download that is paused and resumed twice before its new operation starts. -/
def resumedTwice : List Event :=
  [.create { taskId := "k", type := .download }, .addHander 0, .startTask 0,
    .opStart 0, .returns 0, .pauseTask "k", .returns 0, .resumTask "k", .resumTask "k"]

/-- After two resumptions there are two live operations of one task id. -/
theorem not_throughout_oneLive_resumedTwice :
  ¬ Run.Throughout (step (quiet (fun _ => ""))) (fun s => OneLive s.toCore)
      (State.initial ∅ (fun _ => none)) resumedTwice
  := by
  intro h
  have hunique := h.final.unique 1 2 "k" ⟨by decide +kernel, by decide +kernel⟩
    ⟨by decide +kernel, by decide +kernel⟩ (by decide +kernel) (by decide +kernel)
  cases hunique

end LCCFileService
