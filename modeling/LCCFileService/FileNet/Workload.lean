import LCCFileService.Library.Workload
import LCCFileService.FileNet.Stalls

/-!
# What the service has left to do

An operation that has not been started is to start, a caller of the handler is to go on when the
handler returns, and the handler is to be called with what operations call it for.  Each counts as
so much work that there is less of it afterwards: an operation that starts calls the handler at most
once, a failed resumption is followed by one other call, and the loop of `lc_pauseAllTask` calls the
handler at most once for every task id that is left.
-/

namespace LCCFileService

open LCFileNetService LCFileNetOperation

/-- The work of a call of the handler that has not been made. -/
def HanderMethod.work : HanderMethod → Nat
  | .upload | .download => 7
  | .resumUpload | .resumDownload => 16
  | .cancel | .pause => 1

/-- The work of a caller of the handler when the handler returns. -/
def Tail.work : Tail → Nat
  | .lcPauseTask _ _ taskIds => 1 + 2 * taskIds.length
  | _ => 1

/-- The work of an operation that has not been started. -/
def LCFileNetOperation.work (op : LCFileNetOperation) : Nat := if op.started then 0 else 18

/-- The work of the service, where `u` says of the calls whether they are still to be made. -/
def Core.work (u : CallRef → Bool) (c : Core) : Nat :=
  c.ops.total (fun _ op => op.work) + (c.pending.map Tail.work).sum
    + c.calls.total (fun r call => if u r then call.method.work else 0)

/-- The work that the event adds at most, by what it asks the service for. -/
def Event.price (s : State) : Event → Nat
  | .startTask _ | .resumTask _ => 18
  | .pauseTask _ | .cancelTask _ | .opCancel _ | .opPause _ => 2
  | .pauseAllTask => 2 * s.taskOperationDic.keys.length
  | _ => 0

/-- In the event the service does something that it has to do. -/
def Event.moves (s : State) : Event → Bool
  | .opStart o => o < s.ops.next && !(s.ops.cell o).started
  | .returns i => s.pending[i]?.isSome
  | _ => false

/-- From `c` to `c'` at most the work `n` is added, whichever calls are still to be made. -/
def Adds (n : Nat) (c c' : Core) : Prop := ∀ u, c'.work u ≤ c.work u + n

namespace Adds

variable {md5 : Bytes → String} {n m : Nat} {c c' c'' : Core}

theorem of_eq (hops : c'.ops = c.ops) (hpending : c'.pending = c.pending)
    (hcalls : c'.calls = c.calls) :
  Adds 0 c c'
  := by
  intro u
  rw [Core.work, Core.work, hops, hpending, hcalls, Nat.add_zero]

theorem mono (h : Adds n c c') (hnm : n ≤ m) :
  Adds m c c'
  := fun u => Nat.le_trans (h u) (Nat.add_le_add_left hnm _)

theorem trans (h : Adds n c c') (h' : Adds m c' c'') :
  Adds (n + m) c c''
  := by
  intro u
  have hle := h u
  have hle' := h' u
  omega

/-- What is started stays started. -/
theorem setOp {o : OpRef} {f : LCFileNetOperation → LCFileNetOperation}
    (hf : (c.ops.cell o).started → (f (c.ops.cell o)).started) :
  Adds 0 c (c.setOp o f)
  := by
  intro u
  have hops : (c.setOp o f).ops.total (fun _ op => op.work)
      ≤ c.ops.total (fun _ op => op.work) := by
    apply Heap.total_le_total (Heap.next_modify o f c.ops)
    intro o' _
    rw [Heap.cell_modify]
    split
    · next ho =>
        rw [ho, LCFileNetOperation.work, LCFileNetOperation.work]
        split
        · apply Nat.zero_le
        · next hstarted =>
            rw [if_neg (fun hbefore => hstarted (hf hbefore))]
    · apply Nat.le_refl
  have hle : (c.setOp o f).work u ≤ c.work u := by
    apply Nat.add_le_add_right
    apply Nat.add_le_add_right hops
  apply hle

/-- An operation that was not started starts. -/
theorem start {o : OpRef} (ho : o < c.ops.next) (hstarted : (c.ops.cell o).started = false)
    {f : LCFileNetOperation → LCFileNetOperation} (hf : (f (c.ops.cell o)).started)
    (u : CallRef → Bool) :
  (c.setOp o f).work u + 18 = c.work u
  := by
  have hops := Heap.total_modify (fun _ op => LCFileNetOperation.work op) f ho
  simp only [LCFileNetOperation.work, hf, hstarted] at hops
  have hsplit : (c.setOp o f).work u + 18
      = (c.ops.modify o f).total (fun _ op => op.work) + 18 + (c.pending.map Tail.work).sum
        + c.calls.total (fun r call => if u r then call.method.work else 0) := by
    rw [Core.work]
    simp only [Core.setOp]
    omega
  rw [hsplit, Core.work]
  simp only [LCFileNetOperation.work]
  simp only [if_true, Bool.false_eq_true, if_false] at hops
  omega

theorem call (o : OpRef) (method : HanderMethod) (c : Core) :
  Adds method.work c (c.call o method)
  := by
  intro u
  have hcalls : (c.call o method).calls.total (fun r call => if u r then call.method.work else 0)
      = c.calls.total (fun r call => if u r then call.method.work else 0)
        + (if u c.calls.next then method.work else 0) := Heap.total_alloc _ _ c.calls
  have hle : (if u c.calls.next then method.work else 0) ≤ method.work := by
    split
    · apply Nat.le_refl
    · apply Nat.zero_le
  rw [Core.work, hcalls, Core.work]
  simp only [Core.call]
  omega

theorem await (t : Tail) (c : Core) :
  Adds t.work c (c.await t)
  := by
  intro u
  rw [Core.work, Core.work]
  simp only [Core.await, List.map_append, List.map_singleton, List.sum_append, List.sum_singleton]
  omega

theorem answer (r : CallRef) (c : Core) :
  Adds 0 c (c.answer r)
  := by
  intro u
  have hcalls : (c.answer r).calls.total (fun r call => if u r then call.method.work else 0)
      ≤ c.calls.total (fun r call => if u r then call.method.work else 0) := by
    have hnext : (c.answer r).calls.next = c.calls.next := rfl
    apply Heap.total_le_total hnext
    intro r' _
    have hmethod : ((c.answer r).calls.cell r').method = (c.calls.cell r').method :=
      Heap.map_cell_modify (f := fun call => { call with answered := true }) HanderCall.method rfl
        r'
    rw [hmethod]
  apply Nat.add_le_add_left hcalls

/-- A caller of the handler goes on. -/
theorem dropTail {i : Nat} {t : Tail} (ht : c.pending[i]? = some t) (u : CallRef → Bool) :
  (c.dropTail i).work u + t.work = c.work u
  := by
  obtain ⟨hi, hget⟩ := List.getElem?_eq_some_iff.mp ht
  have hsum : (c.pending.map Tail.work).sum
      = ((c.pending.eraseIdx i).map Tail.work).sum + t.work := by
    have hperm := (List.getElem_cons_eraseIdx_perm hi).map Tail.work
    rw [← hperm.sum_eq, List.map_cons, List.sum_cons, hget]
    omega
  rw [Core.work, Core.work]
  simp only [Core.dropTail]
  rw [hsum]
  omega

/-! ### Blocks and the ends of methods -/

theorem pFinishOperatioin (o : OpRef) (c : Core) :
  Adds 0 c (LCFileNetOperation.pFinishOperatioin o c)
  := setOp id

theorem superCancel (o : OpRef) (c : Core) :
  Adds 0 c (LCFileNetOperation.superCancel o c)
  := by
  have hset : Adds 0 c (c.setOp o (fun op => { op with
      cancelled := op.cancelled || !op.finished, executing := false, finished := true })) :=
    setOp id
  have hrecord : ∀ c' : Core, Adds 0 c' (c'.recordStop o) := fun _ => of_eq rfl rfl rfl
  rw [superCancel_eq]
  apply hset.trans (hrecord _)

theorem stopTail (status : LCFileNetTaskStatus) (o : OpRef) (s : State) :
  Adds 0 s.toCore (LCFileNetOperation.stopTail (quiet md5) status o s).toCore
  := by
  rw [toCore_stopTail]
  have hrecord : Adds 0 s.toCore (s.toCore.recordStatus (s.taskOf o) status) := of_eq rfl rfl rfl
  apply hrecord.trans (superCancel o _)

theorem pauseTail (cacheTask : TaskRef) (s : State) :
  Adds 0 s.toCore (LCFileNetService.pauseTail (quiet md5) cacheTask s).toCore
  := by
  rw [toCore_pauseTail]
  exact of_eq rfl rfl rfl

theorem cancelTail (taskId : String) (cacheTask : TaskRef) (s : State) :
  Adds 0 s.toCore (LCFileNetService.cancelTail (quiet md5) taskId cacheTask s).toCore
  := by
  rw [toCore_cancelTail]
  exact of_eq rfl rfl rfl

theorem progressBlock (o : OpRef) (s : State) :
  Adds 0 s.toCore (LCFileNetOperation.progressBlock (quiet md5) o s).toCore
  := by
  have hsizes : Adds 0 s.toCore (s.toCore.recordSizes (s.taskOf o)) := of_eq rfl rfl rfl
  rw [toCore_progressBlock]
  split
  · apply hsizes.trans (pFinishOperatioin o _)
  · apply hsizes

theorem ended (o : OpRef) (error : Option NSError) (s : State) :
  Adds 0 s.toCore (LCFileNetOperation.ended (quiet md5) o error s).toCore
  := by
  rw [toCore_ended_outcome]
  refine trans (n := 0) ?_ (pFinishOperatioin o _)
  exact of_eq rfl rfl rfl

theorem pStartUpload (o : OpRef) (c : Core) :
  Adds 7 c (LCFileNetOperation.pStartUpload o c)
  := by
  rw [LCFileNetOperation.pStartUpload]
  split
  · apply call
  · apply (pFinishOperatioin o c).mono (Nat.zero_le 7)

theorem pStartDownload (o : OpRef) (c : Core) :
  Adds 7 c (LCFileNetOperation.pStartDownload o c)
  := by
  rw [LCFileNetOperation.pStartDownload]
  split
  · apply call
  · apply (pFinishOperatioin o c).mono (Nat.zero_le 7)

/-- Only a failed resumption is followed by another call of the handler. -/
theorem finishBlock {method : HanderMethod} (hmethod : method.resumes → 7 ≤ n) (o : OpRef)
    (error : Option NSError) (s : State) :
  Adds n s.toCore (LCFileNetOperation.finishBlock (quiet md5) method o error s).toCore
  := by
  by_cases hends : method.Ends error
  · rw [finishBlock_ends hends]
    apply (ended o error s).mono (Nat.zero_le n)
  · by_cases hresumes : method.resumes
    · obtain heq | heq | heq := finishBlock_of_not_ends hends (quiet md5) o s
      · rw [heq]
        apply (of_eq rfl rfl rfl).mono (Nat.zero_le n)
      · rw [heq]
        apply (pStartUpload o s.toCore).mono (hmethod hresumes)
      · rw [heq]
        apply (pStartDownload o s.toCore).mono (hmethod hresumes)
    · have hnone : LCFileNetOperation.finishBlock (quiet md5) method o error s = s := by
        cases method with
        | cancel => rfl
        | pause => rfl
        | upload => apply absurd ⟨rfl, fun h => hresumes h.1⟩ hends
        | download => apply absurd ⟨rfl, fun h => hresumes h.1⟩ hends
        | resumUpload => apply absurd rfl hresumes
        | resumDownload => apply absurd rfl hresumes
      rw [hnone]
      apply (of_eq rfl rfl rfl).mono (Nat.zero_le n)

theorem lcGetTask (taskId : String) (c : Core) :
  Adds 0 c (LCFileNetService.lcGetTask taskId c)
  := by
  rw [LCFileNetService.lcGetTask]
  split
  · exact of_eq rfl rfl rfl
  · split
    · next row _ =>
        cases row.status with
        | _ => exact of_eq rfl rfl rfl
    · exact of_eq rfl rfl rfl

/-! ### Starting operations -/

theorem mainTransfer (o : OpRef) (c : Core) :
  Adds 16 c (LCFileNetOperation.mainTransfer o c)
  := by
  obtain ⟨-, method, hmethod, hcall⟩ | ⟨-, hnone | hfinish⟩ := mainTransfer_cases o c
  · have hwork : method.work ≤ 16 := by
      cases method with
      | _ => decide
    rw [hcall]
    apply (call o method c).mono hwork
  · rw [hnone]
    apply (of_eq rfl rfl rfl).mono (Nat.zero_le 16)
  · rw [hfinish]
    apply (pFinishOperatioin o c).mono (Nat.zero_le 16)

theorem main (o : OpRef) (s : State) :
  Adds 17 s.toCore (LCFileNetOperation.main (quiet md5) o s).toCore
  := by
  rw [toCore_main]
  split
  · apply (mainTransfer o s.toCore).trans (await (.main o) _)
  · have hrecord : Adds 1 (LCFileNetOperation.mainTransfer o s.toCore)
        ((LCFileNetOperation.mainTransfer o s.toCore).recordStatus
          ((LCFileNetOperation.mainTransfer o s.toCore).taskOf o) .progress) :=
      (of_eq rfl rfl rfl).mono (Nat.zero_le 1)
    apply (mainTransfer o s.toCore).trans hrecord

/-- A new operation is to start. -/
theorem pAddTask (task : TaskRef) (c : Core) :
  Adds 18 c (LCFileNetService.pAddTask task c)
  := by
  have hadd : ∀ taskId, Adds 18 c (addOperation task taskId c) := by
    intro taskId u
    have hops : (addOperation task taskId c).ops.total (fun _ op => op.work)
        = c.ops.total (fun _ op => op.work) + 18 := Heap.total_alloc _ _ c.ops
    rw [Core.work, hops, Core.work]
    simp only [addOperation]
    omega
  rw [LCFileNetService.pAddTask]
  split
  · apply (of_eq rfl rfl rfl).mono (Nat.zero_le 18)
  · apply hadd
  · apply (of_eq rfl rfl rfl).mono (Nat.zero_le 18)

theorem startChecked (task : TaskRef) (taskId : String) (c : Core) :
  Adds 18 c (c.startChecked task taskId)
  := by
  have hrefl : Adds 18 c c := (of_eq rfl rfl rfl).mono (Nat.zero_le 18)
  rw [Core.startChecked]
  split
  · split
    · apply pAddTask
    · apply hrefl
  · split
    · next row _ =>
        have hstored : Adds 0 c (pSetTask c.tasks.next row.taskId (c.allocTask row.object)) :=
          of_eq rfl rfl rfl
        have hadd := hstored.trans (pAddTask c.tasks.next _)
        have hinterrupt : Adds 0 (pSetTask c.tasks.next row.taskId (c.allocTask row.object))
            ((pSetTask c.tasks.next row.taskId (c.allocTask row.object)).setStatus c.tasks.next
              .interrupt) := of_eq rfl rfl rfl
        have haddInterrupted := (hstored.trans hinterrupt).trans (pAddTask c.tasks.next _)
        cases row.status with
        | finish => apply hstored.mono (Nat.zero_le 18)
        | progress => apply haddInterrupted
        | create => apply haddInterrupted
        | _ => apply hadd
    · have hstored : Adds 0 c ((pSetTask task taskId c).setDb
          (LCFileTaskDB.lcSaveTask (c.tasks.cell task))) := of_eq rfl rfl rfl
      apply hstored.trans (pAddTask task _)

theorem startTask (task : TaskRef) (c : Core) :
  Adds 18 c (c.startTask md5 task)
  := by
  have hrefl : Adds 18 c c := (of_eq rfl rfl rfl).mono (Nat.zero_le 18)
  rw [Core.startTask]
  split
  · next taskId _ =>
      split
      · have hmd5 : Adds 0 c (pSetMd5 md5 task c) := by
          rw [pSetMd5]
          split
          · split
            · exact of_eq rfl rfl rfl
            · exact of_eq rfl rfl rfl
          · exact of_eq rfl rfl rfl
        apply hmd5.trans (startChecked task taskId _)
      · apply hrefl
  · apply hrefl

theorem lcResumTask (taskId : String) (s : State) :
  Adds 18 s.toCore (LCFileNetService.lcResumTask (quiet md5) taskId s).toCore
  := by
  have hrefl : Adds 18 s.toCore s.toCore := (of_eq rfl rfl rfl).mono (Nat.zero_le 18)
  rw [LCFileNetService.lcResumTask]
  split
  · split
    · apply hrefl
    · rw [toCore_lcStartTask]
      apply startTask
  · apply hrefl

/-! ### Cancelling and pausing -/

/-- The handler is called, or the caller goes on at once. -/
theorem stop {method : HanderMethod} {status : LCFileNetTaskStatus} {o : OpRef} {t : Tail}
    {rest : State → State} {s : State} (hcall : method.work + t.work ≤ n)
    (hrest : ∀ s', Adds 0 s.toCore s'.toCore → Adds n s.toCore (rest s').toCore) :
  Adds n s.toCore (LCFileNetOperation.stop (quiet md5) method status o t rest s).toCore
  := by
  rw [LCFileNetOperation.stop]
  split
  · have hcalled := (call o method s.toCore).trans (await t (s.toCore.call o method))
    apply hcalled.mono hcall
  · split
    · apply hrest (LCFileNetOperation.stopTail (quiet md5) status o s) (stopTail status o s)
    · apply hrest (s.mapCore (LCFileNetOperation.superCancel o)) (superCancel o s.toCore)

theorem lcCancelTask (taskId : String) (s : State) :
  Adds 2 s.toCore (LCFileNetService.lcCancelTask (quiet md5) taskId s).toCore
  := by
  have hrefl : Adds 2 s.toCore s.toCore := (of_eq rfl rfl rfl).mono (Nat.zero_le 2)
  rw [LCFileNetService.lcCancelTask]
  cases s.cache.lookup taskId with
  | none => apply hrefl
  | some cacheTask =>
      simp only
      split
      · apply hrefl
      · cases s.taskOperationDic.lookup taskId with
        | none => apply (cancelTail taskId cacheTask s).mono (Nat.zero_le 2)
        | some operaton =>
            apply stop (Nat.le_refl 2)
            intro s' hs'
            apply (hs'.trans (cancelTail taskId cacheTask s')).mono (Nat.zero_le 2)

/-- The loop of `lc_pauseAllTask` calls the handler for at most one task id before it waits. -/
theorem pauseTasks (taskIds : List String) (s : State) :
  Adds (2 * taskIds.length) s.toCore (LCFileNetService.pauseTasks (quiet md5) taskIds s).toCore
  := by
  induction taskIds generalizing s with
  | nil => exact of_eq rfl rfl rfl
  | cons taskId taskIds ih =>
      have hlength : 2 * (taskId :: taskIds).length = 2 + 2 * taskIds.length := by
        rw [List.length_cons]
        omega
      -- what goes on at once goes on with the rest of the loop
      have hgoOn : ∀ s' : State, Adds 0 s.toCore s'.toCore →
          Adds (2 * (taskId :: taskIds).length) s.toCore
            (LCFileNetService.pauseTasks (quiet md5) taskIds s').toCore := by
        intro s' hs'
        apply (hs'.trans (ih s')).mono
        omega
      have hrefl : Adds 0 s.toCore s.toCore := of_eq rfl rfl rfl
      rw [LCFileNetService.pauseTasks]
      cases s.cache.lookup taskId with
      | none => apply hgoOn s hrefl
      | some cacheTask =>
          simp only
          split
          · apply hgoOn s hrefl
          · cases s.taskOperationDic.lookup taskId with
            | none => apply hgoOn _ (pauseTail cacheTask s)
            | some operaton =>
                apply stop
                · rw [hlength, HanderMethod.work, Tail.work]
                  omega
                · intro s' hs'
                  apply hgoOn _ (hs'.trans (pauseTail cacheTask s'))

/-- A caller of the handler goes on with less than it had to do. -/
theorem runTail (t : Tail) (s : State) :
  Adds (t.work - 1) s.toCore (LCFileNetService.runTail (quiet md5) t s).toCore
  := by
  cases t with
  | main o =>
      rw [LCFileNetService.runTail, toCore_pNotifyStart]
      exact of_eq rfl rfl rfl
  | cancel o => apply stopTail
  | pause o => apply stopTail
  | lcCancelTask o taskId cacheTask =>
      apply (stopTail .canceled o s).trans (cancelTail taskId cacheTask _)
  | lcPauseTask o cacheTask taskIds =>
      have hpaused := (@stopTail md5 .pause o s).trans (@pauseTail md5 cacheTask _)
      apply (hpaused.trans (pauseTasks taskIds _)).mono
      rw [Tail.work]
      omega

end Adds

/-! ### Steps -/

section

variable {md5 : Bytes → String} {s : State}

/-- An operation that starts takes work off. -/
theorem work_opStart {o : OpRef} (ho : o < s.ops.next) (hstarted : (s.ops.cell o).started = false)
    (u : CallRef → Bool) :
  (step (quiet md5) s (.opStart o)).toCore.work u + 1 ≤ s.toCore.work u
  := by
  rw [step_opStart ⟨ho, hstarted⟩]
  split
  · have hwork := Adds.start ho hstarted
      (f := fun op => { op with started := true, finished := true }) rfl u
    omega
  · have hwork := Adds.start ho hstarted
      (f := fun op => { op with started := true, executing := true }) rfl u
    have hmain := @Adds.main md5 o (s.mapCore (running o)) u
    have hrunning : (s.mapCore (running o)).toCore.work u + 18 = s.toCore.work u := hwork
    omega

/-- A caller of the handler that goes on takes work off. -/
theorem work_returns {i : Nat} {t : Tail} (ht : s.pending[i]? = some t) (u : CallRef → Bool) :
  (step (quiet md5) s (.returns i)).toCore.work u + 1 ≤ s.toCore.work u
  := by
  have hpositive : 1 ≤ t.work := by
    cases t with
    | lcPauseTask o cacheTask taskIds => exact Nat.le_add_right 1 _
    | _ => apply Nat.le_refl
  have hdrop : (s.mapCore (·.dropTail i)).toCore.work u + t.work = s.toCore.work u :=
    Adds.dropTail ht u
  have hrun := @Adds.runTail md5 t (s.mapCore (·.dropTail i)) u
  simp only [step, ht]
  omega

/-- The progress block adds no work. -/
theorem adds_progress (r : CallRef) :
  Adds 0 s.toCore (step (quiet md5) s (.progress r)).toCore
  := by
  rw [step]
  split
  · apply Adds.progressBlock
  · exact Adds.of_eq rfl rfl rfl

/-- The finish block adds work if it is of a resumption. -/
theorem adds_finish {r : CallRef} {n : Nat} (hn : (s.calls.cell r).method.resumes → 7 ≤ n)
    (error : Option NSError) :
  Adds n s.toCore (step (quiet md5) s (.finish r error)).toCore
  := by
  have hrefl : Adds 0 s.toCore s.toCore := Adds.of_eq rfl rfl rfl
  rw [step]
  split
  · have hanswer : Adds 0 s.toCore (s.mapCore (·.answer r)).toCore := Adds.answer r s.toCore
    have hfinish := @Adds.finishBlock md5 n _ hn (s.calls.cell r).op error (s.mapCore (·.answer r))
    apply (hanswer.trans hfinish).mono
    omega
  · apply hrefl.mono (Nat.zero_le _)

/-- A step of the service adds at most its price to the work, and takes some off if it moves. -/
theorem work_step {e : Event} (hfinish : ∀ r error, e ≠ .finish r error) (u : CallRef → Bool) :
  (step (quiet md5) s e).toCore.work u + (e.moves s).toNat ≤ s.toCore.work u + e.price s
  := by
  have hadds : e.moves s = false → Adds (e.price s) s.toCore (step (quiet md5) s e).toCore →
      (step (quiet md5) s e).toCore.work u + (e.moves s).toNat
        ≤ s.toCore.work u + e.price s := by
    intro hmoves hadds
    rw [hmoves]
    apply hadds u
  have hrefl : ∀ n, Adds n s.toCore s.toCore :=
    fun n => (Adds.of_eq rfl rfl rfl).mono (Nat.zero_le n)
  cases e with
  | opStart o =>
      by_cases hguard : o < s.ops.next ∧ (s.ops.cell o).started = false
      · have hmoves : (Event.opStart o).moves s = true := by simpa [Event.moves] using hguard
        rw [hmoves]
        apply work_opStart hguard.1 hguard.2
      · apply hadds
        · simpa [Event.moves] using hguard
        · rw [step, if_neg hguard]
          apply hrefl
  | returns i =>
      cases ht : s.pending[i]? with
      | none =>
          apply hadds
          · rw [Event.moves, ht]
            rfl
          · simp only [step, ht]
            apply hrefl
      | some t =>
          rw [Event.moves, ht]
          apply work_returns ht
  | progress r => apply hadds rfl (adds_progress r)
  | finish r error => apply absurd rfl (hfinish r error)
  | restart =>
      have hzero : (step (quiet md5) s .restart).toCore.work u = 0 := rfl
      rw [hzero]
      apply Nat.zero_le
  | set task t =>
      apply hadds rfl
      rw [step]
      split
      · exact Adds.of_eq rfl rfl rfl
      · apply hrefl
  | getTask taskId => apply hadds rfl (Adds.lcGetTask taskId s.toCore)
  | startTask task =>
      apply hadds rfl
      rw [step]
      split
      · rw [toCore_lcStartTask]
        apply Adds.startTask
      · apply hrefl
  | resumTask taskId => apply hadds rfl (Adds.lcResumTask taskId s)
  | pauseTask taskId => apply hadds rfl (Adds.pauseTasks [taskId] s)
  | pauseAllTask => apply hadds rfl (Adds.pauseTasks s.taskOperationDic.keys s)
  | cancelTask taskId => apply hadds rfl (Adds.lcCancelTask taskId s)
  | opCancel o =>
      apply hadds rfl
      rw [step]
      split
      · apply Adds.stop (Nat.le_refl 2)
        exact fun s' hs' => hs'.mono (Nat.zero_le 2)
      · apply hrefl
  | opPause o =>
      apply hadds rfl
      rw [step]
      split
      · apply Adds.stop (Nat.le_refl 2)
        exact fun s' hs' => hs'.mono (Nat.zero_le 2)
      · apply hrefl
  | _ => exact hadds rfl (Adds.of_eq rfl rfl rfl)

end

end LCCFileService
