import LCCFileService.FileNet.Stalls

/-!
# Stopped operations

`pause` and `cancel` end by cancelling the operation, unless it has finished, and finish it.
An operation that is stopped in this way is to call no transfer method of the handler ever
again.  In a run this holds exactly if no resumption of a stopped operation fails: the
finish block of a failed resumption starts the transfer anew without asking whether the
operation is cancelled.
-/

namespace LCCFileService

open LCFileNetService LCFileNetOperation

/-- `pause` or `cancel` of the operation has returned, and so the operation has finished. -/
def Stopped (o : OpRef) (c : Core) : Prop :=
  o < c.ops.next ∧ o ∈ c.stopped ∧ (c.ops.cell o).finished

instance (o : OpRef) (c : Core) : Decidable (Stopped o c) :=
  inferInstanceAs (Decidable (_ ∧ _ ∧ _))

/-- `pause` and `cancel` end with their operation stopped. -/
theorem stopped_superCancel {o : OpRef} {c : Core} (ho : o < c.ops.next) :
  Stopped o (superCancel o c)
  := ⟨ho, List.mem_cons_self, finished_superCancel o c⟩

/-- From one core to a later one, the operation has called a transfer method. -/
def Transfers (o : OpRef) (c c' : Core) : Prop :=
  ∃ r < c'.calls.next, c.calls.next ≤ r ∧ (c'.calls.cell r).op = o ∧
    (c'.calls.cell r).method.transfers

instance (o : OpRef) (c c' : Core) : Decidable (Transfers o c c') :=
  inferInstanceAs (Decidable (∃ r < _, _))

/-- In the run over `es` from `s`, an operation that is stopped calls no transfer method as long
as the process lives. -/
def StoppedForGood (md5 : Bytes → String) (s : State) (es : List Event) : Prop :=
  ∀ pre mid post o, es = pre ++ mid ++ post → .restart ∉ mid →
    Stopped o (Run.final (step (quiet md5)) s pre).toCore →
    ¬ Transfers o (Run.final (step (quiet md5)) s pre).toCore
      (Run.final (step (quiet md5)) s (pre ++ mid)).toCore

/-- The event is not the failure of a resumption of a stopped operation with a handler. -/
def FailsNoStopped (s : State) : Event → Prop
  | .finish r error =>
      ¬ (r < s.calls.next ∧ (s.calls.cell r).method.resumes ∧ error.isSome ∧
        Stopped (s.calls.cell r).op s.toCore ∧ (s.handerOf (s.calls.cell r).op).isSome)
  | _ => True

variable {md5 : Bytes → String}

/-- What the service does of its own accord leaves the stopped operations on record. -/
theorem Changes.stopped {F : String → Prop} {c c' : Core} (h : Changes F c c') {o : OpRef}
    (ho : o ∈ c.stopped) :
  o ∈ c'.stopped
  := by
  induction h with
  | refl => apply ho
  | tail _ hchange ih =>
      cases hchange with
      | superCancel o' => apply List.mem_cons_of_mem _ ih
      | _ => exact ih

/-- A change of operations and calls leaves the stopped operations on record. -/
theorem SameTables.stopped {c c' : Core} (h : SameTables c c') :
  c'.stopped = c.stopped
  := by
  obtain ⟨ops, calls, rfl, -⟩ := h
  rfl

/-- The stopped operations stay on record as long as the process lives. -/
theorem mem_stopped_step {s : State} {o : OpRef} (ho : o ∈ s.stopped) {e : Event}
    (he : e ≠ .restart) :
  o ∈ (step (quiet md5) s e).stopped
  := by
  cases e with
  | set r t =>
      rw [step]
      split
      · exact ho
      · apply ho
  | updatetask key filePath => exact ho
  | opStart o' =>
      by_cases hguard : o' < s.ops.next ∧ (s.ops.cell o').started = false
      · rw [step_opStart hguard]
        split
        · exact ho
        · have hmain := SameTables.stopped (SameTables.mainTransfer o' (running o' s.toCore))
          rw [toCore_main]
          split
          · exact hmain.symm ▸ ho
          · exact hmain.symm ▸ ho
      · rw [step, if_neg hguard]
        apply ho
  | progress r =>
      rw [step]
      split
      · rw [toCore_progressBlock]
        split
        · exact ho
        · exact ho
      · apply ho
  | finish r error =>
      rw [step]
      split
      · by_cases hends : (s.calls.cell r).method.Ends error
        · rw [finishBlock_ends hends, toCore_ended_outcome]
          exact ho
        · have hsame := finishBlock_of_not_ends hends (quiet md5) (s.calls.cell r).op
            (s.mapCore (·.answer r))
          obtain heq | heq | heq := hsame
          · rw [heq]
            exact ho
          · rw [heq, State.toCore_mapCore, SameTables.stopped (SameTables.pStartUpload _ _)]
            exact ho
          · rw [heq, State.toCore_mapCore, SameTables.stopped (SameTables.pStartDownload _ _)]
            exact ho
      · apply ho
  | restart => apply absurd rfl he
  | _ => exact Changes.stopped (Changes.step s rfl) ho

/-- As long as the process lives, a run only adds operations and calls. -/
theorem Advance.run {es : List Event} (hes : .restart ∉ es) (s : State) :
  Advance (fun _ => True) s.toCore (Run.final (LCCFileService.step (quiet md5)) s es).toCore
  := by
  induction es generalizing s with
  | nil => apply (Steady.refl s.toCore).toAdvance
  | cons e es ih =>
      rw [List.mem_cons, not_or] at hes
      apply Advance.trans _ (ih hes.2 _)
      apply (Advance.step s (Ne.symm hes.1)).mono
      intro o _
      trivial

theorem Watched.final (md5 : Bytes → String) (db : TaskTable) (disk : Disk String Bytes)
    (es : List Event) :
  Watched (Run.final (LCCFileService.step (quiet md5)) (State.initial db disk) es).toCore []
  := by
  apply Run.final_of_invariant (I := fun s : State => Watched s.toCore [])
  · intro s e h
    apply (h.step e).unreported
  · apply Watched.initial

/-- A stopped operation stays stopped as long as the process lives. -/
theorem Stopped.step {o : OpRef} {s : State} (h : Stopped o s.toCore) {e : Event}
    (he : e ≠ .restart) :
  Stopped o (LCCFileService.step (quiet md5) s e).toCore
  := by
  have hadvance := @Advance.step md5 s e he
  exact ⟨Nat.lt_of_lt_of_le h.1 hadvance.ops_le, mem_stopped_step h.2.1 he,
    hadvance.finished o h.1 h.2.2⟩

/-- A stopped operation begins no transfer unless a resumption of it fails. -/
theorem Stopped.not_begins {o : OpRef} {s : State} (h : Stopped o s.toCore)
    (hwatched : Watched s.toCore []) {e : Event} (he : FailsNoStopped s e) :
  ¬ Begins s.toCore e o
  := by
  intro hbegins
  cases e with
  | opStart o' =>
      obtain ⟨rfl, hstarted, hcancelled⟩ := hbegins
      -- it has finished, so that it was started or cancelled
      obtain hstarted' | hcancelled' := (hwatched.consistent o h.1).finished h.2.2
      · cases hstarted.symm.trans hstarted'
      · cases hcancelled.symm.trans hcancelled'
  | finish r error =>
      obtain ⟨rfl, hr, hresumes, herror, hhander⟩ := hbegins
      apply he ⟨hr, hresumes, herror, h, hhander⟩
  | _ => apply hbegins

/-- A stopped operation calls no transfer method in a run in which no resumption of a stopped
operation fails. -/
theorem Stopped.not_transfers {o : OpRef} {s : State} (h : Stopped o s.toCore)
    (hwatched : Watched s.toCore []) {es : List Event} (hes : .restart ∉ es)
    (halong : Run.Along (LCCFileService.step (quiet md5)) FailsNoStopped s es) :
  ¬ Transfers o s.toCore (Run.final (LCCFileService.step (quiet md5)) s es).toCore
  := by
  induction es generalizing s with
  | nil =>
      rintro ⟨r, hr, hle, -⟩
      apply absurd hr (Nat.not_lt_of_le hle)
  | cons e es ih =>
      obtain ⟨he, halong⟩ := halong
      rw [List.mem_cons, not_or] at hes
      have hstep := @Advance.step md5 s e (Ne.symm hes.1)
      have hrun := @Advance.run md5 es hes.2 (LCCFileService.step (quiet md5) s e)
      rintro ⟨r, hr, hle, hop, htransfers⟩
      by_cases hlt : r < (LCCFileService.step (quiet md5) s e).calls.next
      · -- the call is made by the first step
        apply h.not_begins hwatched he
        rw [← hop, Run.final_cons, hrun.op r hlt]
        apply hstep.begun r hlt hle
        rw [← hrun.method r hlt]
        apply htransfers
      · apply ih (h.step (Ne.symm hes.1)) (hwatched.step e).unreported hes.2 halong
        exact ⟨r, hr, Nat.le_of_not_lt hlt, hop, htransfers⟩

/-- A call of a transfer method is a new transfer. -/
theorem transfers_call {c₀ c : Core} (hle : c₀.calls.next ≤ c.calls.next) (o : OpRef)
    {method : HanderMethod} (hmethod : method.transfers) :
  Transfers o c₀ (c.call o method)
  := by
  use c.calls.next, Nat.lt_succ_self _, hle
  rw [Core.call, Heap.cell_alloc_next]
  exact ⟨rfl, hmethod⟩

/-- The failure of a resumption begins a transfer of its operation. -/
theorem transfers_of_fails {s : State} {r : CallRef} {error : Option NSError}
    (hr : r < s.calls.next) (hresumes : (s.calls.cell r).method.resumes)
    (herror : error.isSome) (hhander : (s.handerOf (s.calls.cell r).op).isSome) :
  Transfers (s.calls.cell r).op s.toCore (step (quiet md5) s (.finish r error)).toCore
  := by
  have hhander' : ((s.toCore.answer r).handerOf (s.calls.cell r).op).isSome := hhander
  have hle : s.calls.next ≤ (s.toCore.answer r).calls.next := Nat.le_refl _
  rw [step, if_pos hr]
  cases hmethod : (s.calls.cell r).method with
  | resumUpload =>
      rw [finishBlock, if_pos herror, State.toCore_mapCore, State.toCore_mapCore, pStartUpload,
        if_pos hhander']
      apply transfers_call hle _ rfl
  | resumDownload =>
      rw [finishBlock, if_pos herror, State.toCore_mapCore, State.toCore_mapCore,
        pStartDownload, if_pos hhander']
      apply transfers_call hle _ rfl
  | upload => simp [hmethod, HanderMethod.resumes] at hresumes
  | download => simp [hmethod, HanderMethod.resumes] at hresumes
  | cancel => simp [hmethod, HanderMethod.resumes] at hresumes
  | pause => simp [hmethod, HanderMethod.resumes] at hresumes

/-- In a run of the system, stopped operations stay without transfers exactly when no resumption
of a stopped operation fails while there is a handler. -/
theorem stoppedForGood_iff (md5 : Bytes → String) (db : TaskTable) (disk : Disk String Bytes)
    (es : List Event) :
  StoppedForGood md5 (State.initial db disk) es
    ↔ Run.Along (step (quiet md5)) FailsNoStopped (State.initial db disk) es
  := by
  constructor
  · intro h
    apply Run.along_iff_forall.mpr
    rintro pre e post rfl
    cases e with
    | finish r error =>
        rintro ⟨hr, hresumes, herror, hstopped, hhander⟩
        apply h pre [.finish r error] post _ (by simp) (by simp) hstopped
        rw [Run.final_append]
        apply transfers_of_fails hr hresumes herror hhander
    | _ => trivial
  · rintro h pre mid post o rfl hmid hstopped
    rw [Run.final_append]
    have hwatched : Watched (Run.final (step (quiet md5)) (State.initial db disk) pre).toCore [] :=
      Watched.final md5 db disk pre
    apply hstopped.not_transfers hwatched hmid
    rw [List.append_assoc, Run.along_append, Run.along_append] at h
    apply h.2.1

/-- A download that is paused, resumed, and paused again. -/
def pausedTwice : List Event :=
  [.create { taskId := "k", type := .download }, .addHander 0, .startTask 0,
    .opStart 0, .returns 0, .pauseTask "k", .returns 0,
    .startTask 0, .opStart 1, .returns 0, .pauseTask "k", .returns 0]

/-- The failure of the resumption begins the download again, after the operation was paused. -/
theorem not_stoppedForGood_failedResumption :
  ¬ StoppedForGood (fun _ => "") (State.initial ∅ (fun _ => none))
      (pausedTwice ++ [.finish 2 (some {})])
  := by
  intro h
  apply h pausedTwice [.finish 2 (some {})] [] 1 (by simp) (by simp)
  · decide +kernel
  · decide +kernel

end LCCFileService
