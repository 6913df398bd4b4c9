import LCCFileService.FileNet.Cancellation
import LCCFileService.FileNet.Successes

/-!
# Where progress is told

Progress is told by the progress block of an operation, and nowhere else: whatever else the
service does adds to the notes only notes of other kinds.
-/

namespace LCCFileService

open LCFileNetService LCFileNetOperation

/-- From `s` to `s'` notes are told, but none of progress. -/
def Hushed (s s' : State) : Prop :=
  ∃ ns, s'.notes = s.notes ++ ns ∧ ∀ n ∈ ns, n.kind ≠ .progress

namespace Hushed

variable {md5 : Bytes → String} {s s' s'' : State}

theorem refl (s : State) :
  Hushed s s
  := ⟨[], by simp⟩

theorem trans (h : Hushed s s') (h' : Hushed s' s'') :
  Hushed s s''
  := by
  obtain ⟨ns, hns, hkind⟩ := h
  obtain ⟨ns', hns', hkind'⟩ := h'
  refine ⟨ns ++ ns', ?_, ?_⟩
  · rw [hns', hns, List.append_assoc]
  · intro n hn
    rcases List.mem_append.mp hn with hn | hn
    · apply hkind n hn
    · apply hkind' n hn

/-- Nothing is told. -/
theorem of_eq (h : s'.notes = s.notes) :
  Hushed s s'
  := ⟨[], by simp [h]⟩

theorem mapCore (f : Core → Core) (s : State) :
  Hushed s (s.mapCore f)
  := of_eq rfl

/-- The notes that are told. -/
theorem new (h : Hushed s s') :
  ∀ n ∈ s'.notes.drop s.notes.length, n.kind ≠ .progress
  := by
  obtain ⟨ns, hns, hkind⟩ := h
  rw [hns, List.drop_left]
  apply hkind

/-- The notes of a notification of another kind are told. -/
theorem of_notesOf {kind : NoteKind} (hkind : kind ≠ .progress) {task : TaskRef}
    {error : Option NSError} {s₀ : State} (h : s'.notes = s.notes ++ notesOf kind task error s₀) :
  Hushed s s'
  := by
  refine ⟨_, h, ?_⟩
  intro n hn
  rw [(Reports.mem_notesOf hn).1]
  apply hkind

/-! ### Notifying -/

theorem pNotifyStatusChange (task : TaskRef) (s : State) :
  Hushed s (LCFileNetService.pNotifyStatusChange (quiet md5) task s)
  := by
  rw [pNotifyStatusChange_quiet]
  apply of_notesOf _ rfl
  rintro ⟨⟩

theorem pNotifyFinish (task : TaskRef) (error : Option NSError) (s : State) :
  Hushed s (LCFileNetService.pNotifyFinish (quiet md5) task error s)
  := by
  cases hid : (s.tasks.cell task).taskId with
  | some taskId =>
      apply of_notesOf _ (pNotifyFinish_quiet error hid).1
      rintro ⟨⟩
  | none =>
      refine ⟨observerNotes .finish task error s, ?_, ?_⟩
      · rw [LCFileNetService.pNotifyFinish, tellObservers_quiet, pExecuteFinishTaskCallback]
        simp only [hid]
        rfl
      · intro n hn
        have hnotes : n ∈ notesOf .finish task error s := List.mem_append_left _ hn
        rw [(Reports.mem_notesOf hnotes).1]
        rintro ⟨⟩

/-! ### Operations -/

theorem pNotifyStart (o : OpRef) (s : State) :
  Hushed s (LCFileNetOperation.pNotifyStart (quiet md5) o s)
  := ((mapCore _ s).trans (mapCore _ _)).trans (pNotifyStatusChange _ _)

theorem pNotifyStatusUpadte (o : OpRef) (status : LCFileNetTaskStatus) (s : State) :
  Hushed s (LCFileNetOperation.pNotifyStatusUpadte (quiet md5) o status s)
  := ((mapCore _ s).trans (mapCore _ _)).trans (pNotifyStatusChange _ _)

theorem stopTail (status : LCFileNetTaskStatus) (o : OpRef) (s : State) :
  Hushed s (LCFileNetOperation.stopTail (quiet md5) status o s)
  := (pNotifyStatusUpadte o status s).trans (mapCore _ _)

theorem stop (method : HanderMethod) (status : LCFileNetTaskStatus) (o : OpRef) (t : Tail)
    {rest : State → State} (hrest : ∀ s', Hushed s' (rest s')) (s : State) :
  Hushed s (LCFileNetOperation.stop (quiet md5) method status o t rest s)
  := by
  rw [LCFileNetOperation.stop]
  split
  · apply mapCore _ s
  · split
    · apply (stopTail status o s).trans (hrest _)
    · apply (mapCore (superCancel o) s).trans (hrest _)

theorem start (o : OpRef) (s : State) :
  Hushed s (LCFileNetOperation.start (quiet md5) o s)
  := by
  rw [LCFileNetOperation.start]
  split
  · apply mapCore _ s
  · apply (mapCore _ s).trans
    rw [LCFileNetOperation.main]
    split
    · apply mapCore _ _
    · apply (mapCore _ _).trans (pNotifyStart o _)

/-- The end of a transfer. -/
theorem ended (o : OpRef) (error : Option NSError) (s : State) :
  Hushed s (LCFileNetOperation.ended (quiet md5) o error s)
  := by
  have henter : Hushed s (enterEnd o s) := by
    rw [enterEnd]
    split
    · split
      · apply of_eq rfl
      · apply of_eq rfl
    · apply refl s
  have hstatus := henter.trans (@pNotifyStatusUpadte md5 o (outcome error) (enterEnd o s))
  have hfinish : ∀ s', Hushed s' (LCFileNetOperation.pNotifyFinish (quiet md5) o error s') :=
    fun s' => ((mapCore _ s').trans (mapCore _ _)).trans (pNotifyFinish _ error _)
  apply (hstatus.trans (hfinish _)).trans (mapCore _ _)

theorem finishBlock (method : HanderMethod) (o : OpRef) (error : Option NSError) (s : State) :
  Hushed s (LCFileNetOperation.finishBlock (quiet md5) method o error s)
  := by
  cases method with
  | upload => apply ended
  | download => apply ended
  | resumUpload =>
      cases error with
      | none => apply ended
      | some error => apply mapCore _ s
  | resumDownload =>
      cases error with
      | none => apply ended
      | some error => apply mapCore _ s
  | cancel => apply refl s
  | pause => apply refl s

/-! ### The service -/

theorem pauseTail (cacheTask : TaskRef) (s : State) :
  Hushed s (LCFileNetService.pauseTail (quiet md5) cacheTask s)
  := (mapCore _ s).trans (pNotifyStatusChange cacheTask _)

theorem pauseTasks (taskIds : List String) (s : State) :
  Hushed s (LCFileNetService.pauseTasks (quiet md5) taskIds s)
  := by
  induction taskIds generalizing s with
  | nil => apply refl s
  | cons taskId taskIds ih =>
      have hrest : ∀ (cacheTask : TaskRef) (s : State), Hushed s
          (LCFileNetService.pauseTasks (quiet md5) taskIds
            (LCFileNetService.pauseTail (quiet md5) cacheTask s)) :=
        fun cacheTask s => (pauseTail cacheTask s).trans (ih _)
      rw [LCFileNetService.pauseTasks]
      split
      · apply ih s
      · split
        · apply ih s
        · split
          · apply stop _ _ _ _ (hrest _) s
          · apply hrest _ s

theorem cancelTail (taskId : String) (cacheTask : TaskRef) (s : State) :
  Hushed s (LCFileNetService.cancelTail (quiet md5) taskId cacheTask s)
  := by
  have hforget : Hushed s (s |>.enter (.settle taskId)
      |>.mapCore (fun c => { c with taskOperationDic := c.taskOperationDic.erase taskId })
      |>.mapCore (·.setDb (LCFileTaskDB.lcDeleteTaskByTaskId taskId))
      |>.mapCore (·.setStatus cacheTask .canceled)) := of_eq rfl
  have hstatus := hforget.trans (@pNotifyStatusChange md5 cacheTask _)
  apply (hstatus.trans (pNotifyFinish cacheTask (some canceledError) _)).trans (mapCore _ _)

theorem lcCancelTask (taskId : String) (s : State) :
  Hushed s (LCFileNetService.lcCancelTask (quiet md5) taskId s)
  := by
  rw [LCFileNetService.lcCancelTask]
  split
  · apply refl s
  · split
    · apply refl s
    · split
      · apply stop _ _ _ _ (cancelTail taskId _) s
      · apply cancelTail taskId _ s

theorem runTail (t : Tail) (s : State) :
  Hushed s (LCFileNetService.runTail (quiet md5) t s)
  := by
  cases t with
  | main o => apply pNotifyStart
  | cancel o => apply stopTail
  | pause o => apply stopTail
  | lcCancelTask o taskId cacheTask => apply (stopTail .canceled o s).trans (cancelTail _ _ _)
  | lcPauseTask o cacheTask taskIds =>
      apply ((stopTail .pause o s).trans (pauseTail cacheTask _)).trans (pauseTasks taskIds _)

/-- A task that is found to have finished already is notified again. -/
theorem alreadyFinished (task : TaskRef) (taskId : String) (s : State) :
  Hushed s (LCFileNetService.alreadyFinished (quiet md5) task taskId s)
  := by
  have henter : Hushed s (s.enter (.settle taskId)) := of_eq rfl
  apply henter.trans (pNotifyFinish task none _)

theorem startChecked (task : TaskRef) (taskId : String) (s : State) :
  Hushed s (LCFileNetService.startChecked (quiet md5) task taskId s)
  := by
  rw [LCFileNetService.startChecked]
  split
  · next oldTask _ =>
      rw [startCached]
      split
      · apply alreadyFinished
      · apply mapCore _ s
      · apply mapCore _ s
      · apply mapCore _ s
      · apply refl s
  · split
    · next row _ =>
        rw [startStored]
        apply (mapCore _ s).trans
        split
        · apply alreadyFinished
        · apply mapCore _ _
        · apply mapCore _ _
        · apply mapCore _ _
    · apply mapCore _ s

theorem lcStartTask (task : TaskRef) (s : State) :
  Hushed s (LCFileNetService.lcStartTask (quiet md5) task s)
  := by
  rw [LCFileNetService.lcStartTask]
  split
  · apply of_eq rfl
  · next taskId _ =>
      have hsave : Hushed s (pSaveCallback task taskId s) := of_eq rfl
      have henter : ∀ s', Hushed s' (enterFinish task taskId s') := by
        intro s'
        rw [enterFinish]
        split
        · apply of_eq rfl
        · apply refl s'
      dsimp only
      apply hsave.trans
      split
      · apply ((henter _).trans (mapCore _ _)).trans (startChecked task taskId _)
      · have hsettle : ∀ (t : Option Block) (s' : State),
            Hushed s' (s'.enter (.settleOnly taskId t)) := fun t s' => of_eq rfl
        apply (hsettle _ _).trans (pNotifyFinish task (some taskError) _)

theorem lcResumTask (taskId : String) (s : State) :
  Hushed s (LCFileNetService.lcResumTask (quiet md5) taskId s)
  := by
  rw [LCFileNetService.lcResumTask]
  split
  · split
    · apply refl s
    · apply lcStartTask
  · split
    · dsimp only
      split
      · apply mapCore _ s
      · apply (mapCore _ s).trans (lcStartTask _ _)
    · apply refl s

/-! ### Steps -/

/-- Only the call of a progress block tells progress. -/
theorem step (s : State) {e : Event} (hprogress : ∀ r, e ≠ .progress r) (he : e ≠ .restart) :
  Hushed s (LCCFileService.step (quiet md5) s e)
  := by
  rw [LCCFileService.step.eq_def]
  cases e with
  | create t => apply mapCore _ s
  | set task t =>
      dsimp only
      split
      · apply mapCore _ s
      · apply refl s
  | startTask task =>
      dsimp only
      split
      · apply lcStartTask
      · apply refl s
  | resumTask taskId => apply lcResumTask
  | pauseTask taskId => apply pauseTasks
  | pauseAllTask => apply pauseTasks
  | cancelTask taskId => apply lcCancelTask
  | getTask taskId => apply mapCore _ s
  | updatetask key filePath => apply mapCore _ s
  | opStart o =>
      dsimp only
      split
      · apply (mapCore _ s).trans (start o _)
      · apply refl s
  | opCancel o =>
      dsimp only
      split
      · apply stop _ _ _ _ refl s
      · apply refl s
  | opPause o =>
      dsimp only
      split
      · apply stop _ _ _ _ refl s
      · apply refl s
  | returns i =>
      dsimp only
      split
      · apply (mapCore _ s).trans (runTail _ _)
      · apply refl s
  | progress r => apply absurd rfl (hprogress r)
  | finish r error =>
      dsimp only
      split
      · apply (mapCore _ s).trans (finishBlock _ _ error _)
      · apply refl s
  | addHander h => apply mapCore _ s
  | deallocHander h => apply mapCore _ s
  | addObserver o => apply of_eq rfl
  | find finder => apply of_eq rfl
  | edit path content => apply mapCore _ s
  | restart => apply absurd rfl he

end Hushed

end LCCFileService
