import LCCFileService.FileNet.Callers

/-!
# Rejected starts

A start that `p_checkTask:` rejects is to fail for the caller and for nobody else: its own
finish callback is invoked once with an error, and the core of the state and all callbacks
registered before stay as they are.  The callbacks are saved before the check and pooled
under the task id, so this holds exactly if the task has a task id and no callback was
registered under it.
-/

namespace LCCFileService

open LCFileNetService LCFileNetOperation

variable {md5 : Bytes → String}

/-! ### Between the steps nothing is enumerated -/

namespace LCFileNetService

@[simp]
theorem enumerated_pSaveCallback (task : TaskRef) (k : String) (s : State) :
  (pSaveCallback task k s).enumerated = s.enumerated
  := rfl

@[simp]
theorem enumerated_enter (e : Delivery.Entry String Block) (s : State) :
  (s.enter e).enumerated = s.enumerated
  := rfl

@[simp]
theorem enumerated_pNotifyStatusChange (task : TaskRef) (s : State) :
  (pNotifyStatusChange (quiet md5) task s).enumerated = s.enumerated
  := by
  rw [pNotifyStatusChange_quiet]

@[simp]
theorem enumerated_pNotifyProgress (task : TaskRef) (s : State) :
  (pNotifyProgress (quiet md5) task s).enumerated = s.enumerated
  := by
  by_cases h : Silent (s.tasks.cell task)
  · rw [pNotifyProgress_silent h]
  · rw [pNotifyProgress_told h]

/-- Enumerating callbacks that leave the enumerated arrays and the exceptions as they are does so
too. -/
theorem enumerate_keeps {run : Block → State → State}
    (hrun : ∀ b s, (run b s).enumerated = s.enumerated ∧ (run b s).raised = s.raised)
    (callbacks : Option CallbackArray) (s : State) :
  (enumerate run callbacks s).enumerated = s.enumerated ∧
    (enumerate run callbacks s).raised = s.raised
  := by
  have hfoldl : ∀ (bs : List Block) (s : State),
      (bs.foldl (fun s b => run b s) s).enumerated = s.enumerated ∧
        (bs.foldl (fun s b => run b s) s).raised = s.raised := by
    intro bs
    induction bs with
    | nil =>
        intro s
        exact ⟨rfl, rfl⟩
    | cons b bs ih =>
        intro s
        obtain ⟨henumerated, hraised⟩ := ih (run b s)
        rw [List.foldl_cons, henumerated, hraised]
        apply hrun
  cases callbacks with
  | none => exact ⟨rfl, rfl⟩
  | some a =>
      obtain ⟨henumerated, hraised⟩ :=
        hfoldl a.blocks { s with enumerated := a.ref :: s.enumerated }
      constructor
      · simp only [enumerate, henumerated]
        simp
      · apply hraised

/-- A finish notification of a task with a task id raises no exception, and leaves no array
enumerated. -/
theorem pNotifyFinish_keeps {task : TaskRef} {k : String} (error : Option NSError) {s : State}
    (hid : (s.tasks.cell task).taskId = some k) :
  (pNotifyFinish (quiet md5) task error s).enumerated = s.enumerated ∧
    (pNotifyFinish (quiet md5) task error s).raised = s.raised
  := by
  rw [pNotifyFinish, tellObservers_quiet, pExecuteFinishTaskCallback]
  simp only [hid]
  apply enumerate_keeps
  intro b s
  exact ⟨rfl, rfl⟩

@[simp]
theorem enumerated_pNotifyFinish (task : TaskRef) (error : Option NSError) (s : State) :
  (pNotifyFinish (quiet md5) task error s).enumerated = s.enumerated
  := by
  cases hid : (s.tasks.cell task).taskId with
  | some k => apply (pNotifyFinish_keeps error hid).1
  | none =>
      rw [pNotifyFinish, tellObservers_quiet, pExecuteFinishTaskCallback]
      simp only [hid]
      rfl

@[simp]
theorem enumerated_mapCore (f : Core → Core) (s : State) :
  (s.mapCore f).enumerated = s.enumerated
  := rfl

end LCFileNetService

namespace LCFileNetOperation

@[simp]
theorem enumerated_pNotifyStart (o : OpRef) (s : State) :
  (pNotifyStart (quiet md5) o s).enumerated = s.enumerated
  := by
  simp [pNotifyStart, lcNetOperationStart]

@[simp]
theorem enumerated_pNotifyStatusUpadte (o : OpRef) (status : LCFileNetTaskStatus) (s : State) :
  (pNotifyStatusUpadte (quiet md5) o status s).enumerated = s.enumerated
  := by
  simp [pNotifyStatusUpadte, lcNetOperationStatusUpadte]

@[simp]
theorem enumerated_stopTail (status : LCFileNetTaskStatus) (o : OpRef) (s : State) :
  (stopTail (quiet md5) status o s).enumerated = s.enumerated
  := by
  simp [stopTail]

theorem enumerated_main (o : OpRef) (s : State) :
  (main (quiet md5) o s).enumerated = s.enumerated
  := by
  rw [main]
  split
  · rfl
  · simp

theorem enumerated_start (o : OpRef) (s : State) :
  (start (quiet md5) o s).enumerated = s.enumerated
  := by
  rw [start]
  split
  · rfl
  · apply enumerated_main

/-- Stopping leaves no array enumerated if the caller does not. -/
theorem enumerated_stop (method : HanderMethod) (status : LCFileNetTaskStatus) (o : OpRef)
    (t : Tail) {rest : State → State} (hrest : ∀ s, (rest s).enumerated = s.enumerated)
    (s : State) :
  (stop (quiet md5) method status o t rest s).enumerated = s.enumerated
  := by
  rw [stop]
  split
  · rfl
  · split
    · simp [hrest]
    · simp [hrest]

theorem enumerated_progressBlock (o : OpRef) (s : State) :
  (progressBlock (quiet md5) o s).enumerated = s.enumerated
  := by
  simp [progressBlock, pNotifyProgressUpdate, lcNetOperationProgressUpdate]

theorem enumerated_ended (o : OpRef) (error : Option NSError) (s : State) :
  (ended (quiet md5) o error s).enumerated = s.enumerated
  := by
  have henter : (enterEnd o s).enumerated = s.enumerated := by
    rw [enterEnd]
    split
    · split
      · rfl
      · rfl
    · rfl
  simp [ended, LCFileNetOperation.pNotifyFinish, lcNetOperationStatusFinish, henter]

theorem enumerated_finishBlock (method : HanderMethod) (o : OpRef) (error : Option NSError)
    (s : State) :
  (finishBlock (quiet md5) method o error s).enumerated = s.enumerated
  := by
  by_cases h : method.Ends error
  · rw [finishBlock_ends h]
    apply enumerated_ended
  · rw [toNotifier_finishBlock h]

end LCFileNetOperation

namespace LCFileNetService

theorem enumerated_startChecked (task : TaskRef) (k : String) (s : State) :
  (startChecked (quiet md5) task k s).enumerated = s.enumerated
  := by
  rw [startChecked]
  split
  · rw [startCached]
    split
    · simp [alreadyFinished]
    all_goals rfl
  · split
    · simp only [startStored]
      split
      · simp [alreadyFinished]
      all_goals rfl
    · rfl

theorem enumerated_lcStartTask (task : TaskRef) (s : State) :
  (lcStartTask (quiet md5) task s).enumerated = s.enumerated
  := by
  rw [lcStartTask]
  split
  · rfl
  · simp only
    split
    · rw [enumerated_startChecked, enumerated_mapCore, enterFinish]
      split
      · rfl
      · rfl
    · simp

theorem enumerated_lcResumTask (k : String) (s : State) :
  (lcResumTask (quiet md5) k s).enumerated = s.enumerated
  := by
  rw [lcResumTask]
  split
  · split
    · rfl
    · apply enumerated_lcStartTask
  · rfl

@[simp]
theorem enumerated_cancelTail (k : String) (cacheTask : TaskRef) (s : State) :
  (cancelTail (quiet md5) k cacheTask s).enumerated = s.enumerated
  := by
  simp [cancelTail]

theorem enumerated_lcCancelTask (k : String) (s : State) :
  (lcCancelTask (quiet md5) k s).enumerated = s.enumerated
  := by
  rw [lcCancelTask]
  split
  · rfl
  · split
    · rfl
    · split
      · apply enumerated_stop
        intro s
        simp
      · simp

theorem enumerated_pauseTasks (ks : List String) (s : State) :
  (pauseTasks (quiet md5) ks s).enumerated = s.enumerated
  := by
  induction ks generalizing s with
  | nil => rfl
  | cons k ks ih =>
      rw [pauseTasks]
      split
      · apply ih
      · split
        · apply ih
        · split
          · apply enumerated_stop
            intro s
            simp [ih, pauseTail]
          · simp [ih, pauseTail]

theorem enumerated_runTail (t : Tail) (s : State) :
  (runTail (quiet md5) t s).enumerated = s.enumerated
  := by
  cases t with
  | main o => simp [runTail]
  | cancel o => simp [runTail]
  | pause o => simp [runTail]
  | lcCancelTask o k cacheTask => simp [runTail]
  | lcPauseTask o cacheTask ks => simp [runTail, enumerated_pauseTasks, pauseTail]

end LCFileNetService

/-- After every event no array is enumerated, if none was. -/
theorem enumerated_step {s : State} (h : s.enumerated = []) (e : Event) :
  (step (quiet md5) s e).enumerated = []
  := by
  rw [← h]
  cases e with
  | create t => rfl
  | set task t =>
      rw [step]
      split
      · rfl
      · rfl
  | startTask task =>
      rw [step]
      split
      · apply enumerated_lcStartTask
      · rfl
  | resumTask k => apply enumerated_lcResumTask
  | pauseTask k => apply enumerated_pauseTasks
  | pauseAllTask => apply enumerated_pauseTasks
  | cancelTask k => apply enumerated_lcCancelTask
  | getTask k => rfl
  | updatetask key filePath => rfl
  | opStart o =>
      rw [step]
      split
      · apply enumerated_start
      · rfl
  | opCancel o =>
      rw [step]
      split
      · apply enumerated_stop _ _ _ _ (fun s => rfl) s
      · rfl
  | opPause o =>
      rw [step]
      split
      · apply enumerated_stop _ _ _ _ (fun s => rfl) s
      · rfl
  | returns i =>
      rw [step]
      split
      · apply enumerated_runTail
      · rfl
  | progress r =>
      rw [step]
      split
      · apply enumerated_progressBlock
      · rfl
  | finish r error =>
      rw [step]
      split
      · apply enumerated_finishBlock
      · rfl
  | addHander h => rfl
  | deallocHander h => rfl
  | addObserver o => rfl
  | find finder => rfl
  | edit path content => rfl
  | restart => apply h.symm

/-! ### Rejected starts -/

/-- The note is told to a callback. -/
def Note.toCallback (n : Note) : Bool :=
  match n.recipient with
  | .callback _ => true
  | _ => false

/-- What the event does raises an exception. -/
def Raises (md5 : Bytes → String) (s : State) (e : Event) : Prop :=
  (step (quiet md5) { s with raised := false } e).raised = true

/-- From `s` to `s'` the finish callback of the task is invoked once, with an error, no other
callback is invoked, and the core and all registered callbacks stay as they are. -/
structure LeavesAlone (task : TaskRef) (s s' : State) : Prop where
  core : s'.toCore = s.toCore
  callbacks : ∀ kind k, registered kind k s' = registered kind k s
  answered : ∃ error notes, s'.notes = s.notes ++ notes ∧
    notes.filter Note.toCallback = (s.tasks.cell task).finishCallback.toList.map
      (fun b => { kind := .finish, recipient := .callback b, task, error := some error })

/-- A rejected start raises no exception and leaves everyone else alone. -/
def RejectedAlone (md5 : Bytes → String) (task : TaskRef) (s : State) : Prop :=
  task < s.tasks.next → pCheckTask task s.toCore = false →
    ¬ Raises md5 s (.startTask task) ∧ LeavesAlone task s (step (quiet md5) s (.startTask task))

/-- A rejected task has a task id under which no callback is registered. -/
def RejectedUnshared (task : TaskRef) (s : State) : Prop :=
  task < s.tasks.next → pCheckTask task s.toCore = false →
    ∃ k, (s.tasks.cell task).taskId = some k ∧ ∀ kind, registered kind k s = []

/-- The callbacks after `p_saveCallback:`. -/
theorem registered_pSaveCallback_kind (kind : NoteKind) (task : TaskRef) (k : String) (s : State)
    (k' : String) :
  registered kind k' (pSaveCallback task k s)
    = if k' = k then withCallback ((s.tasks.cell task).callback kind) (registered kind k s)
      else registered kind k' s
  := by
  rw [pSaveCallback]
  cases kind with
  | progress => simp [registered_saveCallback, LCFileNetTask.callback]
  | status => simp [registered_saveCallback, LCFileNetTask.callback]
  | finish => simp [registered_saveCallback, LCFileNetTask.callback]

/-- Saving callbacks while nothing is enumerated raises no exception. -/
theorem raised_pSaveCallback (task : TaskRef) (k : String) {s : State} (h : s.enumerated = []) :
  (pSaveCallback task k s).raised = s.raised
  := by
  simp [pSaveCallback, saveCallback, h]

theorem registered_erase_callbackCache {kind : NoteKind} {k k' : String} {s s' : State}
    (h : s'.callbackCache = fun kind => AList.erase k (s.callbackCache kind)) :
  registered kind k' s' = if k' = k then [] else registered kind k' s
  := by
  rw [registered, h, Dictionary.lookup_erase]
  split
  · rfl
  · rfl

/-- A rejected start of a task with a task id notifies whoever is registered. -/
theorem lcStartTask_rejected {task : TaskRef} {k : String} {s : State}
    (hid : (s.tasks.cell task).taskId = some k) (hcheck : pCheckTask task s.toCore = false) :
  lcStartTask (quiet md5) task s = LCFileNetService.pNotifyFinish (quiet md5) task (some taskError)
    ((pSaveCallback task k s).enter (.settleOnly k (s.tasks.cell task).finishCallback))
  := by
  have hcheck' : pCheckTask task (pSaveCallback task k s).toCore = false := by
    rw [toCore_pSaveCallback]
    apply hcheck
  rw [lcStartTask]
  simp only [hid, hcheck', Bool.false_eq_true, if_false]

/-- The callbacks after a rejected start: those of its task id are dropped. -/
theorem registered_rejected {task : TaskRef} {k : String} {s : State}
    (hid : (s.tasks.cell task).taskId = some k) (hcheck : pCheckTask task s.toCore = false)
    (kind : NoteKind) (k' : String) :
  registered kind k' (lcStartTask (quiet md5) task s)
    = if k' = k then [] else registered kind k' s
  := by
  have hid' : (((pSaveCallback task k s).enter
      (.settleOnly k (s.tasks.cell task).finishCallback)).tasks.cell task).taskId = some k := hid
  obtain ⟨-, hdropped⟩ :=
    @LCFileNetService.pNotifyFinish_quiet md5 _ _ (some taskError) _ hid'
  rw [lcStartTask_rejected hid hcheck, registered_erase_callbackCache hdropped]
  split
  · rfl
  · next hne =>
      apply (registered_pSaveCallback_kind kind task k s k').trans
      rw [if_neg hne]

/-- The callbacks invoked by a rejected start. -/
theorem callbackNotes_rejected {task : TaskRef} {k : String} {s : State}
    (hid : (s.tasks.cell task).taskId = some k) (hcheck : pCheckTask task s.toCore = false) :
  ∃ notes, (lcStartTask (quiet md5) task s).notes = s.notes ++ notes ∧
    notes.filter Note.toCallback
      = (withCallback (s.tasks.cell task).finishCallback (registered .finish k s)).map
        (fun b => { kind := .finish, recipient := .callback b, task, error := some taskError })
  := by
  have hregistered := registered_pSaveCallback_kind .finish task k s k
  rw [if_pos rfl] at hregistered
  have hid' : (((pSaveCallback task k s).enter
      (.settleOnly k (s.tasks.cell task).finishCallback)).tasks.cell task).taskId = some k := hid
  obtain ⟨hnotes, -⟩ :=
    @LCFileNetService.pNotifyFinish_quiet md5 _ _ (some taskError) _ hid'
  rw [lcStartTask_rejected hid hcheck, hnotes]
  refine ⟨_, rfl, ?_⟩
  have hcached : (cached .finish task ((pSaveCallback task k s).enter
      (.settleOnly k (s.tasks.cell task).finishCallback))).elim [] CallbackArray.blocks
      = registered .finish k (pSaveCallback task k s) := by
    rw [cached, hid']
    rfl
  rw [notesOf, List.filter_append, observerNotes, callbackNotes, hcached, hregistered]
  simp [List.filter_map, Function.comp_def, Note.toCallback, LCFileNetTask.callback]

/-- A rejected start leaves everyone else alone exactly if the task has a task id under which no
callback was registered. -/
theorem rejectedAlone_iff {s : State} (h : s.enumerated = []) (task : TaskRef) :
  RejectedAlone md5 task s ↔ RejectedUnshared task s
  := by
  have hstep : task < s.tasks.next → ∀ raised,
      step (quiet md5) { s with raised := raised } (.startTask task)
        = lcStartTask (quiet md5) task { s with raised := raised } := by
    intro hlt raised
    rw [step, if_pos hlt]
  constructor
  · intro halone hlt hcheck
    obtain ⟨hraises, hleaves⟩ := halone hlt hcheck
    cases hid : (s.tasks.cell task).taskId with
    | none =>
        apply absurd _ hraises
        rw [Raises, hstep hlt, lcStartTask]
        simp only [hid]
        rfl
    | some k =>
        refine ⟨k, rfl, ?_⟩
        intro kind
        rw [← hleaves.callbacks kind k, hstep hlt s.raised, registered_rejected hid hcheck,
          if_pos rfl]
  · intro hunshared hlt hcheck
    obtain ⟨k, hid, hnone⟩ := hunshared hlt hcheck
    constructor
    · have hrejected := @lcStartTask_rejected md5 task k { s with raised := false } hid hcheck
      have hsaved := @raised_pSaveCallback task k { s with raised := false } h
      have hid' : (((pSaveCallback task k { s with raised := false }).enter
          (.settleOnly k (s.tasks.cell task).finishCallback)).tasks.cell task).taskId = some k :=
        hid
      rw [Raises, hstep hlt, hrejected, (pNotifyFinish_keeps _ hid').2, State.enter, hsaved]
      apply Bool.false_ne_true
    · rw [hstep hlt s.raised]
      constructor
      · rw [toCore_lcStartTask, Core.startTask]
        simp only [hid, hcheck, Bool.false_eq_true, if_false]
      · intro kind k'
        rw [registered_rejected hid hcheck]
        split
        · next heq => rw [heq, hnone]
        · rfl
      · obtain ⟨notes, hnotes, hcallbacks⟩ := @callbackNotes_rejected md5 task k s hid hcheck
        refine ⟨taskError, notes, hnotes, ?_⟩
        rw [hcallbacks, hnone]
        cases (s.tasks.cell task).finishCallback with
        | none => rfl
        | some b => rfl

/-- In every state of a run of the system, every rejected start leaves everyone else alone
exactly if in every state every rejected task has a task id under which no callback is
registered. -/
theorem throughout_rejectedAlone_iff (md5 : Bytes → String) (db : TaskTable)
    (disk : Disk String Bytes) (es : List Event) :
  Run.Throughout (step (quiet md5)) (fun s => ∀ task, RejectedAlone md5 task s)
      (State.initial db disk) es ↔
    Run.Throughout (step (quiet md5)) (fun s => ∀ task, RejectedUnshared task s)
      (State.initial db disk) es
  := by
  have henumerated : Run.Throughout (step (quiet md5)) (fun s => s.enumerated = [])
      (State.initial db disk) es :=
    Run.throughout_of_invariant (fun s e h => enumerated_step h e) rfl es
  constructor
  · intro h
    apply ((Run.throughout_and_iff henumerated).mpr h).imp
    rintro s ⟨hs, halone⟩ task
    apply (rejectedAlone_iff hs task).mp (halone task)
  · intro h
    apply ((Run.throughout_and_iff henumerated).mpr h).imp
    rintro s ⟨hs, hunshared⟩ task
    apply (rejectedAlone_iff hs task).mpr (hunshared task)

/-- A download that waits for its start, and an upload of the same task id without a file. -/
def sharedTaskId : List Event :=
  [.create { taskId := "k", type := .download, finishCallback := some 0 }, .startTask 0,
    .create { taskId := "k", type := .upload, finishCallback := some 1 }]

/-- The rejected start of the upload invokes and drops the finish callback of the download. -/
theorem not_throughout_rejectedAlone_sharedTaskId :
  ¬ Run.Throughout (step (quiet (fun _ => "")))
      (fun s => ∀ task, RejectedAlone (fun _ => "") task s)
      (State.initial ∅ (fun _ => none)) sharedTaskId
  := by
  intro h
  have hleaves := (h.final 1 (by decide +kernel) (by decide +kernel)).2
  have hcallbacks := hleaves.callbacks .finish "k"
  revert hcallbacks
  decide +kernel

end LCCFileService
