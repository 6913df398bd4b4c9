import LCCFileService.FileNet.Quiet

/-!
# What is told

Where observers and callbacks do not call back into the service, a notification adds notes
to those told before: one for every observer, and then one for every callback registered
under the task id.
-/

namespace LCCFileService

namespace LCFileNetService

variable {md5 : Bytes → String}

/-- The notes to the observers. -/
def observerNotes (kind : NoteKind) (task : TaskRef) (error : Option NSError) (s : State) :
    List Note :=
  s.observer.toList.map (fun o => { kind, recipient := .observer o, task, error }) ++
    s.finder.map (fun o => { kind, recipient := .found o, task, error })

/-- The notes to the callbacks. -/
def callbackNotes (kind : NoteKind) (task : TaskRef) (error : Option NSError) (s : State) :
    List Note :=
  ((cached kind task s).elim [] CallbackArray.blocks).map
    (fun b => { kind, recipient := .callback b, task, error })

/-- All notes of a notification about a task. -/
def notesOf (kind : NoteKind) (task : TaskRef) (error : Option NSError) (s : State) :
    List Note :=
  observerNotes kind task error s ++ callbackNotes kind task error s

/-- The notes depend on the observers, the callbacks and the task id of the task. -/
theorem notesOf_congr {kind : NoteKind} {task : TaskRef} {error : Option NSError} {s s' : State}
    (hobserver : s'.observer = s.observer) (hfinder : s'.finder = s.finder)
    (hcallbacks : s'.callbackCache = s.callbackCache)
    (hid : (s'.tasks.cell task).taskId = (s.tasks.cell task).taskId) :
  notesOf kind task error s' = notesOf kind task error s
  := by
  rw [notesOf, notesOf, observerNotes, observerNotes, callbackNotes, callbackNotes, cached, cached,
    hobserver, hfinder, hcallbacks, hid]

/-- Somebody is told what happens to the task id. -/
def Heard (kind : NoteKind) (taskId : String) (s : State) : Prop :=
  s.observer.isSome ∨ s.finder ≠ [] ∨ registered kind taskId s ≠ []

instance (kind : NoteKind) (taskId : String) (s : State) : Decidable (Heard kind taskId s) :=
  inferInstanceAs (Decidable (_ ∨ _))

/-- A notification has notes exactly if somebody is told. -/
theorem notesOf_eq_nil_iff {kind : NoteKind} {task : TaskRef} {error : Option NSError}
    {s : State} {taskId : String} (hid : (s.tasks.cell task).taskId = some taskId) :
  notesOf kind task error s = [] ↔ ¬ Heard kind taskId s
  := by
  have hcached : (cached kind task s).elim [] CallbackArray.blocks = registered kind taskId s := by
    rw [cached, hid]
    rfl
  rw [notesOf, observerNotes, callbackNotes, hcached, Heard]
  simp

/-- Telling notes one after another. -/
theorem foldl_tell {α : Type} (note : α → Note) (as : List α) (s : State) :
  as.foldl (fun s a => tell (quiet md5) (note a) s) s
    = { s with notes := s.notes ++ as.map note }
  := by
  induction as generalizing s with
  | nil => simp
  | cons a as ih =>
      rw [List.foldl_cons, ih, List.map_cons]
      simp [tell, quiet]

theorem tellObservers_quiet (kind : NoteKind) (task : TaskRef) (error : Option NSError)
    (s : State) :
  tellObservers (quiet md5) kind task error s
    = { s with notes := s.notes ++ observerNotes kind task error s }
  := by
  rw [tellObservers, observerNotes, foldl_tell]
  cases hobserver : s.observer with
  | none => simp [hobserver]
  | some o => simp [tell, quiet, hobserver]

/-- Enumerating callbacks that only tell a note. -/
theorem enumerate_tell (note : Block → Note) (callbacks : Option CallbackArray) (s : State) :
  enumerate (fun b s => tell (quiet md5) (note b) s) callbacks s
    = { s with notes := s.notes ++ (callbacks.elim [] CallbackArray.blocks).map note }
  := by
  cases callbacks with
  | none => simp [enumerate]
  | some a => simp [enumerate, foldl_tell]

theorem pNotifyStatusChange_quiet (task : TaskRef) (s : State) :
  pNotifyStatusChange (quiet md5) task s
    = { s with notes := s.notes ++ notesOf .status task none s }
  := by
  rw [pNotifyStatusChange, pExecuteStatusTaskCallback, enumerate_tell, tellObservers_quiet,
    notesOf, ← List.append_assoc]
  rfl

/-- The progress of the task is not told. -/
def Silent (t : LCFileNetTask) : Prop :=
  t.status ≠ .progress ∨ t.totalSize = 0 ∨ t.finishedSize = 0

instance (t : LCFileNetTask) : Decidable (Silent t) := inferInstanceAs (Decidable (_ ∨ _))

theorem pNotifyProgress_silent {task : TaskRef} {s : State} (h : Silent (s.tasks.cell task)) :
  pNotifyProgress (quiet md5) task s = s
  := if_pos h

theorem pNotifyProgress_told {task : TaskRef} {s : State} (h : ¬ Silent (s.tasks.cell task)) :
  pNotifyProgress (quiet md5) task s
    = { s with notes := s.notes ++ notesOf .progress task none s }
  := by
  apply (if_neg h).trans
  rw [pExecuteProgressCallbackTask, enumerate_tell, tellObservers_quiet, notesOf,
    ← List.append_assoc]
  rfl

/-- Enumerating callbacks that are entered into the trace and told a note. -/
theorem notes_foldl_invoke (taskId : String) (note : Block → Note) (bs : List Block)
    (s : State) :
  (bs.foldl (fun s b => tell (quiet md5) (note b) (s.enter (.invoke taskId b))) s).notes
      = s.notes ++ bs.map note ∧
    (bs.foldl (fun s b => tell (quiet md5) (note b) (s.enter (.invoke taskId b)))
      s).callbackCache = s.callbackCache
  := by
  induction bs generalizing s with
  | nil => simp
  | cons b bs ih =>
      rw [List.foldl_cons, List.map_cons]
      obtain ⟨hnotes, hcache⟩ := ih (tell (quiet md5) (note b) (s.enter (.invoke taskId b)))
      rw [hnotes, hcache]
      simp [tell, quiet, State.enter]

/-- The callbacks of a finished task are told, and then dropped. -/
theorem pNotifyFinish_quiet {task : TaskRef} {taskId : String} (error : Option NSError)
    {s : State} (hid : (s.tasks.cell task).taskId = some taskId) :
  (pNotifyFinish (quiet md5) task error s).notes = s.notes ++ notesOf .finish task error s ∧
    (pNotifyFinish (quiet md5) task error s).callbackCache
      = fun kind => AList.erase taskId (s.callbackCache kind)
  := by
  have hcached : cached .finish task s = s.finishCallbackCache.lookup taskId := by
    rw [cached, hid]
    rfl
  rw [pNotifyFinish, tellObservers_quiet, pExecuteFinishTaskCallback]
  simp only [hid]
  rw [notesOf, ← List.append_assoc, callbackNotes, hcached]
  cases s.finishCallbackCache.lookup taskId with
  | none => simp [enumerate, State.enter]
  | some a =>
      obtain ⟨hnotes, hcache⟩ := @notes_foldl_invoke md5 taskId
        (fun b => { kind := .finish, recipient := .callback b, task, error }) a.blocks
        { s with
          notes := s.notes ++ observerNotes .finish task error s
          enumerated := a.ref :: s.enumerated }
      simp only [enumerate, State.enter, Option.elim_some]
      constructor
      · apply hnotes
      · funext kind
        apply congrArg (AList.erase taskId) (congrFun hcache kind)

/-- A change of the core that keeps the task id of the task keeps the notes. -/
theorem notesOf_mapCore (kind : NoteKind) {task : TaskRef} (error : Option NSError)
    {f : Core → Core} {s : State}
    (hf : ((f s.toCore).tasks.cell task).taskId = (s.tasks.cell task).taskId) :
  notesOf kind task error (s.mapCore f) = notesOf kind task error s
  := notesOf_congr rfl rfl rfl hf

/-- A status change is told after a change of the core that keeps the task id. -/
theorem pNotifyStatusChange_mapCore {task : TaskRef} {f : Core → Core} {s : State}
    (hf : ((f s.toCore).tasks.cell task).taskId = (s.tasks.cell task).taskId) :
  (pNotifyStatusChange (quiet md5) task (s.mapCore f)).toNotifier
    = { s.toNotifier with notes := s.notes ++ notesOf .status task none s }
  := by
  rw [pNotifyStatusChange_quiet, notesOf_mapCore .status none hf]
  rfl

/-- A finish is told after a change of the core that keeps the task id. -/
theorem pNotifyFinish_mapCore {task : TaskRef} {taskId : String} (error : Option NSError)
    {f : Core → Core} {s : State}
    (hf : ((f s.toCore).tasks.cell task).taskId = (s.tasks.cell task).taskId)
    (hid : (s.tasks.cell task).taskId = some taskId) :
  (pNotifyFinish (quiet md5) task error (s.mapCore f)).notes
      = s.notes ++ notesOf .finish task error s ∧
    (pNotifyFinish (quiet md5) task error (s.mapCore f)).callbackCache
      = fun kind => AList.erase taskId (s.callbackCache kind)
  := by
  have hfinish := @pNotifyFinish_quiet md5 task taskId error (s.mapCore f) (hf.trans hid)
  rw [notesOf_mapCore .finish error hf] at hfinish
  apply hfinish

end LCFileNetService

namespace LCFileNetOperation

open LCFileNetService

variable {md5 : Bytes → String}

/-- Recording a status tells it. -/
theorem pNotifyStatusUpadte_quiet (o : OpRef) (status : LCFileNetTaskStatus) (s : State) :
  (pNotifyStatusUpadte (quiet md5) o status s).toNotifier
    = { s.toNotifier with notes := s.notes ++ notesOf .status (s.taskOf o) none s }
  := by
  rw [pNotifyStatusUpadte, lcNetOperationStatusUpadte, pNotifyStatusChange_mapCore rfl,
    notesOf_mapCore .status none]
  · rfl
  · apply Core.taskId_setTask

/-- Recording the finish of a task tells it, and drops the callbacks. -/
theorem pNotifyFinish_quiet {o : OpRef} {s : State} {k : String} (error : Option NSError)
    (hid : s.taskIdOf o = some k) :
  (pNotifyFinish (quiet md5) o error s).notes
      = s.notes ++ notesOf .finish (s.taskOf o) error s ∧
    (pNotifyFinish (quiet md5) o error s).callbackCache
      = fun kind => AList.erase k (s.callbackCache kind)
  := by
  have hset : ∀ c : Core, ((if error.isSome then c.setStatus (s.taskOf o) .failed else c).tasks.cell
      (s.taskOf o)).taskId = (c.tasks.cell (s.taskOf o)).taskId := by
    intro c
    split
    · apply Core.taskId_setTask
    · rfl
  have hnotes : notesOf .finish (s.taskOf o) error (s.mapCore
        (fun c => if error.isSome then c.setStatus (s.taskOf o) .failed else c))
      = notesOf .finish (s.taskOf o) error s := by
    apply notesOf_mapCore
    apply hset
  rw [pNotifyFinish, lcNetOperationStatusFinish, ← hnotes]
  apply pNotifyFinish_mapCore
  · rfl
  · apply (hset s.toCore).trans hid

/-- The end of an operation tells the status and then the finish, and drops the callbacks. -/
theorem notes_ended {o : OpRef} {s : State} {k : String} (hid : s.taskIdOf o = some k)
    (error : Option NSError) :
  (ended (quiet md5) o error s).notes
      = s.notes ++ notesOf .status (s.taskOf o) none s ++ notesOf .finish (s.taskOf o) error s ∧
    (ended (quiet md5) o error s).callbackCache = fun kind => AList.erase k (s.callbackCache kind)
  := by
  obtain ⟨e, henter⟩ : ∃ e, enterEnd o s = s.enter e := by
    rw [Core.taskIdOf] at hid
    simp only [enterEnd, hid]
    split
    · exact ⟨_, rfl⟩
    · exact ⟨_, rfl⟩
  have hnotifier := @pNotifyStatusUpadte_quiet md5 o (outcome error) (s.enter e)
  have hcore := @toCore_pNotifyStatusUpadte md5 o (outcome error) (s.enter e)
  set s' := pNotifyStatusUpadte (quiet md5) o (outcome error) (s.enter e) with hs'
  have hended : ended (quiet md5) o error s
      = (pNotifyFinish (quiet md5) o error s').mapCore (pFinishOperatioin o) := by
    rw [ended, henter, hs']
    rfl
  have htaskOf : s'.taskOf o = s.taskOf o := by
    rw [Core.taskOf, hcore]
    rfl
  have hid' : (s'.tasks.cell (s.taskOf o)).taskId = (s.tasks.cell (s.taskOf o)).taskId := by
    rw [hcore]
    apply Core.taskId_recordStatus
  have hidOf : s'.taskIdOf o = some k := by
    rw [Core.taskIdOf, htaskOf, hid']
    apply hid
  obtain ⟨hnotes, hcallbacks⟩ := @pNotifyFinish_quiet md5 o s' k error hidOf
  have hfinish : notesOf .finish (s.taskOf o) error s' = notesOf .finish (s.taskOf o) error s := by
    apply notesOf_congr _ _ _ hid'
    · rw [hnotifier]
      rfl
    · rw [hnotifier]
      rfl
    · rw [hnotifier]
      rfl
  rw [hended, State.toNotifier_mapCore, hnotes, hcallbacks, htaskOf, hfinish, hnotifier]
  exact ⟨rfl, rfl⟩

/-- A finish block that does not end its operation tells nothing. -/
theorem toNotifier_finishBlock {method : HanderMethod} {error : Option NSError}
    (h : ¬ method.Ends error) (E : Env) (o : OpRef) (s : State) :
  (finishBlock E method o error s).toNotifier = s.toNotifier
  := by
  obtain heq | heq | heq := finishBlock_of_not_ends h E o s
  · rw [heq]
  · rw [heq]
    rfl
  · rw [heq]
    rfl

end LCFileNetOperation

end LCCFileService
