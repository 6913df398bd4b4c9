import LCCFileService.FileNet.State

/-!
# Notifications

The callback caches of `LCFileNetService` and its private methods that notify.  Whoever is
told a note may act on the service, as the environment's `react` says.  Enumerating an
array that has been changed since raises an exception.
-/

namespace LCCFileService

/-- Add a callback to an array, unless there is none or the array contains it. -/
def CallbackArray.add (cb : Option Block) (a : CallbackArray) : CallbackArray :=
  match cb with
  | some b => { a with blocks := Delivery.addNew b a.blocks }
  | none => a

namespace LCFileNetService

variable (E : Env)

/-! ### Callback caches -/

/-- The callbacks of a kind registered under a task id. -/
def registered (kind : NoteKind) (taskId : String) (s : State) : List Block :=
  ((s.callbackCache kind).lookup taskId).elim [] CallbackArray.blocks

/-- One of the three blocks of `p_saveCallback:`, for the callbacks of one kind. -/
def saveCallback (kind : NoteKind) (cb : Option Block) (taskId : String) (s : State) : State :=
  let cache := ((s.callbackCache kind).lookup taskId).getD ⟨s.arrays, []⟩
  { s with
    callbackCache := Function.update s.callbackCache kind
      (AList.insert taskId (cache.add cb) (s.callbackCache kind))
    arrays := s.arrays + 1
    raised := s.raised || (cache.ref ∈ s.enumerated && cache.add cb ≠ cache) }

/-- `p_saveCallback:`, of a task with the given task id. -/
def pSaveCallback (task : TaskRef) (taskId : String) (s : State) : State :=
  let t := s.tasks.cell task
  s |> saveCallback .progress t.progressCallback taskId
    |> saveCallback .status t.statusCallback taskId
    |> saveCallback .finish t.finishCallback taskId

/-- Enter the finish callback of an accepted task into the trace. -/
def enterFinish (task : TaskRef) (taskId : String) (s : State) : State :=
  match (s.tasks.cell task).finishCallback with
  | some b => s.enter (.register taskId b)
  | none => s

/-! ### Telling -/

/-- Tell a note, upon which the one told acts. -/
def tell (n : Note) (s : State) : State := E.react n { s with notes := s.notes ++ [n] }

/-- Tell the observer, and then the objects the `ProtocolFinder` finds. -/
def tellObservers (kind : NoteKind) (task : TaskRef) (error : Option NSError) (s : State) :
    State :=
  let s := match s.observer with
    | some o => tell E { kind, recipient := .observer o, task, error } s
    | none => s
  s.finder.foldl (fun s o => tell E { kind, recipient := .found o, task, error } s) s

/-- `enumerateObjectsUsingBlock:` of an array of callbacks, which is nil if there is none. -/
def enumerate (run : Block → State → State) (callbacks : Option CallbackArray) (s : State) :
    State :=
  match callbacks with
  | some a =>
      let s := a.blocks.foldl (fun s b => run b s) { s with enumerated := a.ref :: s.enumerated }
      { s with enumerated := s.enumerated.erase a.ref }
  | none => s

/-- The callbacks of a kind cached for a task. -/
def cached (kind : NoteKind) (task : TaskRef) (s : State) : Option CallbackArray :=
  (s.tasks.cell task).taskId.bind (s.callbackCache kind).lookup

/-- `p_executeProgressCallbackTask:` -/
def pExecuteProgressCallbackTask (task : TaskRef) (s : State) : State :=
  enumerate (fun obj s => tell E { kind := .progress, recipient := .callback obj, task } s)
    (cached .progress task s) s

/-- `p_executeStatusTaskCallback:` -/
def pExecuteStatusTaskCallback (task : TaskRef) (s : State) : State :=
  enumerate (fun obj s => tell E { kind := .status, recipient := .callback obj, task } s)
    (cached .status task s) s

/-- `p_executeFinishTaskCallback:error:` -/
def pExecuteFinishTaskCallback (task : TaskRef) (error : Option NSError) (s : State) : State :=
  match (s.tasks.cell task).taskId with
  | some taskId =>
      let s := enumerate
        (fun obj s =>
          tell E { kind := .finish, recipient := .callback obj, task, error }
            (s.enter (.invoke taskId obj)))
        (s.finishCallbackCache.lookup taskId) s
      { s with callbackCache := fun kind => AList.erase taskId (s.callbackCache kind) }
        |>.enter (.done taskId)
  | none => s.raise

/-! ### Notifying -/

/-- `p_notifyProgress:` -/
def pNotifyProgress (task : TaskRef) (s : State) : State :=
  let t := s.tasks.cell task
  if t.status ≠ .progress ∨ t.totalSize = 0 ∨ t.finishedSize = 0 then s
  else pExecuteProgressCallbackTask E task (tellObservers E .progress task none s)

/-- `p_notifyStatusChange:` -/
def pNotifyStatusChange (task : TaskRef) (s : State) : State :=
  pExecuteStatusTaskCallback E task (tellObservers E .status task none s)

/-- `p_notifyFinish:error:` -/
def pNotifyFinish (task : TaskRef) (error : Option NSError) (s : State) : State :=
  pExecuteFinishTaskCallback E task error (tellObservers E .finish task error s)

/-! ### LCFileNetOperationObserver -/

/-- `lc_netOperationStart:` -/
def lcNetOperationStart (task : TaskRef) (s : State) : State :=
  let taskId := (s.tasks.cell task).taskId
  s |>.mapCore (·.setStatus task .progress)
    |>.mapCore (·.setDb (LCFileTaskDB.lcUpdateTaskStatus taskId .progress))
    |> pNotifyStatusChange E task

/-- `lc_netOperationStatusFinish:error:` -/
def lcNetOperationStatusFinish (task : TaskRef) (error : Option NSError) (s : State) : State :=
  s |>.mapCore (fun c => if error.isSome then c.setStatus task .failed else c)
    |>.mapCore (fun c => c.setDb (LCFileTaskDB.lcSaveTask (c.tasks.cell task)))
    |> pNotifyFinish E task error

/-- `lc_netOperationProgressUpdate:` -/
def lcNetOperationProgressUpdate (task : TaskRef) (s : State) : State :=
  let t := s.tasks.cell task
  s |>.mapCore
      (·.setDb (LCFileTaskDB.lcUpdateTaskFinishedSize t.taskId t.finishedSize t.totalSize))
    |> pNotifyProgress E task

/-- `lc_netOperationStatusUpadte:` -/
def lcNetOperationStatusUpadte (task : TaskRef) (s : State) : State :=
  let t := s.tasks.cell task
  s |>.mapCore (·.setDb (LCFileTaskDB.lcUpdateTaskStatus t.taskId t.status))
    |> pNotifyStatusChange E task

end LCFileNetService

end LCCFileService
