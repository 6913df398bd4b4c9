import LCCFileService.FileNet.LCFileNetOperation
import LCCFileService.Library.Run

/-!
# The net service

The methods of `LCFileNetService`, and the steps of the system of the service, its
operations, the handler and the application.  An event calls a method of the service,
starts an operation, lets a handler method return, calls a block the handler was given, or
is something the application does.  Events that cannot happen have no effect.
-/

namespace LCCFileService

namespace LCFileNetService

open LCFileNetOperation

variable (E : Env)

/-! ### Private methods -/

/-- `p_checkTask:` -/
def pCheckTask (task : TaskRef) (c : Core) : Bool :=
  let t := c.tasks.cell task
  if t.type = .unknown ∨ t.taskId = none then false
  else if t.type = .upload then t.filePath.elim false c.disk.has
  else true

/-- The MD5 `p_checkTask:` gives to an upload task that passes it without one. -/
def pSetMd5 (md5 : Bytes → String) (task : TaskRef) (c : Core) : Core :=
  let t := c.tasks.cell task
  match t.filePath with
  | some filePath =>
      if t.type = .upload ∧ t.md5 = none then
        c.setTask task
          (fun t => { t with md5 := some (Md5Tools.fileMD5WithPath md5 filePath c.disk) })
      else c
  | none => c

/-- `p_setTask:key:` -/
def pSetTask (task : TaskRef) (key : String) (c : Core) : Core :=
  { c with cache := c.cache.insert key task }

/-- Put a new operation for a task into the dictionary and into its queue. -/
def addOperation (task : TaskRef) (taskId : String) (c : Core) : Core :=
  { c with
    ops := c.ops.alloc { task, hander := c.hander }
    taskOperationDic := c.taskOperationDic.insert taskId c.ops.next }

/-- `p_addTask:queue:`, which is never called for a task without a task id. -/
def pAddTask (task : TaskRef) (c : Core) : Core :=
  let t := c.tasks.cell task
  match t.type, t.taskId with
  | .unknown, _ => c
  | _, some taskId => addOperation task taskId c
  | _, none => c

/-! ### Starting and resuming -/

/-- The error of a task that does not pass `p_checkTask:`. -/
def taskError : NSError where
  domain := "file.service"
  code := 9999
  description := some "task error"

/-- The error of a cancelled task. -/
def canceledError : NSError where
  domain := "file.net.server"
  code := 999
  description := some "task had been canceled"

/-- A task that is found to have finished already is notified again. -/
def alreadyFinished (task : TaskRef) (taskId : String) (s : State) : State :=
  pNotifyFinish E task none (s.enter (.settle taskId))

/-- `lc_startTask:queue:` of a task in the cache. -/
def startCached (oldTask : TaskRef) (taskId : String) (s : State) : State :=
  match (s.tasks.cell oldTask).status with
  | .finish => alreadyFinished E oldTask taskId s
  | .pause | .failed | .interrupt => s.mapCore (pAddTask oldTask)
  | _ => s

/-- `lc_startTask:queue:` of a task with a row. -/
def startStored (row : LCFileNetTaskRow) (taskId : String) (s : State) : State :=
  let dbTask := s.tasks.next
  let s := s.mapCore (fun c => pSetTask dbTask row.taskId (c.allocTask row.object))
  match row.status with
  | .finish => alreadyFinished E dbTask taskId s
  | .progress | .create => s.mapCore (fun c => pAddTask dbTask (c.setStatus dbTask .interrupt))
  | _ => s.mapCore (pAddTask dbTask)

/-- `lc_startTask:queue:` of a new task. -/
def startNew (task : TaskRef) (taskId : String) (c : Core) : Core :=
  c |> pSetTask task taskId
    |>.setDb (LCFileTaskDB.lcSaveTask (c.tasks.cell task))
    |> pAddTask task

/-- `lc_startTask:queue:` after `p_checkTask:`. -/
def startChecked (task : TaskRef) (taskId : String) (s : State) : State :=
  match s.cache.lookup taskId with
  | some oldTask => startCached E oldTask taskId s
  | none =>
      match LCFileTaskDB.lcGetTaskByTaskId taskId s.db with
      | some dbTask => startStored E dbTask taskId s
      | none => s.mapCore (startNew task taskId)

/-- `lc_startTask:queue:`, where a dictionary raises an exception for the key nil. -/
def lcStartTask (task : TaskRef) (s : State) : State :=
  let t := s.tasks.cell task
  match t.taskId with
  | none => s.raise
  | some taskId =>
      let s := pSaveCallback task taskId s
      if pCheckTask task s.toCore then
        startChecked E task taskId ((enterFinish task taskId s).mapCore (pSetMd5 E.md5 task))
      else pNotifyFinish E task (some taskError) (s.enter (.settleOnly taskId t.finishCallback))

/-- `lc_resumTask:queue:`, which looks a task that is not cached up by the task id of nil. -/
def lcResumTask (taskId : String) (s : State) : State :=
  match s.cache.lookup taskId with
  | some task =>
      if (s.tasks.cell task).status = .finish then s else lcStartTask E task s
  | none =>
      match LCFileTaskDB.lcGetTaskByTaskId none s.db with
      | some row =>
          let task := s.tasks.next
          let s := s.mapCore (·.allocTask row.object)
          if row.status = .finish then s else lcStartTask E task s
      | none => s

/-! ### Cancelling and pausing -/

/-- `lc_cancelTask:` after the cancellation of the operation. -/
def cancelTail (taskId : String) (cacheTask : TaskRef) (s : State) : State :=
  s |>.enter (.settle taskId)
    |>.mapCore (fun c => { c with taskOperationDic := c.taskOperationDic.erase taskId })
    |>.mapCore (·.setDb (LCFileTaskDB.lcDeleteTaskByTaskId taskId))
    |>.mapCore (·.setStatus cacheTask .canceled)
    |> pNotifyStatusChange E cacheTask
    |> pNotifyFinish E cacheTask (some canceledError)
    |>.mapCore (fun c => { c with cache := c.cache.erase taskId })

/-- `lc_cancelTask:` -/
def lcCancelTask (taskId : String) (s : State) : State :=
  match s.cache.lookup taskId with
  | none => s
  | some cacheTask =>
      if (s.tasks.cell cacheTask).status = .finish then s
      else
        match s.taskOperationDic.lookup taskId with
        | some operaton =>
            cancel E operaton (.lcCancelTask operaton taskId cacheTask)
              (cancelTail E taskId cacheTask) s
        | none => cancelTail E taskId cacheTask s

/-- `lc_pauseTask:` after the pausing of the operation. -/
def pauseTail (cacheTask : TaskRef) (s : State) : State :=
  s |>.mapCore (·.setStatus cacheTask .pause)
    |> pNotifyStatusChange E cacheTask

/-- The loop of `lc_pauseAllTask`, in which `lc_pauseTask:` is called for every task id. -/
def pauseTasks : List String → State → State
  | [], s => s
  | taskId :: taskIds, s =>
      match s.cache.lookup taskId with
      | none => pauseTasks taskIds s
      | some cacheTask =>
          if (s.tasks.cell cacheTask).status = .finish then pauseTasks taskIds s
          else
            match s.taskOperationDic.lookup taskId with
            | some operaton =>
                pause E operaton (.lcPauseTask operaton cacheTask taskIds)
                  (fun s => pauseTasks taskIds (pauseTail E cacheTask s)) s
            | none => pauseTasks taskIds (pauseTail E cacheTask s)

/-- `lc_pauseTask:` -/
def lcPauseTask (taskId : String) (s : State) : State := pauseTasks E [taskId] s

/-- `lc_pauseAllTask` -/
def lcPauseAllTask (s : State) : State := pauseTasks E s.taskOperationDic.keys s

/-- What the caller of a handler method does when the method returns. -/
def runTail : Tail → State → State
  | .main o, s => pNotifyStart E o s
  | .cancel o, s => stopTail E .canceled o s
  | .pause o, s => stopTail E .pause o s
  | .lcCancelTask o taskId cacheTask, s =>
      cancelTail E taskId cacheTask (stopTail E .canceled o s)
  | .lcPauseTask o cacheTask taskIds, s =>
      pauseTasks E taskIds (pauseTail E cacheTask (stopTail E .pause o s))

/-! ### Other methods -/

/-- `lc_updatetask:filePath:` -/
def lcUpdatetask (key : String) (filePath : Option String) : Core → Core :=
  Core.setDb (LCFileTaskDB.lcUpdateTaskFilePath key filePath)

/-- `lc_getTask:`, which puts a task with a row into the cache. -/
def lcGetTask (taskId : String) (c : Core) : Core :=
  match c.cache.lookup taskId with
  | some _ => c
  | none =>
      match LCFileTaskDB.lcGetTaskByTaskId taskId c.db with
      | some row =>
          let task := c.tasks.next
          let c := c.allocTask row.object
          let c := match row.status with
            | .create | .progress => c.setStatus task .interrupt
            | _ => c
          pSetTask task row.taskId c
      | none => c

end LCFileNetService

open LCFileNetService LCFileNetOperation

/-! ### Steps -/

/-- The events of the system. -/
inductive Event where
  /-- The application makes a task object. -/
  | create (t : LCFileNetTask)
  /-- The application or the handler sets the properties of a task object. -/
  | set (task : TaskRef) (t : LCFileNetTask)
  | startTask (task : TaskRef)
  | resumTask (taskId : String)
  | pauseTask (taskId : String)
  | pauseAllTask
  | cancelTask (taskId : String)
  | getTask (taskId : String)
  | updatetask (key : String) (filePath : Option String)
  /-- A queue starts an operation. -/
  | opStart (o : OpRef)
  /-- An operation is cancelled by its queue. -/
  | opCancel (o : OpRef)
  /-- An operation is paused. -/
  | opPause (o : OpRef)
  /-- The handler method the `i`-th pending tail waits for returns. -/
  | returns (i : Nat)
  /-- The handler calls the progress block of a call. -/
  | progress (r : CallRef)
  /-- The handler calls the finish block of a call. -/
  | finish (r : CallRef) (error : Option NSError)
  | addHander (h : HanderRef)
  | deallocHander (h : HanderRef)
  | addObserver (o : Option ObserverRef)
  | find (finder : List ObserverRef)
  /-- The application edits a file. -/
  | edit (path : String) (content : Option Bytes)
  /-- The process ends, and a new one starts. -/
  | restart
  deriving DecidableEq

/-- The state after an event. -/
def step (E : Env) (s : State) : Event → State
  | .create t => s.mapCore (·.allocTask t)
  | .set task t =>
      if task < s.tasks.next then s.mapCore (·.setTask task (fun _ => t)) else s
  | .startTask task => if task < s.tasks.next then lcStartTask E task s else s
  | .resumTask taskId => lcResumTask E taskId s
  | .pauseTask taskId => lcPauseTask E taskId s
  | .pauseAllTask => lcPauseAllTask E s
  | .cancelTask taskId => lcCancelTask E taskId s
  | .getTask taskId => s.mapCore (lcGetTask taskId)
  | .updatetask key filePath => s.mapCore (lcUpdatetask key filePath)
  | .opStart o =>
      if o < s.ops.next ∧ (s.ops.cell o).started = false then
        start E o (s.mapCore (·.setOp o (fun op => { op with started := true })))
      else s
  | .opCancel o => if o < s.ops.next then cancel E o (.cancel o) id s else s
  | .opPause o => if o < s.ops.next then pause E o (.pause o) id s else s
  | .returns i =>
      match s.pending[i]? with
      | some t => runTail E t (s.mapCore (·.dropTail i))
      | none => s
  | .progress r =>
      if r < s.calls.next ∧ (s.calls.cell r).method.transfers then
        progressBlock E (s.calls.cell r).op s
      else s
  | .finish r error =>
      if r < s.calls.next then
        finishBlock E (s.calls.cell r).method (s.calls.cell r).op error (s.mapCore (·.answer r))
      else s
  | .addHander h => s.mapCore (fun c => { c with hander := some h })
  | .deallocHander h => s.mapCore (fun c => { c with deallocated := h :: c.deallocated })
  | .addObserver o => { s with observer := o }
  | .find finder => { s with finder := finder }
  | .edit path content =>
      s.mapCore (fun c => { c with disk := Function.update c.disk path content })
  | .restart => State.initial s.db s.disk

end LCCFileService
